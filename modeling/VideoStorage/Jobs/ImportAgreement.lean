import VideoStorage.Jobs.ImportRun

/-!
# The legacy import: pages and single rows

A page is imported in one transaction, and row by row when that fails. Whatever
rows the database refuses and wherever the pages are cut, a run leaves what it
would have left with a transaction for every row (`importBatch_same`): the same
tables, failures and totals, and the same events in the same order. Only the
cursors differ, of which a rolled back page has drawn some.
-/

namespace VideoStorage.Jobs.MediaImports

open Foundation MediaIndex
open MediaPhash (Db performTxn)
open VideoStorage.Db (VideoTables)

/-! ## One row at a time -/

/-- The rows of `video_index` that the master table lacks. -/
def missingRows (vi : VideoTables) (t : Tables) : List LegacyVideoIndexRow :=
  (legacyRows vi).filter (missingPast none t)

/-- What a run is to import: the missing rows by id, as many as the limit says. -/
def rowsToImport (env : ImportEnv) (vi : VideoTables) (t : Tables) :
    List LegacyVideoIndexRow :=
  orderLimit LegacyVideoIndexRow.videoId (env.limit.map Int.toNat)
    (missingRows vi t)

/-- The import without pages: a transaction for every row. -/
def importOneByOne (env : ImportEnv) (vi : VideoTables) (db : Db) :
    ImportResult :=
  let rows := rowsToImport env vi db.tables
  match importRows env rows (importInit env db) with
  | (s, some e) => (s, .error e)
  | (s, none) => (s.scanned rows).finish false

/-- The same database but for the cursors of its feed. -/
structure SameButCursors (db db₂ : Db) : Prop where
  tables : db₂.tables = db.tables
  failures : db₂.failures = db.failures
  events : db₂.feed.map Prod.snd = db.feed.map Prod.snd

namespace SameButCursors

variable {db db₂ db₃ : Db}

theorem refl (db : Db) : SameButCursors db db := ⟨rfl, rfl, rfl⟩

theorem symm (h : SameButCursors db db₂) : SameButCursors db₂ db :=
  ⟨h.tables.symm, h.failures.symm, h.events.symm⟩

theorem trans (h : SameButCursors db db₂) (h₂ : SameButCursors db₂ db₃) :
    SameButCursors db db₃ :=
  ⟨h₂.tables.trans h.tables, h₂.failures.trans h.failures,
    h₂.events.trans h.events⟩

end SameButCursors

/-- Where the circuit breaker and the totals stand the same; how many rows count
as scanned is left open. -/
structure ImportState.Same (s s₂ : ImportState) : Prop where
  db : SameButCursors s.db s₂.db
  totals : { s₂.summary with scannedRows := s.summary.scannedRows } = s.summary
  consecutiveFailures : s₂.consecutiveFailures = s.consecutiveFailures

/-! ## Transactions -/

section Transactions

variable {env : ImportEnv} {db db' db₂ : Db} {row : LegacyVideoIndexRow}
  {rows : List LegacyVideoIndexRow}

/-- A commit adds to a database what the transaction did. -/
theorem sameButCursors_commit {l l₂ : Loc (mediaIndex .none)} {seq seq₂ : ℕ}
    {l₀ : Loc (mediaIndex .none)} {failures : JobFailures}
    (hsame : SameButCursors (db.commit seq l₀ failures) db₂)
    (heffect : Loc.SameEffect {} l l₀ l₂) {failures' : JobFailures} {seq' : ℕ} :
    SameButCursors (db₂.commit seq₂ l failures') (db.commit seq' l₂ failures') := by
  obtain ⟨ws, hw, hw₂⟩ := heffect.writes
  obtain ⟨es, es₂, he, he₂, hes⟩ := heffect.pend
  obtain rfl : l.writes = ws := hw
  obtain rfl : l.pend = es := he
  have htables : db₂.tables = l₀.view db.tables := hsame.tables
  have hevents : db₂.feed.map Prod.snd = (db.feed ++ l₀.pend).map Prod.snd :=
    hsame.events
  refine ⟨?_, rfl, ?_⟩
  · show l₂.view db.tables = l.view db₂.tables
    unfold Loc.view at htables ⊢
    rw [htables, hw₂, Schema.applyWrites_append]
  · show (db.feed ++ l₂.pend).map Prod.snd = (db₂.feed ++ l.pend).map Prod.snd
    rw [List.map_append, List.map_append, hevents, he₂, List.map_append,
      List.map_append, List.append_assoc, hes]

theorem transact_same {α : Type} {txn : MediaTxn .none α} {a : α}
    (hnum : Numberless txn) (hsame : SameButCursors db db₂)
    (h : env.transact rows txn db = .ok (a, db')) :
    ∃ db₂', env.transact rows txn db₂ = .ok (a, db₂') ∧
      SameButCursors db' db₂' := by
  obtain ⟨hrows, seq, l, failures, hperform, rfl⟩ := transact_eq_ok.mp h
  have hview : ({} : Loc (mediaIndex .none)).view db₂.tables
      = ({} : Loc (mediaIndex .none)).view db.tables := by
    rw [hsame.tables]
  obtain ⟨seq₂, l₂, hperform₂, heffect⟩ :=
    perform_elsewhere hnum hview id hperform db₂.seq
  rw [← hsame.failures] at hperform₂
  have hstart : SameButCursors (db₂.commit seq {} db₂.failures) db := by
    refine ⟨hsame.tables.symm, hsame.failures.symm, ?_⟩
    show db.feed.map Prod.snd = (db₂.feed ++ []).map Prod.snd
    rw [List.append_nil, hsame.events]
  exact ⟨_, transact_eq_ok.mpr ⟨hrows, seq₂, l₂, failures, hperform₂, rfl⟩,
    sameButCursors_commit hstart heffect⟩

theorem importOneRow_refused {e : SqlError}
    (h : env.rowError row.videoId = some e) :
    env.importOneRow row db = .error e := by
  unfold ImportEnv.importOneRow ImportEnv.transact
  rw [List.findSome?_cons, h]

theorem importOneRow_isOk (h : env.rowError row.videoId = none) (db : Db) :
    ∃ imported db', env.importOneRow row db = .ok (imported, db') := by
  obtain ⟨imported, seq, l, failures, hperform, -⟩ :=
    (@performs_importOneRowTxn db.tables {} db.failures 0 env.sfwBucket
      env.jobRunId idleOracle row) db.seq
  refine ⟨imported, _, transact_eq_ok.mpr ⟨?_, seq, l, failures, hperform, rfl⟩⟩
  intro r hr
  rw [List.mem_singleton.mp hr]
  exact h

theorem importPage_refused (h : ∃ row ∈ rows, env.rowError row.videoId ≠ none) :
    ∃ e, env.importPage rows db = .error e := by
  unfold ImportEnv.importPage ImportEnv.transact
  cases hrefused : rows.findSome? (env.rowError ·.videoId) with
  | some e => exact ⟨e, rfl⟩
  | none =>
      obtain ⟨row, hrow, hne⟩ := h
      exact absurd (List.findSome?_eq_none_iff.mp hrefused row hrow) hne

/-- The first row of a page, and then the rest as a page of its own. -/
theorem importPage_cons {imported : ImportedRow} {rest : List ImportedRow}
    {db₁ : Db} (hone : env.importOneRow row db = .ok (imported, db₁))
    (hpage : env.importPage rows db₁ = .ok (rest, db₂)) :
    ∃ db₂', env.importPage (row :: rows) db = .ok (imported :: rest, db₂') ∧
      SameButCursors db₂ db₂' := by
  obtain ⟨hrow, seq₀, l₀, failures₀, hperform₀, rfl⟩ := transact_eq_ok.mp hone
  obtain ⟨hrows, seq, l, failures, hperform, rfl⟩ := transact_eq_ok.mp hpage
  -- the rest runs over what the first row wrote, from where it left off
  obtain ⟨seq₂, l₂, hperform₂, heffect⟩ := @perform_elsewhere _ _ _ _ _ _ _ _ {}
    l failures₀ failures _ _ _ (l₀.view db.tables) db.tables l₀
    (numberless_importPageTxn env.sfwBucket env.jobRunId rows) rfl nofun
    hperform seq₀
  have hperform' : performTxn 0
      (importPageTxn env.sfwBucket env.jobRunId (row :: rows)) db
        = .ok (imported :: rest, seq₂, l₂, failures) := by
    unfold performTxn at hperform₀ ⊢
    unfold importPageTxn
    rw [Prog.bind_eq, perform_bind, hperform₀]
    show perform _ _ _ _ (Prog.bind _ _) _ _ _ = _
    rw [perform_bind, hperform₂]
    rfl
  refine ⟨_, transact_eq_ok.mpr ⟨?_, seq₂, l₂, failures, hperform', rfl⟩,
    sameButCursors_commit (.refl _) heffect⟩
  intro r hr
  rcases List.mem_cons.mp hr with rfl | hr
  · exact hrow r List.mem_cons_self
  · exact hrows r hr

end Transactions

/-! ## The fallback -/

section Fallback

variable {env : ImportEnv} {s s₂ : ImportState} {row : LegacyVideoIndexRow}
  {rows rows₂ page : List LegacyVideoIndexRow}

theorem importRows_imported {imported : ImportedRow} {db : Db}
    (h : env.importOneRow row s.db = .ok (imported, db)) :
    importRows env (row :: rows) s = importRows env rows (s.imported [imported] db) := by
  rw [importRows, h]

/-- A refused row is recorded, and ends the run when it is one too many. -/
theorem importRows_refused {e : SqlError}
    (h : env.rowError row.videoId = some e) :
    ∃ failures, s.db.failures.recordImport env.jobRunId row.videoId "import_error"
        (env.errorText e) = .ok failures ∧
      importRows env (row :: rows) s =
        let s' := (s.rolledBack (env.drawn [row])).failed failures
        if maxConsecutiveImportFailures ≤ s'.consecutiveFailures then
          (s', some (.tooManyConsecutiveFailures s'.consecutiveFailures
            (env.errorText e)))
        else importRows env rows s' := by
  obtain ⟨failures, hrec⟩ := recordImport_isOk env.jobRunId row.videoId
    "import_error" (env.errorText e) s.db.failures
  refine ⟨failures, hrec, ?_⟩
  rw [importRows, importOneRow_refused h]
  dsimp only
  rw [hrec]

theorem importRows_append :
    importRows env (rows ++ rows₂) s =
      match importRows env rows s with
      | (s', some e) => (s', some e)
      | (s', none) => importRows env rows₂ s' := by
  induction rows generalizing s with
  | nil => rfl
  | cons row rows ih =>
      rw [List.cons_append]
      cases hrow : env.rowError row.videoId with
      | none =>
          obtain ⟨imported, db, hone⟩ := importOneRow_isOk hrow s.db
          rw [importRows_imported hone, importRows_imported hone]
          exact ih
      | some e =>
          obtain ⟨failures, hrec, hrows⟩ := @importRows_refused env s row rows e hrow
          obtain ⟨failures', hrec', hrows'⟩ :=
            @importRows_refused env s row (rows ++ rows₂) e hrow
          obtain rfl := Except.ok.inj (hrec.symm.trans hrec')
          rw [hrows, hrows']
          dsimp only
          split_ifs
          · rfl
          · exact ih

theorem foldl_add_scannedRows (imported : List ImportedRow)
    (sum : ImportSummary) (n : ℤ) :
    { imported.foldl (fun sum r => sum.add r.counts) sum with scannedRows := n }
      = imported.foldl (fun sum r => sum.add r.counts)
          { sum with scannedRows := n } := by
  induction imported generalizing sum with
  | nil => rfl
  | cons r imported ih => exact ih (sum.add r.counts)

theorem scannedRows_foldl_add (imported : List ImportedRow)
    (sum : ImportSummary) :
    (imported.foldl (fun sum r => sum.add r.counts) sum).scannedRows
      = sum.scannedRows := by
  induction imported generalizing sum with
  | nil => rfl
  | cons r imported ih => exact ih (sum.add r.counts)

namespace ImportState.Same

theorem refl (s : ImportState) : s.Same s := ⟨.refl _, rfl, rfl⟩

theorem symm (h : s.Same s₂) : s₂.Same s := by
  refine ⟨h.db.symm, ?_, h.consecutiveFailures.symm⟩
  rw [← h.totals]

theorem trans {s₃ : ImportState} (h : s.Same s₂) (h₂ : s₂.Same s₃) :
    s.Same s₃ := by
  refine ⟨h.db.trans h₂.db, ?_,
    h₂.consecutiveFailures.trans h.consecutiveFailures⟩
  rw [← h.totals, ← h₂.totals]

theorem imported (h : s.Same s₂) (imported : List ImportedRow) {db db₂ : Db}
    (hdb : SameButCursors db db₂) :
    (s.imported imported db).Same (s₂.imported imported db₂) := by
  refine ⟨hdb, ?_, rfl⟩
  unfold ImportState.imported
  dsimp only
  rw [scannedRows_foldl_add, foldl_add_scannedRows, h.totals]

theorem rolledBack (h : s.Same s₂) (n : ℕ) : (s.rolledBack n).Same s₂ :=
  ⟨⟨h.db.tables, h.db.failures, h.db.events⟩, h.totals, h.consecutiveFailures⟩

theorem failed (h : s.Same s₂) (failures : JobFailures) :
    (s.failed failures).Same (s₂.failed failures) := by
  refine ⟨⟨h.db.tables, rfl, h.db.events⟩, ?_, ?_⟩
  · unfold ImportState.failed
    dsimp only
    rw [← h.totals]
    rfl
  · unfold ImportState.failed
    dsimp only
    rw [h.consecutiveFailures]

theorem scanned (h : s.Same s₂) (page : List LegacyVideoIndexRow) :
    (s.scanned page).Same s₂ := by
  refine ⟨h.db, ?_, h.consecutiveFailures⟩
  unfold ImportState.scanned
  dsimp only
  rw [← h.totals]

end ImportState.Same

/-- **The fallback looks at no cursor**: from two states that differ in nothing
else it goes on in the same way. -/
theorem importRows_same (h : s.Same s₂) :
    (importRows env rows s).1.Same (importRows env rows s₂).1 ∧
      (importRows env rows s₂).2 = (importRows env rows s).2 := by
  induction rows generalizing s s₂ with
  | nil => exact ⟨h, rfl⟩
  | cons row rows ih =>
      cases hrow : env.rowError row.videoId with
      | none =>
          obtain ⟨imported, db, hone⟩ := importOneRow_isOk hrow s.db
          obtain ⟨db₂, hone₂, hdb⟩ := transact_same
            (numberless_importOneRowTxn _ _ _) h.db hone
          rw [importRows_imported hone, importRows_imported hone₂]
          exact ih (h.imported [imported] hdb)
      | some e =>
          obtain ⟨failures, hrec, hrows⟩ := @importRows_refused env s row rows e hrow
          obtain ⟨failures₂, hrec₂, hrows₂⟩ :=
            @importRows_refused env s₂ row rows e hrow
          rw [h.db.failures] at hrec₂
          obtain rfl := Except.ok.inj (hrec.symm.trans hrec₂)
          have hsame := ((h.rolledBack (env.drawn [row])).symm.rolledBack
            (env.drawn [row])).symm.failed failures
          rw [hrows, hrows₂]
          dsimp only
          rw [hsame.consecutiveFailures]
          split_ifs
          · exact ⟨hsame, rfl⟩
          · exact ih hsame

/-- A page with no refused row is what its rows are one by one. -/
theorem importPage_clean (hclean : ∀ row ∈ rows, env.rowError row.videoId = none)
    (s : ImportState) : ∃ imported db s',
      env.importPage rows s.db = .ok (imported, db) ∧
      importRows env rows s = (s', none) ∧ SameButCursors db s'.db ∧
      s'.summary = imported.foldl (fun sum r => sum.add r.counts) s.summary ∧
      (rows ≠ [] → s'.consecutiveFailures = 0) := by
  induction rows generalizing s with
  | nil =>
      refine ⟨[], s.db.commit s.db.seq {} s.db.failures, s, rfl, rfl,
        ⟨rfl, rfl, ?_⟩, rfl, fun h => absurd rfl h⟩
      show s.db.feed.map Prod.snd = (s.db.feed ++ []).map Prod.snd
      rw [List.append_nil]
  | cons row rows ih =>
      obtain ⟨first, db₁, hone⟩ :=
        importOneRow_isOk (hclean row List.mem_cons_self) s.db
      obtain ⟨rest, db₂, s', hpage, hrows, hdb, hsum, hconsecutive⟩ :=
        ih (fun r hr => hclean r (List.mem_cons_of_mem _ hr)) (s.imported [first] db₁)
      obtain ⟨db₃, hpage₃, hdb₃⟩ := importPage_cons hone hpage
      refine ⟨first :: rest, db₃, s', hpage₃, ?_, hdb₃.symm.trans hdb, hsum, ?_⟩
      · rw [importRows_imported hone]
        exact hrows
      · intro _
        cases rows with
        | nil =>
            cases hrows
            rfl
        | cons _ _ => exact hconsecutive (List.cons_ne_nil _ _)

/-- **A page and its rows**: whether the page is committed as a whole or rolled
back and imported row by row makes no difference but for cursors. -/
theorem importBatch_same (hpage : page ≠ []) (h : s.Same s₂) :
    (importBatch env page s).1.Same (importRows env page s₂).1 ∧
      (importRows env page s₂).2 = (importBatch env page s).2 := by
  by_cases hclean : ∀ row ∈ page, env.rowError row.videoId = none
  · obtain ⟨imported, db, s', hok, hrows, hdb, hsum, hconsecutive⟩ :=
      importPage_clean hclean s
    have hbatch : importBatch env page s = (s.imported imported db, none) := by
      unfold importBatch
      rw [hok]
    have hsame : (s.imported imported db).Same s' :=
      ⟨hdb, by rw [hsum]; rfl, hconsecutive hpage⟩
    obtain ⟨hrows₂, hend⟩ := @importRows_same env s s₂ page h
    rw [hrows] at hrows₂ hend
    rw [hbatch]
    exact ⟨hsame.trans hrows₂, hend⟩
  · obtain ⟨e, he⟩ := @importPage_refused env s.db page (by simpa using hclean)
    have hbatch : importBatch env page s
        = importRows env page (s.rolledBack (env.drawn page)) := by
      unfold importBatch
      rw [he]
    rw [hbatch]
    exact importRows_same (h.rolledBack (env.drawn page))

end Fallback

end VideoStorage.Jobs.MediaImports
