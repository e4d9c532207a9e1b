import VideoStorage.Jobs.ImportAgreement

/-!
# The legacy import: nothing lost, nothing twice

The pages of a run, one after the other, are the rows that were missing when it
began (`Scanned`), so that a run ends as the import of these rows one by one
(`importCurrentVideoIndex_ended`). What it imported is of no interest to a run
after it; only rows that a limit left over are (`Ended.rests`).
-/

namespace VideoStorage.Jobs.MediaImports

open Foundation MediaIndex
open MediaPhash (Db performTxn)
open VideoStorage.Db (VideoTables)

/-! ## What a row leaves -/

section Row

variable {O : OtherWork} {st : (mediaIndex O).Store}
  {l l' l₁ l₂ : Loc (mediaIndex O)} {sfwBucket jobRunId videoId : String}
  {row : LegacyVideoIndexRow}

/-- No hash of another video was touched, and the events appended are about this
one. -/
structure HashesOf (st : (mediaIndex O).Store) (videoId : String)
    (l l' : Loc (mediaIndex O)) : Prop where
  hashes : ∀ key : HashKey, key.videoId ≠ videoId →
    (mediaIndex O).get (l'.view st) (TableKey.hash key)
      = (mediaIndex O).get (l.view st) (TableKey.hash key)
  events : ∃ es, l'.pend = l.pend ++ es ∧ ∀ e ∈ es, e.2.videoId = videoId

theorem HashesOf.refl : HashesOf st videoId l l :=
  ⟨fun _ _ => rfl, [], (List.append_nil _).symm, nofun⟩

theorem HashesOf.trans (h : HashesOf st videoId l l₁)
    (h₁ : HashesOf st videoId l₁ l₂) : HashesOf st videoId l l₂ := by
  obtain ⟨es, hes, habout⟩ := h.events
  obtain ⟨es₁, hes₁, habout₁⟩ := h₁.events
  refine ⟨fun key hkey => (h₁.hashes key hkey).trans (h.hashes key hkey),
    es ++ es₁, ?_, ?_⟩
  · rw [hes₁, hes, List.append_assoc]
  · intro e he
    rcases List.mem_append.mp he with he | he
    · exact habout e he
    · exact habout₁ e he

theorem hashesOf_append {outcome : UpsertOutcome} {input : FeedEventInput}
    {u : Unit} (h : Eval st (appendIfWritten (O := O) outcome input) l u l')
    (hvideo : input.videoId = videoId) : HashesOf st videoId l l' := by
  rcases eval_appendIfWritten h with ⟨-, rfl⟩ | ⟨-, hview, n, hpend⟩
  · exact .refl
  · refine ⟨fun key _ => by rw [hview], [(n, input.toRow)], hpend, ?_⟩
    intro e he
    rw [List.mem_singleton.mp he]
    exact hvideo

theorem hashesOf_importMedia {storage : StorageRef}
    {out : ServableVideoUpsertOutcome}
    (h : Eval st (importMediaRowTxn (O := O) row storage) l out l') :
    HashesOf st row.videoId l l' := by
  obtain ⟨honly, -⟩ := eval_importMediaRowTxn h
  refine ⟨fun key _ => honly.rows (TableKey.hash key) ?_, [], ?_, nofun⟩
  · rintro (h | ⟨_, ⟨⟩⟩)
    cases h
  · rw [honly.pend, List.append_nil]

theorem hashesOf_importHash {hashes : List (HashRecordInput × UpsertOutcome)}
    (h : Eval st (importHashTxn (O := O) sfwBucket row) l hashes l') :
    HashesOf st row.videoId l l' := by
  rcases importHashTxn_runs h with ⟨-, rfl⟩ |
    ⟨phash, kind, version, outcome, l₁, u, hup, happ, -⟩
  · exact .refl
  · obtain ⟨honly, -⟩ := eval_upsertHashRecordTxn hup
    have hupsert : HashesOf st row.videoId l l₁ := by
      refine ⟨fun key hkey => honly.rows (TableKey.hash key) ?_, [], ?_, nofun⟩
      · rintro ⟨⟩
        exact hkey rfl
      · rw [honly.pend, List.append_nil]
    exact hupsert.trans (hashesOf_append happ rfl)

/-- A row with a key; a keyless one does nothing here. -/
theorem hashesOf_importOneRow {imported : ImportedRow}
    (h : Eval st (importOneRowTxn (O := O) sfwBucket row jobRunId) l imported l') :
    HashesOf st row.videoId l l' ∧
      (canonicalStorage sfwBucket row = none → l' = l) := by
  rcases importOneRowTxn_runs h with ⟨hnone, -, -, rfl⟩ |
    ⟨storage, out, l₁, u, l₂, hstorage, hmedia, happ, hhash, -⟩
  · exact ⟨.refl, fun _ => rfl⟩
  · refine ⟨((hashesOf_importMedia hmedia).trans (hashesOf_append happ rfl)).trans
      (hashesOf_importHash hhash), fun hnone => ?_⟩
    rw [hstorage] at hnone
    cases hnone

/-- A missing row is one more imported, or one more failed. -/
theorem importOneRowTxn_counted {imported : ImportedRow}
    (h : Eval st (importOneRowTxn (O := O) sfwBucket row jobRunId) l imported l')
    (hnone : (mediaIndex O).get (l.view st) (TableKey.video row.videoId) = none) :
    imported.counts.importedMediaRows + imported.counts.rowFailures = 1 := by
  unfold importOneRowTxn at h
  cases hstorage : canonicalStorage sfwBucket row with
  | none =>
      simp only [hstorage] at h
      obtain ⟨_, l₁, -, hret⟩ := eval_bind.mp h
      obtain ⟨rfl, -⟩ := eval_ret.mp hret
      rfl
  | some storage =>
      simp only [hstorage] at h
      obtain ⟨out, l₁, hmedia, h₁⟩ := eval_bind.mp h
      obtain ⟨u, l₂, -, h₂⟩ := eval_bind.mp h₁
      obtain ⟨hashes, l₃, -, hret⟩ := eval_bind.mp h₂
      obtain ⟨rfl, -⟩ := eval_ret.mp hret
      obtain ⟨hout, -⟩ := (eval_importMediaRowTxn hmedia).2.inserted hnone
      show countWrites [(mediaInput row storage, out.media)] + 0 = 1
      rw [hout]
      rfl

end Row

/-! ## What the rows of a run leave -/

/-- The database does not refuse the row, and it has a key. -/
def ImportEnv.importable (env : ImportEnv) (row : LegacyVideoIndexRow) : Bool :=
  (env.rowError row.videoId).isNone
    && (canonicalStorage env.sfwBucket row).isSome

/-- The master and hash rows of other videos are as they were. -/
structure Confined (rows : List LegacyVideoIndexRow) (t t' : Tables) : Prop where
  videos : ∀ id, id ∉ rows.map (·.videoId) →
    t'.get (.video id) = t.get (.video id)
  hashes : ∀ key : HashKey, key.videoId ∉ rows.map (·.videoId) →
    t'.get (.hash key) = t.get (.hash key)

/-- What was appended is about rows that can be imported. -/
def AppendedFor (env : ImportEnv) (rows : List LegacyVideoIndexRow)
    (db db' : Db) : Prop :=
  ∃ es, db'.feed = db.feed ++ es ∧ ∀ e ∈ es, ∃ row ∈ rows,
    env.importable row ∧ row.videoId = e.2.videoId

section Rows

variable {env : ImportEnv} {vi : VideoTables} {db db' : Db} {s s' : ImportState}
  {rows : List LegacyVideoIndexRow} {row : LegacyVideoIndexRow}
  {t t₁ t₂ : Tables}

theorem Confined.refl : Confined rows t t := ⟨fun _ _ => rfl, fun _ _ => rfl⟩

theorem Confined.cons (h : Confined [row] t t₁) (h₁ : Confined rows t₁ t₂) :
    Confined (row :: rows) t t₂ := by
  constructor
  · intro id hid
    rw [List.map_cons, List.mem_cons, not_or] at hid
    rw [h₁.videos id hid.2, h.videos id (by simpa using hid.1)]
  · intro key hkey
    rw [List.map_cons, List.mem_cons, not_or] at hkey
    rw [h₁.hashes key hkey.2, h.hashes key (by simpa using hkey.1)]

theorem AppendedFor.refl : AppendedFor env rows db db :=
  ⟨[], (List.append_nil _).symm, nofun⟩

theorem AppendedFor.cons {db₁ db₂ : Db} (h : AppendedFor env [row] db db₁)
    (h₁ : AppendedFor env rows db₁ db₂) : AppendedFor env (row :: rows) db db₂ := by
  obtain ⟨es, hes, habout⟩ := h
  obtain ⟨es₁, hes₁, habout₁⟩ := h₁
  refine ⟨es ++ es₁, by rw [hes₁, hes, List.append_assoc], fun e he => ?_⟩
  rcases List.mem_append.mp he with he | he
  · obtain ⟨r, hr, hof⟩ := habout e he
    exact ⟨r, List.mem_cons.mpr (.inl (List.mem_singleton.mp hr)), hof⟩
  · obtain ⟨r, hr, hof⟩ := habout₁ e he
    exact ⟨r, List.mem_cons_of_mem _ hr, hof⟩

/-- What importing one row did: it is there now as `video_index` has it, it is
counted, and nothing else was touched or announced. -/
structure RowImported (env : ImportEnv) (row : LegacyVideoIndexRow)
    (imported : ImportedRow) (db db' : Db) : Prop where
  video : db'.tables.get (.video row.videoId) = importedVideo env.sfwBucket row
  confined : Confined [row] db.tables db'.tables
  appended : AppendedFor env [row] db db'
  counted : imported.counts.importedMediaRows + imported.counts.rowFailures = 1

theorem importOneRow_rowImported {imported : ImportedRow}
    (hnone : db.tables.get (.video row.videoId) = none)
    (h : env.importOneRow row db = .ok (imported, db')) :
    RowImported env row imported db db' := by
  have hclean := (transact_eq_ok.mp h).1 row List.mem_cons_self
  obtain ⟨l, heval, htables, hfeed⟩ := eval_transact h
  obtain ⟨hother, hself⟩ := eval_importOneRowTxn heval hnone
  obtain ⟨hhashes, hkeyless⟩ := hashesOf_importOneRow heval
  obtain ⟨es, hes, habout⟩ := hhashes.events
  have hes' : l.pend = es := hes
  rw [hes'] at hfeed
  refine ⟨?_, ⟨?_, ?_⟩, ⟨es, hfeed, fun e he => ?_⟩,
    importOneRowTxn_counted heval hnone⟩
  · rw [htables]
    exact hself
  · intro id hid
    rw [htables]
    exact hother id (by simpa using hid)
  · intro key hkey
    rw [htables]
    exact hhashes.hashes key (by simpa using hkey)
  · refine ⟨row, List.mem_cons_self, ?_, (habout e he).symm⟩
    unfold ImportEnv.importable
    rw [hclean]
    cases hstorage : canonicalStorage env.sfwBucket row with
    | some storage => rfl
    | none =>
        rw [hkeyless hstorage] at hes'
        obtain rfl : [] = es := hes'
        cases he

/-- After the first row the others are still to come. -/
theorem ToImport.tail (h : ToImport vi t (row :: rows))
    (hconfined : Confined [row] t t₁) : ToImport vi t₁ rows := by
  obtain ⟨hnot, hnodup⟩ := List.nodup_cons.mp h.nodup
  refine ⟨fun r hr => h.index r (List.mem_cons_of_mem _ hr), hnodup, ?_⟩
  intro r hr
  have hne : r.videoId ∉ [row].map (·.videoId) := by
    intro e
    exact hnot (List.mem_map.mpr ⟨r, hr, List.mem_singleton.mp e⟩)
  rw [hconfined.videos _ hne]
  exact h.absent r (List.mem_cons_of_mem _ hr)

/-- What going through rows one by one did. -/
structure RowsImported (env : ImportEnv) (rows : List LegacyVideoIndexRow)
    (s s' : ImportState) : Prop where
  confined : Confined rows s.db.tables s'.db.tables
  appended : AppendedFor env rows s.db s'.db

theorem importRows_rowsImported (hrows : ToImport vi s.db.tables rows) :
    RowsImported env rows s (importRows env rows s).1 := by
  induction rows generalizing s with
  | nil => exact ⟨.refl, .refl⟩
  | cons row rows ih =>
      cases hrow : env.rowError row.videoId with
      | none =>
          obtain ⟨imported, db, hone⟩ := importOneRow_isOk hrow s.db
          have hfirst := importOneRow_rowImported
            (hrows.absent row List.mem_cons_self) hone
          have hrest := @ih (s.imported [imported] db)
            (hrows.tail hfirst.confined)
          rw [importRows_imported hone]
          exact ⟨hfirst.confined.cons hrest.confined,
            hfirst.appended.cons hrest.appended⟩
      | some e =>
          obtain ⟨failures, -, heq⟩ := @importRows_refused env s row rows e hrow
          have hrest := @ih ((s.rolledBack (env.drawn [row])).failed failures)
            (hrows.tail .refl)
          rw [heq]
          dsimp only
          split_ifs
          · exact ⟨.refl, .refl⟩
          · exact ⟨Confined.refl.cons hrest.confined,
              AppendedFor.refl.cons hrest.appended⟩

/-- Rows that were gone through to the end: whatever can be imported is there,
and every row is counted once. -/
theorem importRows_complete (hrows : ToImport vi s.db.tables rows)
    (h : importRows env rows s = (s', none)) :
    (∀ row ∈ rows, env.importable row → s'.db.tables.get (.video row.videoId)
        = importedVideo env.sfwBucket row) ∧
      s'.summary.importedMediaRows + s'.summary.rowFailures
        = s.summary.importedMediaRows + s.summary.rowFailures + rows.length := by
  induction rows generalizing s with
  | nil =>
      cases h
      exact ⟨nofun, by simp⟩
  | cons row rows ih =>
      obtain ⟨hnot, -⟩ := List.nodup_cons.mp hrows.nodup
      cases hrow : env.rowError row.videoId with
      | none =>
          obtain ⟨imported, db, hone⟩ := importOneRow_isOk hrow s.db
          have hfirst := importOneRow_rowImported
            (hrows.absent row List.mem_cons_self) hone
          have htail : ToImport vi (s.imported [imported] db).db.tables rows :=
            hrows.tail hfirst.confined
          rw [importRows_imported hone] at h
          obtain ⟨hthere, hcount⟩ := ih htail h
          have hrest := @importRows_rowsImported env _ _ _ htail
          rw [h] at hrest
          refine ⟨fun r hr himp => ?_, ?_⟩
          · rcases List.mem_cons.mp hr with rfl | hr
            · rw [hrest.confined.videos _ hnot]
              exact hfirst.video
            · exact hthere r hr himp
          · have hone : (s.imported [imported] db).summary.importedMediaRows
                + (s.imported [imported] db).summary.rowFailures
                = s.summary.importedMediaRows + s.summary.rowFailures + 1 := by
              have hcounted := hfirst.counted
              show s.summary.importedMediaRows + imported.counts.importedMediaRows
                + (s.summary.rowFailures + imported.counts.rowFailures) = _
              omega
            rw [hcount, hone, List.length_cons]
            omega
      | some e =>
          obtain ⟨failures, -, heq⟩ := @importRows_refused env s row rows e hrow
          rw [heq] at h
          dsimp only at h
          split_ifs at h
          · cases congrArg Prod.snd h
          obtain ⟨hthere, hcount⟩ :=
            @ih ((s.rolledBack (env.drawn [row])).failed failures)
              (hrows.tail .refl) h
          refine ⟨fun r hr himp => ?_, ?_⟩
          · rcases List.mem_cons.mp hr with rfl | hr
            · unfold ImportEnv.importable at himp
              rw [hrow] at himp
              cases himp
            · exact hthere r hr himp
          · rw [hcount, List.length_cons]
            show s.summary.importedMediaRows + 0 + (s.summary.rowFailures + 1)
              + (rows.length : ℤ) = _
            omega

end Rows

/-! ## The pages of a run -/

/-- The page that a round fetches. -/
def fetchedPage (env : ImportEnv) (vi : VideoTables) (s : ImportState) :
    List LegacyVideoIndexRow :=
  if env.cancelled s.time ∨ s.remaining env = some 0 then []
  else
    match fetchMissingLegacyRowsAfter s.after (s.pageLimit env) vi
        s.db.tables with
    | .ok page => page
    | .error _ => []

/-- The rows a run scanned, in the order it did. -/
def scannedRows (env : ImportEnv) (vi : VideoTables) (db : Db) (fuel : ℕ) :
    List LegacyVideoIndexRow :=
  (visited (importStep env vi) fuel (importInit env db)).flatMap
    (fetchedPage env vi)

theorem missingRows_keys (vi : VideoTables) (t : Tables) :
    ((missingRows vi t).map LegacyVideoIndexRow.videoId).Nodup :=
  (legacyRows_nodup vi).sublist (List.filter_sublist.map _)

section Pages

variable {env : ImportEnv} {vi : VideoTables} {db : Db} {s s' : ImportState}
  {t t' : Tables} {done todo page : List LegacyVideoIndexRow}

theorem toImport_rowsToImport : ToImport vi t (rowsToImport env vi t) := by
  refine ⟨fun row hrow => ?_, orderLimit_nodup (missingRows_keys vi t),
    fun row hrow => ?_⟩
  · exact (List.mem_filter.mp (mem_of_mem_orderLimit hrow)).1
  · have hmissing := (List.mem_filter.mp (mem_of_mem_orderLimit hrow)).2
    exact Option.isNone_iff_eq_none.mp (Bool.and_eq_true_iff.mp hmissing).2

theorem ToImport.append_left {rows rows₂ : List LegacyVideoIndexRow}
    (h : ToImport vi t (rows ++ rows₂)) : ToImport vi t rows := by
  refine ⟨fun r hr => h.index r (List.mem_append_left _ hr), ?_,
    fun r hr => h.absent r (List.mem_append_left _ hr)⟩
  have hnodup := h.nodup
  rw [List.map_append] at hnodup
  exact (List.nodup_append.mp hnodup).1

/-- A run that has gone through these rows: they are the first of those it is to
import, and it stands where importing them one by one leads. -/
structure Scanned (env : ImportEnv) (vi : VideoTables) (db : Db)
    (s : ImportState) (done todo : List LegacyVideoIndexRow) : Prop where
  rows : rowsToImport env vi db.tables = done ++ todo
  same : ∃ s₂, importRows env done (importInit env db) = (s₂, none) ∧ s.Same s₂
  count : s.summary.scannedRows = done.length
  after : s.after = nextCursor LegacyVideoIndexRow.videoId done

theorem Scanned.init :
    Scanned env vi db (importInit env db) [] (rowsToImport env vi db.tables) :=
  ⟨rfl, ⟨_, rfl, .refl _⟩, rfl, rfl⟩

theorem Scanned.confined (h : Scanned env vi db s done todo) :
    Confined done db.tables s.db.tables := by
  obtain ⟨s₂, hrows, hsame⟩ := h.same
  have hdone : ToImport vi db.tables done := by
    have hall := @toImport_rowsToImport env vi db.tables
    rw [h.rows] at hall
    exact hall.append_left
  have himported := @importRows_rowsImported env vi (importInit env db) _ hdone
  rw [hrows] at himported
  have hconfined := himported.confined
  rw [hsame.db.tables] at hconfined
  exact hconfined

/-- Past the cursor the same rows are missing as at first. -/
theorem Scanned.missing (h : Scanned env vi db s done todo) :
    (legacyRows vi).filter (missingPast s.after s.db.tables)
      = (missingRows vi db.tables).filter fun row => past s.after row.videoId := by
  unfold missingRows
  rw [List.filter_filter]
  refine List.filter_congr fun row _ => ?_
  unfold missingPast
  rw [past_none, Bool.true_and]
  cases hpast : past s.after row.videoId with
  | false => rfl
  | true =>
      have hnot : row.videoId ∉ done.map (·.videoId) := by
        intro hmem
        obtain ⟨r, hr, hid⟩ := List.mem_map.mp hmem
        have hsorted : (done ++ todo).Pairwise
            fun a b => a.videoId ≤ b.videoId := h.rows ▸ orderLimit_sorted
        have hnot := not_past_of_mem (List.pairwise_append.mp hsorted).1 hr
        rw [← h.after, hid, hpast] at hnot
        cases hnot
      rw [h.confined.videos _ hnot]

/-- **The next page** holds the next of the rows to import. -/
theorem Scanned.fetch (h : Scanned env vi db s done todo)
    (hlimit : ∀ l ∈ env.limit, 0 ≤ l) (hbatch : 1 ≤ env.batchSize) :
    fetchMissingLegacyRowsAfter s.after (s.pageLimit env) vi s.db.tables
      = .ok (todo.take env.batchSize.toNat) := by
  have hkeys := missingRows_keys vi db.tables
  have hrows := h.rows
  unfold rowsToImport at hrows
  rw [orderLimit_eq_limited] at hrows
  unfold fetchMissingLegacyRowsAfter ImportState.pageLimit ImportState.remaining
  rw [h.missing, h.count, h.after]
  cases hl : env.limit with
  | none =>
      rw [hl] at hrows
      have hpage := @orderLimit_past _ _ _ _ (some env.batchSize.toNat) _ done todo
        hkeys hrows
      rw [Option.map_none]
      dsimp only
      rw [limitOf_of_le (n := 0) (by omega)]
      exact congrArg Except.ok hpage
  | some l =>
      rw [hl] at hrows
      have hl₀ := hlimit l hl
      have hrows' : (orderLimit LegacyVideoIndexRow.videoId none
          (missingRows vi db.tables)).take l.toNat = done ++ todo := hrows
      have hlen : done.length ≤ l.toNat := by
        have := congrArg List.length hrows'
        rw [List.length_take, List.length_append] at this
        omega
      obtain ⟨tail, htail⟩ : ∃ tail, orderLimit LegacyVideoIndexRow.videoId none
          (missingRows vi db.tables) = done ++ tail := by
        refine ⟨todo ++ (orderLimit LegacyVideoIndexRow.videoId none
          (missingRows vi db.tables)).drop l.toNat, ?_⟩
        rw [← List.append_assoc, ← hrows', List.take_append_drop]
      have htodo : todo = tail.take (l.toNat - done.length) := by
        rw [htail, List.take_append, List.take_of_length_le hlen] at hrows'
        exact (List.append_cancel_left hrows').symm
      have hpage := @orderLimit_past _ _ _ _
        (some (min (l - done.length) env.batchSize).toNat) _ done tail hkeys htail
      have hmin : (min (l - done.length) env.batchSize).toNat
          = min env.batchSize.toNat (l.toNat - done.length) := by omega
      rw [Option.map_some]
      dsimp only
      rw [limitOf_of_le (n := 0) (by omega)]
      refine congrArg Except.ok (hpage.trans ?_)
      rw [htodo, List.take_take, ← hmin]
      rfl

/-- Importing rows moves neither the cursor nor the count of rows scanned. -/
structure ImportState.SameScan (s s' : ImportState) : Prop where
  after : s'.after = s.after
  scannedRows : s'.summary.scannedRows = s.summary.scannedRows

theorem sameScan_importRows (rows : List LegacyVideoIndexRow) :
    s.SameScan (importRows env rows s).1 := by
  induction rows generalizing s with
  | nil => exact ⟨rfl, rfl⟩
  | cons row rows ih =>
      cases hrow : env.rowError row.videoId with
      | none =>
          obtain ⟨imported, db, hone⟩ := importOneRow_isOk hrow s.db
          rw [importRows_imported hone]
          exact ⟨ih.after, ih.scannedRows⟩
      | some e =>
          obtain ⟨failures, -, heq⟩ := @importRows_refused env s row rows e hrow
          rw [heq]
          dsimp only
          split_ifs
          · exact ⟨rfl, rfl⟩
          · exact ⟨ih.after, ih.scannedRows⟩

theorem sameScan_importBatch : s.SameScan (importBatch env page s).1 := by
  unfold importBatch
  cases env.importPage page s.db with
  | ok r => exact ⟨rfl, scannedRows_foldl_add _ _⟩
  | error e =>
      have hscan := @sameScan_importRows env (s.rolledBack (env.drawn page)) page
      exact ⟨hscan.after, hscan.scannedRows⟩

/-- How a run ends and how the import one by one does: alike, and but for
cursors with the same database; a run that succeeds also has its summary. -/
structure AgreesOneByOne (r r₂ : ImportResult) : Prop where
  result : r.2 = r₂.2
  same : r.1.Same r₂.1
  summary : ∀ status, r.2 = .ok status → r.1.summary = r₂.1.summary

/-- A run that is over, with the rows it scanned. -/
structure Ended (env : ImportEnv) (vi : VideoTables) (db : Db) (r : ImportResult)
    (scanned : List LegacyVideoIndexRow) : Prop where
  agrees : AgreesOneByOne r (importOneByOne env vi db)
  all : ∀ status, r.2 = .ok status → scanned = rowsToImport env vi db.tables

theorem Scanned.ended (h : Scanned env vi db s done []) :
    Ended env vi db (s.finish false) done := by
  have hrows : rowsToImport env vi db.tables = done := by
    rw [h.rows, List.append_nil]
  obtain ⟨s₂, hdone, hsame⟩ := h.same
  have hone : importOneByOne env vi db = (s₂.scanned done).finish false := by
    unfold importOneByOne
    rw [hrows]
    dsimp only
    rw [hdone]
  have hscan := (@sameScan_importRows env (importInit env db) done).scannedRows
  rw [hdone] at hscan
  have htotals := hsame.totals
  have hsummary : s.summary = (s₂.scanned done).summary := by
    have hcount : s.summary.scannedRows = s₂.summary.scannedRows + done.length := by
      rw [hscan, h.count]
      exact (Int.zero_add _).symm
    rw [← htotals, hcount]
    rfl
  have hagree : AgreesOneByOne (s.finish false) ((s₂.scanned done).finish false) := by
    refine ⟨?_, ⟨hsame.db, htotals, hsame.consecutiveFailures⟩, fun _ _ => hsummary⟩
    show Except.ok (importStatus false s) = Except.ok (importStatus false _)
    unfold importStatus
    rw [hsummary]
  exact ⟨hone ▸ hagree, fun _ _ => hrows.symm⟩

/-- Nothing is left to import when the limit is reached. -/
theorem Scanned.remaining (h : Scanned env vi db s done todo)
    (hlimit : ∀ l ∈ env.limit, 0 ≤ l) (hs : s.remaining env = some 0) :
    todo = [] := by
  obtain ⟨l, hl, hzero⟩ := Option.map_eq_some_iff.mp hs
  have hl₀ := hlimit l hl
  have hlen : (rowsToImport env vi db.tables).length ≤ l.toNat := by
    unfold rowsToImport
    rw [hl]
    exact length_orderLimit_le
  rw [h.rows, List.length_append] at hlen
  rw [h.count] at hzero
  exact List.eq_nil_of_length_eq_zero (by omega)

theorem Scanned.fetchedPage_eq (h : Scanned env vi db s done todo)
    (hcancel : ∀ n, env.cancelled n = false) (hlimit : ∀ l ∈ env.limit, 0 ≤ l)
    (hbatch : 1 ≤ env.batchSize) :
    fetchedPage env vi s = todo.take env.batchSize.toNat := by
  unfold fetchedPage
  rw [hcancel, h.fetch hlimit hbatch]
  by_cases hremaining : s.remaining env = some 0
  · rw [h.remaining hlimit hremaining, List.take_nil, ite_self]
  · rw [if_neg (by simpa using hremaining)]

section Page

variable {page rest : List LegacyVideoIndexRow} {s' : ImportState} {e : ImportError}

/-- The page as a whole does what its rows do one by one. -/
theorem Scanned.pageSame (h : Scanned env vi db s done (page ++ rest))
    (hne : page ≠ []) {error : Option ImportError}
    (hresult : importBatch env page (s.fetched page) = (s', error)) :
    ∃ s₃, importRows env (done ++ page) (importInit env db) = (s₃, error) ∧
      s'.Same s₃ := by
  obtain ⟨s₂, hdone, hsame⟩ := h.same
  have hfetched : (s.fetched page).Same s₂ :=
    ⟨hsame.db, hsame.totals, hsame.consecutiveFailures⟩
  obtain ⟨hsame', hend⟩ := @importBatch_same env _ _ page hne hfetched
  rw [hresult] at hsame' hend
  refine ⟨_, ?_, hsame'⟩
  rw [importRows_append, hdone]
  exact Prod.ext rfl hend

/-- A page that was imported. -/
theorem Scanned.pageDone (h : Scanned env vi db s done (page ++ rest)) (hne : page ≠ [])
    (hresult : importBatch env page (s.fetched page) = (s', none)) :
    Scanned env vi db (s'.scanned page) (done ++ page) rest := by
  have hscan := @sameScan_importBatch env (s.fetched page) page
  rw [hresult] at hscan
  obtain ⟨s₃, hone, hsame⟩ := h.pageSame hne hresult
  refine ⟨?_, ⟨s₃, hone, hsame.scanned page⟩, ?_, ?_⟩
  · rw [h.rows, List.append_assoc]
  · show s'.summary.scannedRows + (page.length : ℤ) = _
    rw [hscan.scannedRows, List.length_append, Nat.cast_add, ← h.count]
    rfl
  · show s'.after = _
    rw [hscan.after]
    show nextCursor LegacyVideoIndexRow.videoId page = _
    unfold nextCursor
    rw [List.getLast?_append_of_ne_nil _ hne]

/-- A page with a row that the run does not survive. -/
theorem Scanned.pageFailed (h : Scanned env vi db s done (page ++ rest)) (hne : page ≠ [])
    (hresult : importBatch env page (s.fetched page) = (s', some e)) :
    Ended env vi db (s', .error e) (done ++ page) := by
  obtain ⟨s₃, hone, hsame⟩ := h.pageSame hne hresult
  have hall : importOneByOne env vi db = (s₃, .error e) := by
    unfold importOneByOne
    rw [h.rows, ← List.append_assoc]
    dsimp only
    rw [importRows_append, hone]
  refine ⟨?_, nofun⟩
  rw [hall]
  exact ⟨rfl, hsame, nofun⟩

theorem importStep_failed (hcancel : env.cancelled s.time = false)
    (hremaining : s.remaining env ≠ some 0)
    (hfetch : fetchMissingLegacyRowsAfter s.after (s.pageLimit env) vi
      s.db.tables = .ok page) (hne : page ≠ [])
    (hresult : importBatch env page (s.fetched page) = (s', some e)) :
    importStep env vi s = .inr (s', .error e) := by
  unfold importStep
  rw [hcancel, if_neg Bool.false_ne_true, if_neg hremaining, hfetch]
  cases page with
  | nil => exact absurd rfl hne
  | cons row rows =>
      dsimp only
      rw [hresult]

end Page

/-- **One round**: the next page, or the end. -/
theorem Scanned.step (h : Scanned env vi db s done todo)
    (hcancel : ∀ n, env.cancelled n = false) (hlimit : ∀ l ∈ env.limit, 0 ≤ l)
    (hbatch : 1 ≤ env.batchSize) :
    (∃ s' todo', importStep env vi s = .inl s' ∧ fetchedPage env vi s ≠ [] ∧
      Scanned env vi db s' (done ++ fetchedPage env vi s) todo') ∨
    ∃ r, importStep env vi s = .inr r ∧
      Ended env vi db r (done ++ fetchedPage env vi s) := by
  have hfetch := h.fetch hlimit hbatch
  rw [h.fetchedPage_eq hcancel hlimit hbatch]
  by_cases htodo : todo = []
  · subst htodo
    rw [List.take_nil] at hfetch ⊢
    rw [List.append_nil]
    refine .inr ⟨_, ?_, h.ended⟩
    by_cases hremaining : s.remaining env = some 0
    · unfold importStep
      rw [hcancel, if_neg Bool.false_ne_true, if_pos hremaining]
    · exact importStep_done (hcancel _) hremaining hfetch
  · have hremaining : s.remaining env ≠ some 0 :=
      fun hs => htodo (h.remaining hlimit hs)
    have hne : todo.take env.batchSize.toNat ≠ [] := by
      intro hnil
      rcases List.take_eq_nil_iff.mp hnil with hzero | hnil
      · omega
      · exact htodo hnil
    rw [← List.take_append_drop env.batchSize.toNat todo] at h
    cases hresult : importBatch env (todo.take env.batchSize.toNat)
        (s.fetched (todo.take env.batchSize.toNat)) with
    | mk s' error =>
        cases error with
        | none =>
            exact .inl ⟨_, _, importStep_page (hcancel _) hremaining hfetch hne hresult,
              hne, h.pageDone hne hresult⟩
        | some e =>
            exact .inr ⟨_, importStep_failed (hcancel _) hremaining hfetch hne hresult,
              h.pageFailed hne hresult⟩

end Pages

/-! ## The feed only grows -/

section Feed

variable {env : ImportEnv} {vi : VideoTables} {s : ImportState}
  {page : List LegacyVideoIndexRow}

theorem feed_importRows (rows : List LegacyVideoIndexRow) :
    s.db.feed <+: (importRows env rows s).1.db.feed := by
  induction rows generalizing s with
  | nil => exact List.prefix_refl _
  | cons row rows ih =>
      cases hrow : env.rowError row.videoId with
      | none =>
          obtain ⟨imported, db, hone⟩ := importOneRow_isOk hrow s.db
          obtain ⟨l, -, -, hfeed⟩ := eval_transact hone
          rw [importRows_imported hone]
          refine List.IsPrefix.trans ⟨l.pend, ?_⟩ (@ih (s.imported [imported] db))
          exact hfeed.symm
      | some e =>
          obtain ⟨failures, -, heq⟩ := @importRows_refused env s row rows e hrow
          rw [heq]
          dsimp only
          split_ifs
          · exact List.prefix_refl _
          · exact @ih ((s.rolledBack (env.drawn [row])).failed failures)

theorem feed_importBatch :
    s.db.feed <+: (importBatch env page s).1.db.feed := by
  unfold importBatch
  cases hpage : env.importPage page s.db with
  | ok r =>
      obtain ⟨l, -, -, hfeed⟩ := eval_transact hpage
      exact ⟨l.pend, hfeed.symm⟩
  | error e => exact @feed_importRows env (s.rolledBack (env.drawn page)) page

theorem feed_importStep : s.db.feed <+:
    (importStep env vi s).elim (·.db.feed) (·.1.db.feed) := by
  unfold importStep
  split_ifs
  · exact List.prefix_refl _
  · exact List.prefix_refl _
  · cases fetchMissingLegacyRowsAfter s.after (s.pageLimit env) vi s.db.tables with
    | error e => exact List.prefix_refl _
    | ok page =>
        cases page with
        | nil => exact List.prefix_refl _
        | cons row rows =>
            have hfeed := @feed_importBatch env (s.fetched (row :: rows)) (row :: rows)
            dsimp only
            cases hbatch : importBatch env (row :: rows)
                (s.fetched (row :: rows)) with
            | mk s' e =>
                rw [hbatch] at hfeed
                cases e with
                | none => exact hfeed
                | some e => exact hfeed

end Feed

/-! ## Whole runs -/

/-- Nobody cancels the run, and its arguments and settings are valid ones. -/
structure ImportEnv.Undisturbed (env : ImportEnv) : Prop where
  cancelled : ∀ n, env.cancelled n = false
  limit : ∀ l ∈ env.limit, 0 ≤ l
  batchSize : 1 ≤ env.batchSize

/-- A run that succeeded: it scanned what it was to import, every row once, and
counted it once. -/
structure ScannedOnce (env : ImportEnv) (vi : VideoTables) (db : Db)
    (summary : ImportSummary) (scanned : List LegacyVideoIndexRow) : Prop where
  rows : scanned = rowsToImport env vi db.tables
  nodup : (scanned.map (·.videoId)).Nodup
  counted : summary.scannedRows = summary.importedMediaRows + summary.rowFailures

/-- What a run over `db` leaves alone of a run before it that scanned these rows
for `env`: master rows and their hashes, and the feed but for rows left over. -/
structure Rests (env : ImportEnv) (scanned : List LegacyVideoIndexRow)
    (db db' : Db) : Prop where
  videos : ∀ id v, db.tables.get (.video id) = some v →
    db'.tables.get (.video id) = some v
  hashes : ∀ key : HashKey, (db.tables.get (.video key.videoId)).isSome →
    db'.tables.get (.hash key) = db.tables.get (.hash key)
  events : ∃ es, db'.feed = db.feed ++ es ∧
    (∀ e ∈ es, e.2.videoId ∉ scanned.map (·.videoId)) ∧ (env.limit = none → es = [])

section Runs

variable {env env₂ : ImportEnv} {vi : VideoTables} {db : Db} {r : ImportResult}
  {fuel : ℕ}

theorem importCurrentVideoIndex_eq (h : env.Undisturbed) :
    importCurrentVideoIndex env vi db fuel
      = iterate (importStep env vi) fuel (importInit env db) := by
  unfold importCurrentVideoIndex
  cases hl : env.limit with
  | none => rfl
  | some l => exact if_neg (not_lt.mpr (h.limit l hl))

theorem feed_importCurrentVideoIndex (h : env.Undisturbed)
    (hr : importCurrentVideoIndex env vi db fuel = some r) :
    db.feed <+: r.1.db.feed := by
  rw [importCurrentVideoIndex_eq h] at hr
  refine iterate_post (fun s : ImportState => db.feed <+: s.db.feed)
    (fun r : ImportResult => db.feed <+: r.1.db.feed) ?_ ?_ (List.prefix_refl _) hr
  · intro s s' hs hstep
    have hfeed := @feed_importStep env vi s
    rw [hstep] at hfeed
    exact hs.trans hfeed
  · intro s r hs hstep
    have hfeed := @feed_importStep env vi s
    rw [hstep] at hfeed
    exact hs.trans hfeed

/-- A run ends. -/
theorem importCurrentVideoIndex_isSome (h : env.Undisturbed) (vi : VideoTables)
    (db : Db) : ∃ fuel r, importCurrentVideoIndex env vi db fuel = some r := by
  -- every page is shorter than what was left to import
  have hloop := iterate_total (importStep env vi)
    (fun s => ∃ done todo, Scanned env vi db s done todo)
    (fun s => (rowsToImport env vi db.tables).length - s.summary.scannedRows.toNat)
    (s := importInit env db) ?_ ⟨_, _, .init⟩
  · obtain ⟨r, hr⟩ := hloop
    exact ⟨_, r, (importCurrentVideoIndex_eq h).trans hr⟩
  · rintro s s' ⟨done, todo, hs⟩ hstep
    rcases hs.step h.cancelled h.limit h.batchSize with
      ⟨s'', todo', hnext, hne, hs'⟩ | ⟨r, hstop, -⟩
    · obtain rfl := Sum.inl.inj (hstep.symm.trans hnext)
      refine ⟨⟨_, _, hs'⟩, ?_⟩
      have hpos := List.length_pos_iff.mpr hne
      rw [hs'.count, hs.count, hs'.rows]
      simp only [List.length_append, Int.toNat_natCast]
      omega
    · cases hstep.symm.trans hstop

/-- However a run ends, it ends as the import one by one. -/
theorem importCurrentVideoIndex_ended (h : env.Undisturbed)
    (hr : importCurrentVideoIndex env vi db fuel = some r) :
    Ended env vi db r (scannedRows env vi db fuel) := by
  rw [importCurrentVideoIndex_eq h] at hr
  refine @visited_post _ _ _ _ _
    (fun s done => ∃ todo, Scanned env vi db s done todo)
    (fun r scanned => Ended env vi db r scanned) _ _ _ [] ?_ ?_ ⟨_, .init⟩ hr
  · rintro s s' done ⟨todo, hs⟩ hstep
    rcases hs.step h.cancelled h.limit h.batchSize with
      ⟨s'', todo', hnext, -, hs'⟩ | ⟨r, hstop, -⟩
    · obtain rfl := Sum.inl.inj (hstep.symm.trans hnext)
      exact ⟨_, hs'⟩
    · cases hstep.symm.trans hstop
  · rintro s r done ⟨todo, hs⟩ hstep
    rcases hs.step h.cancelled h.limit h.batchSize with
      ⟨s', todo', hnext, -⟩ | ⟨r', hstop, hended⟩
    · cases hstep.symm.trans hnext
    · obtain rfl := Sum.inr.inj (hstep.symm.trans hstop)
      exact hended

/-- The rows one by one, of a run that succeeded. -/
theorem Ended.oneByOne {scanned : List LegacyVideoIndexRow} {status : String}
    (h : Ended env vi db r scanned) (hok : r.2 = .ok status) :
    ∃ s₂, importRows env scanned (importInit env db) = (s₂, none) ∧
      SameButCursors r.1.db s₂.db ∧ r.1.summary = (s₂.scanned scanned).summary := by
  obtain ⟨hresult, hsame, hsummary⟩ := h.agrees
  have hall := h.all status hok
  rw [hok] at hresult
  unfold importOneByOne at hresult hsame hsummary
  rw [← hall] at hresult hsame hsummary
  dsimp only at hresult hsame hsummary
  cases hrows : importRows env scanned (importInit env db) with
  | mk s₂ e =>
      rw [hrows] at hresult hsame hsummary
      cases e with
      | some e => cases hresult
      | none => exact ⟨s₂, rfl, hsame.db, hsummary status hok⟩

/-- Rows scanned one by one: whatever can be imported is there, and every row is
counted once. -/
theorem Ended.complete {scanned : List LegacyVideoIndexRow} {status : String}
    (h : Ended env vi db r scanned) (hok : r.2 = .ok status) :
    ScannedOnce env vi db r.1.summary scanned ∧
      ∀ row ∈ scanned, env.importable row →
        (r.1.db.tables.get (.video row.videoId)).isSome := by
  have hall := h.all status hok
  have htoImport : ToImport vi db.tables scanned := by
    rw [hall]
    exact toImport_rowsToImport
  obtain ⟨s₂, hrows, hdb, hsummary⟩ := h.oneByOne hok
  obtain ⟨hthere, hcount⟩ :=
    @importRows_complete _ _ (importInit env db) _ _ htoImport hrows
  have hscan := (@sameScan_importRows env (importInit env db) scanned).scannedRows
  rw [hrows] at hscan
  refine ⟨⟨hall, htoImport.nodup, ?_⟩, fun row hrow himp => ?_⟩
  · rw [hsummary]
    show s₂.summary.scannedRows + (scanned.length : ℤ)
      = s₂.summary.importedMediaRows + s₂.summary.rowFailures
    rw [hcount, hscan]
    show (0 : ℤ) + _ = 0 + 0 + _
    omega
  · rw [← hdb.tables, hthere row hrow himp]
    unfold ImportEnv.importable at himp
    unfold importedVideo
    rw [Option.isSome_map]
    exact (Bool.and_eq_true_iff.mp himp).2

theorem importOneByOne_db : (importOneByOne env vi db).1.db
    = (importRows env (rowsToImport env vi db.tables) (importInit env db)).1.db := by
  unfold importOneByOne
  dsimp only
  split
  all_goals rename_i hresult
  all_goals rw [hresult]
  rfl

section After

variable {scanned : List LegacyVideoIndexRow} {status : String}
  {row : LegacyVideoIndexRow}

/-- A row that was scanned and is missing still cannot be imported. -/
theorem Ended.notMem_scanned (h : Ended env vi db r scanned) (hok : r.2 = .ok status)
    (hindex : row ∈ legacyRows vi)
    (habsent : r.1.db.tables.get (.video row.videoId) = none)
    (himportable : env.importable row = true) :
    row.videoId ∉ scanned.map (·.videoId) := by
  intro hmem
  obtain ⟨hscanned, hcomplete⟩ := h.complete hok
  obtain ⟨row', hrow', hid⟩ := List.mem_map.mp hmem
  have hindex' : row' ∈ legacyRows vi := by
    rw [hscanned.rows] at hrow'
    exact toImport_rowsToImport.index row' hrow'
  obtain rfl : row' = row :=
    List.inj_on_of_nodup_map (legacyRows_nodup vi) hindex' hindex hid
  have hthere := hcomplete row' hrow' himportable
  rw [habsent] at hthere
  cases hthere

/-- Without a limit, what is missing afterwards was scanned. -/
theorem Ended.mem_scanned (h : Ended env vi db r scanned) (hok : r.2 = .ok status)
    (hlimit : env.limit = none) (hrow : row ∈ missingRows vi r.1.db.tables) :
    row.videoId ∈ scanned.map (·.videoId) := by
  by_contra hnotScanned
  have hrows := (h.complete hok).1.rows
  obtain ⟨hlegacy, hmissing⟩ := List.mem_filter.mp hrow
  obtain ⟨s₂, hone, hdb, -⟩ := h.oneByOne hok
  have hconfined := (@importRows_rowsImported env vi (importInit env db) scanned
    (by rw [hrows]; exact toImport_rowsToImport)).confined
  rw [hone] at hconfined
  -- it was missing at first too
  have hthere : missingPast none db.tables row = true := by
    unfold missingPast at hmissing ⊢
    rw [← hdb.tables, hconfined.videos _ hnotScanned] at hmissing
    exact hmissing
  apply hnotScanned
  apply List.mem_map_of_mem
  rw [hrows]
  unfold rowsToImport
  rw [hlimit]
  exact (List.mem_insertionSort _).mpr (List.mem_filter.mpr ⟨hlegacy, hthere⟩)

/-- **The run after.** It finds the rows that were imported, and of those that
were scanned only such as cannot be. -/
theorem Ended.rests (h : Ended env vi db r scanned) (hok : r.2 = .ok status)
    (hquiet : env₂.Undisturbed) (himp : env₂.importable = env.importable)
    (hr₂ : importCurrentVideoIndex env₂ vi r.1.db fuel = some r₂) :
    Rests env scanned r.1.db r₂.1.db := by
  have htoImport : ToImport vi r.1.db.tables (rowsToImport env₂ vi r.1.db.tables) :=
    toImport_rowsToImport
  have hrows := @importRows_rowsImported env₂ vi (importInit env₂ r.1.db) _ htoImport
  have hsame := (importCurrentVideoIndex_ended hquiet hr₂).agrees.same.db
  rw [importOneByOne_db] at hsame
  have hnot : ∀ id, (r.1.db.tables.get (.video id)).isSome →
      id ∉ (rowsToImport env₂ vi r.1.db.tables).map (·.videoId) := by
    intro id hid hmem
    obtain ⟨row, hrow, rfl⟩ := List.mem_map.mp hmem
    rw [htoImport.absent row hrow] at hid
    cases hid
  refine ⟨fun id v hv => ?_, fun key hkey => ?_, ?_⟩
  · rw [← hsame.tables, hrows.confined.videos id (hnot id (by rw [hv]; rfl))]
    exact hv
  · rw [← hsame.tables]
    exact hrows.confined.hashes key (hnot _ hkey)
  · obtain ⟨es, hes⟩ := feed_importCurrentVideoIndex hquiet hr₂
    obtain ⟨es₂, hes₂, habout⟩ := hrows.appended
    have hevents : es₂.map Prod.snd = es.map Prod.snd := by
      have hmap := hsame.events
      rw [hes₂, ← hes, List.map_append, List.map_append] at hmap
      exact List.append_cancel_left hmap
    have hfresh : ∀ e ∈ es, ∃ row ∈ missingRows vi r.1.db.tables,
        row.videoId = e.2.videoId ∧ row.videoId ∉ scanned.map (·.videoId) := by
      intro e he
      obtain ⟨e₂, he₂, heq⟩ := List.mem_map.mp
        (hevents ▸ List.mem_map_of_mem (f := Prod.snd) he)
      obtain ⟨row, hrow, himportable, hid⟩ := habout e₂ he₂
      refine ⟨row, mem_of_mem_orderLimit hrow, by rw [hid, heq], ?_⟩
      exact h.notMem_scanned hok (htoImport.index row hrow)
        (htoImport.absent row hrow) (himp ▸ himportable)
    refine ⟨es, hes.symm, fun e he => ?_, fun hlimit => ?_⟩
    · obtain ⟨row, -, hid, hnotScanned⟩ := hfresh e he
      rw [← hid]
      exact hnotScanned
    · refine List.eq_nil_iff_forall_not_mem.mpr fun e he => ?_
      obtain ⟨row, hrow, -, hnotScanned⟩ := hfresh e he
      exact hnotScanned (h.mem_scanned hok hlimit hrow)

end After

/-- **The legacy import.** A run ends; but for cursors it leaves what an import of
the missing rows one by one leaves, and ends as that does. If it succeeds it has
scanned every row it was to import once, and a run after it, with a limit of its
own, adds to the feed only what is about rows that the first one's limit left
over, and leaves the videos it finds as they are. -/
theorem legacy_import (h : env.Undisturbed) (vi : VideoTables) (db : Db) :
    ∃ fuel r, importCurrentVideoIndex env vi db fuel = some r ∧
      AgreesOneByOne r (importOneByOne env vi db) ∧
      ∀ status, r.2 = .ok status →
        ScannedOnce env vi db r.1.summary (scannedRows env vi db fuel) ∧
        ∀ env₂ : ImportEnv, env₂.Undisturbed → env₂.rowError = env.rowError →
          env₂.sfwBucket = env.sfwBucket → ∀ fuel₂ r₂,
          importCurrentVideoIndex env₂ vi r.1.db fuel₂ = some r₂ →
          Rests env (scannedRows env vi db fuel) r.1.db r₂.1.db := by
  obtain ⟨fuel, r, hr⟩ := importCurrentVideoIndex_isSome h vi db
  have hended := importCurrentVideoIndex_ended h hr
  refine ⟨fuel, r, hr, hended.agrees, fun status hok => ?_⟩
  refine ⟨(hended.complete hok).1, fun env₂ h₂ herror hbucket fuel₂ r₂ hr₂ => ?_⟩
  refine hended.rests hok h₂ ?_ hr₂
  funext row
  unfold ImportEnv.importable
  rw [herror, hbucket]

/-- Two rows with a key and one without. -/
def threeRows : VideoTables :=
  (({} : VideoTables).upsertVideo "a" { storjKey := some "a.mp4" } id
    |>.upsertVideo "b" { storjKey := some "b.mp4" } id)
    |>.upsertVideo "c" {} id

/-- Pages of two rows, of which the database refuses one. -/
def refuseB : ImportEnv where
  jobRunId := "run"
  sfwBucket := "yral-sfw"
  batchSize := 2
  rowError videoId := if videoId = "b" then some .intervalOutOfRange else none
  errorText := fun _ => "out of range"

theorem legacy_import_refused : refuseB.Undisturbed ∧
    ∃ fuel r, importCurrentVideoIndex refuseB threeRows {} fuel = some r ∧
      AgreesOneByOne r (importOneByOne refuseB threeRows {}) := by
  have hquiet : refuseB.Undisturbed := ⟨fun _ => rfl, nofun, by decide⟩
  obtain ⟨fuel, r, hr, hagree, -⟩ := legacy_import hquiet threeRows {}
  exact ⟨hquiet, fuel, r, hr, hagree⟩

/-- A run that is to import one row. -/
def importOne : ImportEnv where
  jobRunId := "run"
  sfwBucket := "yral-sfw"
  limit := some 1
  batchSize := 1
  errorText := fun _ => ""

/-- The status of a run, and the videos its feed then tells of. -/
def statusAndFeed (r : ImportResult) : Option String × List String :=
  (r.2.toOption, r.1.db.feed.map (·.2.videoId))

/-- **A run after a limited one** goes on where the limit was: it imports the next
row, and announces it. -/
theorem legacy_import_goes_on : importOne.Undisturbed ∧
    (importCurrentVideoIndex importOne threeRows {} 2).map statusAndFeed
      = some (some "succeeded", ["a"]) ∧
    ((importCurrentVideoIndex importOne threeRows {} 2).bind fun r =>
        importCurrentVideoIndex importOne threeRows r.1.db 2).map statusAndFeed
      = some (some "succeeded", ["a", "b"]) := by
  refine ⟨⟨fun _ => rfl, ?_, by decide⟩, by decide +kernel, by decide +kernel⟩
  rintro l ⟨⟩
  decide

end Runs

end VideoStorage.Jobs.MediaImports
