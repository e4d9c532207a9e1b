import VideoStorage.Db.Tables
import VideoStorage.Jobs.MediaPhashRun
import VideoStorage.Jobs.VisibilityOutbox

/-!
# The legacy import: a run

`import_current_video_index`: pages of the rows of `video_index` that the master
table has not got, each page in one transaction, and row by row when that fails.
A run leaves the master rows it finds as they are and adds rows that say what
`video_index` says (`imports_currentVideoIndex`).
-/

namespace VideoStorage.Jobs.MediaImports

open Foundation MediaIndex
open MediaPhash (Db performTxn)
open VideoStorage.Db (VideoTables VideoIndexRow)

/-! ## The run -/

def maxConsecutiveImportFailures : ℕ := 50

structure ImportSummary where
  jobRunId : String
  scannedRows : ℤ := 0
  importedMediaRows : ℤ := 0
  hashRowsUpserted : ℤ := 0
  hashFeedEventsAppended : ℤ := 0
  rowFailures : ℤ := 0
  deriving DecidableEq

def ImportSummary.add (s : ImportSummary) (c : RowCounts) : ImportSummary :=
  { s with
    importedMediaRows := s.importedMediaRows + c.importedMediaRows
    hashRowsUpserted := s.hashRowsUpserted + c.hashRowsUpserted
    hashFeedEventsAppended := s.hashFeedEventsAppended + c.hashFeedEventsAppended
    rowFailures := s.rowFailures + c.rowFailures }

inductive ImportError
  | invalidLimit (limit : ℤ)
  | postgres (e : SqlError)
  | tooManyConsecutiveFailures (consecutive : ℕ) (lastError : String)
  deriving DecidableEq, Repr

/-- What a run is given: its arguments and the job's settings, the cancel token,
and the rows whose statements the database refuses. -/
structure ImportEnv where
  jobRunId : String
  sfwBucket : String
  limit : Option ℤ := none
  /-- `MEDIA_IMPORT_BATCH_SIZE`. -/
  batchSize : ℤ
  cancelled : ℕ → Bool := fun _ => false
  rowError : String → Option SqlError := fun _ => none
  errorText : SqlError → String
  /-- How many cursors a transaction over these rows had drawn when it was rolled
  back: the sequence does not go back with it. -/
  drawn : List LegacyVideoIndexRow → ℕ := fun _ => 0

def legacyRow (videoId : String) (v : VideoIndexRow) : LegacyVideoIndexRow where
  videoId := videoId
  storjKey := v.storjKey
  hetznerKey := v.hetznerKey
  phash := v.phash
  phashKind := v.phashKind
  phashVersion := v.phashVersion

def legacyRows (vi : VideoTables) : List LegacyVideoIndexRow :=
  vi.videoIndex.entries.map fun e => legacyRow e.1 e.2

/-- Past the cursor, and not in the master table. -/
def missingPast (after : Option String) (t : Tables)
    (row : LegacyVideoIndexRow) : Bool :=
  past after row.videoId && (t.get (.video row.videoId)).isNone

def fetchMissingLegacyRowsAfter (after : Option String) (limit : ℤ)
    (vi : VideoTables) (t : Tables) :
    Except SqlError (List LegacyVideoIndexRow) := do
  let limit ← limitOf (some limit)
  return orderLimit LegacyVideoIndexRow.videoId limit
    ((legacyRows vi).filter (missingPast after t))

namespace ImportEnv

variable (env : ImportEnv) {α : Type}

/-- A transaction over rows of which the database may refuse one. -/
def transact (rows : List LegacyVideoIndexRow) (txn : MediaTxn .none α)
    (db : Db) : Except SqlError (α × Db) :=
  match rows.findSome? (env.rowError ·.videoId) with
  | some e => .error e
  | none => (performTxn 0 txn db).map fun r =>
      (r.1, db.commit r.2.1 r.2.2.1 r.2.2.2)

def importPage (page : List LegacyVideoIndexRow) (db : Db) :
    Except SqlError (List ImportedRow × Db) :=
  env.transact page (importPageTxn env.sfwBucket env.jobRunId page) db

def importOneRow (row : LegacyVideoIndexRow) (db : Db) :
    Except SqlError (ImportedRow × Db) :=
  env.transact [row] (importOneRowTxn env.sfwBucket row env.jobRunId) db

end ImportEnv

/-- Where a run is; `time` counts its pages. -/
structure ImportState where
  db : Db
  summary : ImportSummary
  after : Option String := none
  consecutiveFailures : ℕ := 0
  time : ℕ := 0

namespace ImportState

variable (s : ImportState)

def imported (imported : List ImportedRow) (db : Db) : ImportState :=
  { s with
    db := db
    summary := imported.foldl (fun sum r => sum.add r.counts) s.summary
    consecutiveFailures := 0 }

def rolledBack (drawn : ℕ) : ImportState :=
  { s with db := { s.db with seq := s.db.seq + drawn } }

def failed (failures : JobFailures) : ImportState :=
  { s with
    db := { s.db with failures := failures }
    summary := s.summary.add { rowFailures := 1 }
    consecutiveFailures := s.consecutiveFailures + 1 }

/-- The cursor moves past the whole page before its rows are imported. -/
def fetched (page : List LegacyVideoIndexRow) : ImportState :=
  { s with
    after := nextCursor LegacyVideoIndexRow.videoId page
    time := s.time + 1 }

def scanned (page : List LegacyVideoIndexRow) : ImportState :=
  { s with
    summary := { s.summary with
      scannedRows := s.summary.scannedRows + page.length } }

end ImportState

/-- The fallback: one transaction a row. -/
def importRows (env : ImportEnv) : List LegacyVideoIndexRow → ImportState →
    ImportState × Option ImportError
  | [], s => (s, none)
  | row :: rows, s =>
      match env.importOneRow row s.db with
      | .ok (imported, db) => importRows env rows (s.imported [imported] db)
      | .error e =>
          match s.db.failures.recordImport env.jobRunId row.videoId "import_error"
              (env.errorText e) with
          | .error e' => (s, some (.postgres e'))
          | .ok failures =>
              let s := (s.rolledBack (env.drawn [row])).failed failures
              if maxConsecutiveImportFailures ≤ s.consecutiveFailures then
                (s, some (.tooManyConsecutiveFailures s.consecutiveFailures
                  (env.errorText e)))
              else importRows env rows s

def importStatus (cancelled : Bool) (s : ImportState) : String :=
  if cancelled then "cancelled"
  else if s.summary.rowFailures = 0 then "succeeded"
  else "succeeded_with_failures"

/-- How a run ends: the state it leaves, and `Err` or the terminal status. -/
abbrev ImportResult : Type := ImportState × Except ImportError String

def ImportState.finish (s : ImportState) (cancelled : Bool) : ImportResult :=
  (s, .ok (importStatus cancelled s))

/-- `limit - scanned_rows`. -/
def ImportState.remaining (env : ImportEnv) (s : ImportState) : Option ℤ :=
  env.limit.map (· - s.summary.scannedRows)

def ImportState.pageLimit (env : ImportEnv) (s : ImportState) : ℤ :=
  match s.remaining env with
  | some r => min r env.batchSize
  | none => env.batchSize

/-- One page, first as a whole. -/
def importBatch (env : ImportEnv) (page : List LegacyVideoIndexRow)
    (s : ImportState) : ImportState × Option ImportError :=
  match env.importPage page s.db with
  | .ok (imported, db) => (s.imported imported db, none)
  | .error _ => importRows env page (s.rolledBack (env.drawn page))

def importStep (env : ImportEnv) (vi : VideoTables) (s : ImportState) :
    ImportState ⊕ ImportResult :=
  if env.cancelled s.time then .inr (s.finish true)
  else if s.remaining env = some 0 then .inr (s.finish false)
  else
    match fetchMissingLegacyRowsAfter s.after (s.pageLimit env) vi
        s.db.tables with
    | .error e => .inr (s, .error (.postgres e))
    | .ok [] => .inr (s.finish false)
    | .ok page =>
        match importBatch env page (s.fetched page) with
        | (s', some e) => .inr (s', .error e)
        | (s', none) => .inl (s'.scanned page)

section Step

variable {env : ImportEnv} {vi : VideoTables} {s s' : ImportState}
  {page : List LegacyVideoIndexRow}

theorem importStep_done (hcancel : env.cancelled s.time = false)
    (hremaining : s.remaining env ≠ some 0)
    (hfetch : fetchMissingLegacyRowsAfter s.after (s.pageLimit env) vi
      s.db.tables = .ok []) : importStep env vi s = .inr (s.finish false) := by
  unfold importStep
  rw [hcancel, if_neg Bool.false_ne_true, if_neg hremaining, hfetch]

theorem importStep_page (hcancel : env.cancelled s.time = false)
    (hremaining : s.remaining env ≠ some 0)
    (hfetch : fetchMissingLegacyRowsAfter s.after (s.pageLimit env) vi
      s.db.tables = .ok page) (hne : page ≠ [])
    (hbatch : importBatch env page (s.fetched page) = (s', none)) :
    importStep env vi s = .inl (s'.scanned page) := by
  unfold importStep
  rw [hcancel, if_neg Bool.false_ne_true, if_neg hremaining, hfetch]
  cases page with
  | nil => exact absurd rfl hne
  | cons row rows =>
      dsimp only
      rw [hbatch]

end Step

def importInit (env : ImportEnv) (db : Db) : ImportState :=
  { db := db, summary := { jobRunId := env.jobRunId } }

def importCurrentVideoIndex (env : ImportEnv) (vi : VideoTables) (db : Db)
    (fuel : ℕ) : Option ImportResult :=
  match env.limit with
  | some limit =>
      if limit < 0 then
        some (importInit env db, .error (.invalidLimit limit))
      else iterate (importStep env vi) fuel (importInit env db)
  | none => iterate (importStep env vi) fuel (importInit env db)

/-! ## What a row becomes -/

/-- The master row of an imported row; none without a key. -/
def importedVideo (sfwBucket : String) (row : LegacyVideoIndexRow) :
    Option ServableVideo :=
  (canonicalStorage sfwBucket row).map fun storage =>
    (mediaInput row storage).toRow

section Eval

variable {O : OtherWork} {st : (mediaIndex O).Store}
  {l l' : Loc (mediaIndex O)} {sfwBucket jobRunId : String}
  {row : LegacyVideoIndexRow} {rows : List LegacyVideoIndexRow}

theorem eval_importOneRowTxn {imported : ImportedRow}
    (h : Eval st (importOneRowTxn (O := O) sfwBucket row jobRunId) l imported l')
    (hnone : (mediaIndex O).get (l.view st) (TableKey.video row.videoId) = none) :
    (∀ id, id ≠ row.videoId → SameVideo st l l' id) ∧
      (mediaIndex O).get (l'.view st) (TableKey.video row.videoId)
        = importedVideo sfwBucket row := by
  unfold importedVideo
  rcases importOneRowTxn_runs h with ⟨hstorage, -, -, rfl⟩ |
    ⟨storage, out, l₁, u, l₂, hstorage, hmedia, happ, hhash, -⟩
  · rw [hstorage]
    exact ⟨fun _ _ => rfl, hnone⟩
  · obtain ⟨honly, hex⟩ := eval_importMediaRowTxn hmedia
    -- behind the upsert neither the append nor the hash touches a master row
    have hsame : ∀ id, SameVideo st l₁ l' id := by
      intro id
      have hhash' := (importHash_noVideo hhash).1 id
      unfold SameVideo at hhash' ⊢
      rw [hhash', view_appendIfWritten happ]
    refine ⟨fun id hne => (hsame id).trans (sameVideo_of_only honly hne), ?_⟩
    rw [hsame row.videoId, hstorage]
    exact (hex.inserted hnone).2

theorem eval_importPageTxn {imported : List ImportedRow}
    (h : Eval st (importPageTxn (O := O) sfwBucket jobRunId rows) l imported l')
    (hnodup : (rows.map (·.videoId)).Nodup)
    (hnone : ∀ row ∈ rows,
      (mediaIndex O).get (l.view st) (TableKey.video row.videoId) = none) :
    (∀ id, id ∉ rows.map (·.videoId) → SameVideo st l l' id) ∧
      ∀ row ∈ rows, (mediaIndex O).get (l'.view st) (TableKey.video row.videoId)
        = importedVideo sfwBucket row := by
  induction rows generalizing l imported with
  | nil =>
      obtain ⟨-, rfl⟩ := eval_ret.mp h
      exact ⟨fun _ _ => rfl, fun _ hr => absurd hr List.not_mem_nil⟩
  | cons row rows ih =>
      obtain ⟨first, l₁, rest, hone, hpage, rfl⟩ := importPageTxn_runs_cons h
      obtain ⟨hnot, hnodup⟩ := List.nodup_cons.mp hnodup
      obtain ⟨hother, hself⟩ :=
        eval_importOneRowTxn hone (hnone row List.mem_cons_self)
      have hne : ∀ row' ∈ rows, row'.videoId ≠ row.videoId :=
        fun row' hrow' e => hnot (List.mem_map.mpr ⟨row', hrow', e⟩)
      obtain ⟨hother', hself'⟩ := ih hpage hnodup fun row' hrow' =>
        (hother _ (hne row' hrow')).trans (hnone row' (List.mem_cons_of_mem _ hrow'))
      refine ⟨fun id hid => ?_, fun row' hrow' => ?_⟩
      · rw [List.map_cons, List.mem_cons, not_or] at hid
        exact (hother' id hid.2).trans (hother id hid.1)
      · rcases List.mem_cons.mp hrow' with rfl | hrow'
        · exact (hother' _ hnot).trans hself
        · exact hself' row' hrow'

end Eval

/-! ## A row that is not refused is imported -/

section Performs

variable {O : OtherWork} {ε X : Type} {fault : Fault → ε}
  {act : (w : (mediaIndex O).Work) → X → Except ε ((mediaIndex O).Answer w × X)}
  {ans : Oracle (mediaIndex O)} {st : (mediaIndex O).Store}
  {l : Loc (mediaIndex O)} {x : X} {sfwBucket jobRunId : String}
  {row : LegacyVideoIndexRow}

theorem performs_importMediaRowTxn {storage : StorageRef} :
    Performs fault act ans st (importMediaRowTxn row storage) l x
      fun _ l' x' => x = x' ∧ (mediaIndex O).present (l'.view st)
        (TableKey.video row.videoId) := by
  unfold importMediaRowTxn
  rw [Prog.bind_eq]
  refine Performs.bind performs_upsertServableVideoTxn ?_
  rintro out l₁ x₁ ⟨rfl, hleft⟩
  obtain ⟨r, hr⟩ := Option.isSome_iff_exists.mp (hleft.source row.videoId rfl)
  rw [Prog.bind_eq]
  refine Performs.bind (Q := fun _ l' x' => x = x' ∧
      (mediaIndex O).present (l'.view st) (TableKey.video row.videoId))
    (performs_update hr ⟨rfl, present_write hleft.video⟩) ?_
  rintro - l₂ x₂ ⟨rfl, hvideo⟩
  exact performs_ret ⟨rfl, hvideo⟩

theorem performs_importHashTxn
    (hvideo : (mediaIndex O).present (l.view st)
      (TableKey.video row.videoId)) :
    Performs fault act ans st (importHashTxn sfwBucket row) l x
      fun _ _ x' => x = x' := by
  unfold importHashTxn
  split
  · rw [Prog.bind_eq]
    refine Performs.bind (MediaPhash.performs_upsertHashRecordTxn hvideo) ?_
    rintro out l₁ x₁ ⟨rfl, -, hvideo₁⟩
    rw [Prog.bind_eq]
    refine Performs.bind (MediaPhash.performs_appendIfWritten hvideo₁) ?_
    rintro - l₂ x₂ rfl
    exact performs_ret rfl
  · exact performs_ret rfl

end Performs

theorem recordImport_isOk (jobRunId videoId phase error : String)
    (t : JobFailures) :
    ∃ t', t.recordImport jobRunId videoId phase error = .ok t' :=
  JobFailures.upsert_succeeds_iff.mpr fun _ _ => ⟨_, rfl⟩

/-- Failures of the import recorded, one after the other. -/
abbrev RecordsImports : JobFailures → JobFailures → Prop :=
  Relation.ReflTransGen fun t t' => ∃ jobRunId videoId phase error,
    t.recordImport jobRunId videoId phase error = .ok t'

section Alone

variable {st : (mediaIndex .none).Store} {l : Loc (mediaIndex .none)}
  {failures : JobFailures} {now : ℤ} {sfwBucket jobRunId : String}
  {ans : Oracle (mediaIndex .none)}

theorem performs_importOneRowTxn {row : LegacyVideoIndexRow} :
    Performs SqlError.statement (MediaPhash.failureWork now) ans st
      (importOneRowTxn sfwBucket row jobRunId) l failures
      fun _ _ t => RecordsImports failures t := by
  unfold importOneRowTxn
  split
  · obtain ⟨t, ht⟩ := recordImport_isOk jobRunId row.videoId "storage_selection"
      "legacy video_index row has neither storj_key nor hetzner_key" failures
    have hwork : MediaPhash.failureWork now (.inl (.recordImport jobRunId
        row.videoId "storage_selection"
        "legacy video_index row has neither storj_key nor hetzner_key")) failures
          = .ok ((), t) := by
      show (failures.recordImport _ _ _ _).map _ = _
      rw [ht]
      rfl
    have hrecords : RecordsImports failures t := .single ⟨_, _, _, _, ht⟩
    refine Performs.bind (Q := fun _ _ t' => RecordsImports failures t')
      (performs_work hwork hrecords) ?_
    exact fun _ _ _ h => performs_ret h
  · rw [Prog.bind_eq]
    refine Performs.bind performs_importMediaRowTxn ?_
    rintro out l₁ x₁ ⟨rfl, hvideo⟩
    rw [Prog.bind_eq]
    refine Performs.bind (MediaPhash.performs_appendIfWritten hvideo).eval ?_
    rintro u l₂ x₂ ⟨rfl, happ⟩
    have hvideo₂ : (mediaIndex .none).present (l₂.view st)
        (TableKey.video row.videoId) := by
      rw [view_appendIfWritten happ]
      exact hvideo
    rw [Prog.bind_eq]
    refine Performs.bind (performs_importHashTxn hvideo₂) ?_
    rintro - - x rfl
    exact performs_ret .refl

theorem performs_importPageTxn {rows : List LegacyVideoIndexRow} :
    Performs SqlError.statement (MediaPhash.failureWork now) ans st
      (importPageTxn sfwBucket jobRunId rows) l failures
      fun _ _ t => RecordsImports failures t := by
  induction rows generalizing l failures with
  | nil => exact performs_ret .refl
  | cons row rows ih =>
      unfold importPageTxn
      rw [Prog.bind_eq]
      refine Performs.bind performs_importOneRowTxn ?_
      intro first l₁ x₁ hfirst
      rw [Prog.bind_eq]
      exact Performs.bind ih fun _ _ _ hrest => performs_ret (hfirst.trans hrest)

end Alone

/-! ## What a run imports -/

/-- Between `t` and `t'` master rows were only added, and as `video_index` has
them. -/
structure Imports (sfwBucket : String) (vi : VideoTables) (t t' : Tables) :
    Prop where
  kept : ∀ id v, t.get (.video id) = some v → t'.get (.video id) = some v
  new : ∀ id v, t.get (.video id) = none → t'.get (.video id) = some v →
    ∃ row ∈ legacyRows vi, row.videoId = id ∧
      importedVideo sfwBucket row = some v

section Imports

variable {sfwBucket : String} {vi : VideoTables} {t t₁ t₂ : Tables}

theorem Imports.refl (t : Tables) : Imports sfwBucket vi t t where
  kept _ _ h := h
  new _ _ hnone hsome := by
    rw [hnone] at hsome
    cases hsome

theorem Imports.trans (h : Imports sfwBucket vi t t₁)
    (h₁ : Imports sfwBucket vi t₁ t₂) : Imports sfwBucket vi t t₂ where
  kept id v hv := h₁.kept id v (h.kept id v hv)
  new id v hnone hsome := by
    cases hmid : t₁.get (.video id) with
    | none => exact h₁.new id v hmid hsome
    | some w =>
        rw [h₁.kept id w hmid] at hsome
        obtain rfl := Option.some.inj hsome
        exact h.new id w hnone hmid

/-- Rows of the index that the master table has not got, each now as the import
makes it or still absent, the others untouched. -/
theorem Imports.of_rows {rows : List LegacyVideoIndexRow}
    (hrows : ∀ row ∈ rows, row ∈ legacyRows vi)
    (hnone : ∀ row ∈ rows, t.get (.video row.videoId) = none)
    (hother : ∀ id, id ∉ rows.map (·.videoId) →
      t₁.get (.video id) = t.get (.video id))
    (hself : ∀ row ∈ rows, ∀ v, t₁.get (.video row.videoId) = some v →
      importedVideo sfwBucket row = some v) : Imports sfwBucket vi t t₁ where
  kept id v hv := by
    rw [hother id]
    · exact hv
    · intro hid
      obtain ⟨row, hrow, rfl⟩ := List.mem_map.mp hid
      rw [hnone row hrow] at hv
      cases hv
  new id v hv hv₁ := by
    by_cases hid : id ∈ rows.map (·.videoId)
    · obtain ⟨row, hrow, rfl⟩ := List.mem_map.mp hid
      exact ⟨row, hrows row hrow, rfl, hself row hrow v hv₁⟩
    · rw [hother id hid, hv] at hv₁
      cases hv₁

end Imports

section Runs

variable {env : ImportEnv} {vi : VideoTables} {db db' : Db} {s s' : ImportState}
  {rows page : List LegacyVideoIndexRow} {row : LegacyVideoIndexRow}

/-- A transaction commits if none of its rows is refused and its body succeeds. -/
theorem transact_eq_ok {α : Type} {txn : MediaTxn .none α} {a : α} :
    env.transact rows txn db = .ok (a, db') ↔
      (∀ row ∈ rows, env.rowError row.videoId = none) ∧ ∃ seq l failures,
        performTxn 0 txn db = .ok (a, seq, l, failures) ∧
          db' = db.commit seq l failures := by
  unfold ImportEnv.transact
  cases hrefused : rows.findSome? (env.rowError ·.videoId) with
  | some e =>
      refine ⟨nofun, fun h => ?_⟩
      rw [List.findSome?_eq_none_iff.mpr h.1] at hrefused
      cases hrefused
  | none =>
      dsimp only
      rw [map_eq_ok]
      constructor
      · rintro ⟨⟨_, seq, l, failures⟩, hperform, ⟨⟩⟩
        exact ⟨List.findSome?_eq_none_iff.mp hrefused, seq, l, failures, hperform,
          rfl⟩
      · rintro ⟨-, seq, l, failures, hperform, rfl⟩
        exact ⟨_, hperform, rfl⟩

theorem eval_transact {α : Type} {txn : MediaTxn .none α} {a : α}
    (h : env.transact rows txn db = .ok (a, db')) :
    ∃ l : Loc (mediaIndex .none), Eval db.tables txn {} a l ∧
      db'.tables = l.view db.tables ∧ db'.feed = db.feed ++ l.pend := by
  obtain ⟨-, seq, l, failures, hperform, rfl⟩ := transact_eq_ok.mp h
  exact ⟨l, perform_eval hperform, rfl, rfl⟩

/-- Rows of a page that are still to come: of the index, distinct, and not in the
master table. -/
structure ToImport (vi : VideoTables) (t : Tables)
    (rows : List LegacyVideoIndexRow) : Prop where
  index : ∀ row ∈ rows, row ∈ legacyRows vi
  nodup : (rows.map (·.videoId)).Nodup
  absent : ∀ row ∈ rows, t.get (.video row.videoId) = none

theorem importPage_imports {imported : List ImportedRow}
    (hrows : ToImport vi db.tables page)
    (h : env.importPage page db = .ok (imported, db')) :
    Imports env.sfwBucket vi db.tables db'.tables := by
  obtain ⟨l, heval, htables, -⟩ := eval_transact h
  obtain ⟨hother, hself⟩ := eval_importPageTxn heval hrows.nodup hrows.absent
  rw [htables]
  refine .of_rows hrows.index hrows.absent (fun id hid => hother id hid) ?_
  intro row hrow v hv
  exact (hself row hrow).symm.trans hv

theorem importOneRow_imports {imported : ImportedRow}
    (hrow : row ∈ legacyRows vi)
    (hnone : db.tables.get (.video row.videoId) = none)
    (h : env.importOneRow row db = .ok (imported, db')) :
    Imports env.sfwBucket vi db.tables db'.tables ∧
      ∀ id, id ≠ row.videoId →
        db'.tables.get (.video id) = db.tables.get (.video id) := by
  obtain ⟨l, heval, htables, -⟩ := eval_transact h
  obtain ⟨hother, hself⟩ := eval_importOneRowTxn heval hnone
  rw [htables]
  refine ⟨@Imports.of_rows _ _ _ _ [row] ?_ ?_ ?_ ?_, fun id hid => hother id hid⟩
  · intro r hr
    rwa [List.mem_singleton.mp hr]
  · intro r hr
    rwa [List.mem_singleton.mp hr]
  · exact fun id hid => hother id fun e => hid (e ▸ List.mem_cons_self)
  · intro r hr v hv
    obtain rfl := List.mem_singleton.mp hr
    exact hself.symm.trans hv

theorem importRows_imports (hrows : ToImport vi s.db.tables rows) :
    Imports env.sfwBucket vi s.db.tables (importRows env rows s).1.db.tables := by
  induction rows generalizing s with
  | nil => exact .refl _
  | cons row rows ih =>
      have hrow := hrows.index row List.mem_cons_self
      have hnone := hrows.absent row List.mem_cons_self
      obtain ⟨hnot, hnodup⟩ := List.nodup_cons.mp hrows.nodup
      unfold importRows
      cases hone : env.importOneRow row s.db with
      | ok r =>
          obtain ⟨imported, db⟩ := r
          obtain ⟨himports, hother⟩ := importOneRow_imports hrow hnone hone
          refine himports.trans (@ih (s.imported [imported] db) ?_)
          refine ⟨fun r hr => hrows.index r (List.mem_cons_of_mem _ hr), hnodup, ?_⟩
          intro r hr
          have hne : r.videoId ≠ row.videoId :=
            fun e => hnot (List.mem_map.mpr ⟨r, hr, e⟩)
          exact (hother _ hne).trans (hrows.absent r (List.mem_cons_of_mem _ hr))
      | error e =>
          dsimp only
          cases s.db.failures.recordImport env.jobRunId row.videoId "import_error"
              (env.errorText e) with
          | error e' => exact .refl _
          | ok failures =>
              dsimp only
              split_ifs
              · exact .refl _
              · refine @ih ((s.rolledBack (env.drawn [row])).failed failures)
                  ⟨?_, hnodup, ?_⟩
                · exact fun r hr => hrows.index r (List.mem_cons_of_mem _ hr)
                · exact fun r hr => hrows.absent r (List.mem_cons_of_mem _ hr)

theorem importBatch_imports (hrows : ToImport vi s.db.tables page) :
    Imports env.sfwBucket vi s.db.tables (importBatch env page s).1.db.tables := by
  unfold importBatch
  cases hpage : env.importPage page s.db with
  | ok r => exact importPage_imports hrows hpage
  | error e => exact @importRows_imports _ _ (s.rolledBack (env.drawn page)) _ hrows

theorem legacyRows_nodup (vi : VideoTables) :
    ((legacyRows vi).map (·.videoId)).Nodup :=
  map_entries_nodup fun _ _ => rfl

theorem mem_legacyRows : row ∈ legacyRows vi ↔
    ∃ v, vi.video row.videoId = some v ∧ row = legacyRow row.videoId v :=
  mem_map_entries fun _ _ => rfl

theorem toImport_fetched {after : Option String} {limit : ℤ} {t : Tables}
    (h : fetchMissingLegacyRowsAfter after limit vi t = .ok page) :
    ToImport vi t page := by
  unfold fetchMissingLegacyRowsAfter at h
  obtain ⟨n, -, h⟩ := bind_eq_ok.mp h
  obtain rfl := Except.ok.inj h
  refine ⟨fun row hr => ?_, ?_, fun row hr => ?_⟩
  · exact (List.mem_filter.mp (mem_of_mem_orderLimit hr)).1
  · exact orderLimit_nodup
      ((legacyRows_nodup vi).sublist (List.filter_sublist.map _))
  · have hmissing := (List.mem_filter.mp (mem_of_mem_orderLimit hr)).2
    exact Option.isNone_iff_eq_none.mp (Bool.and_eq_true_iff.mp hmissing).2

theorem importStep_imports {r : ImportState ⊕ ImportResult}
    (h : importStep env vi s = r) : Imports env.sfwBucket vi s.db.tables
      (r.elim (·.db.tables) (·.1.db.tables)) := by
  unfold importStep at h
  split_ifs at h
  · subst h
    exact .refl _
  · subst h
    exact .refl _
  · cases hfetch : fetchMissingLegacyRowsAfter s.after (s.pageLimit env) vi
        s.db.tables with
    | error e =>
        rw [hfetch] at h
        subst h
        exact .refl _
    | ok page =>
        rw [hfetch] at h
        cases page with
        | nil =>
            subst h
            exact .refl _
        | cons row rows =>
            -- only a page that is there adds rows, also one that ends the run
            have himports := @importBatch_imports env vi (s.fetched (row :: rows))
              (row :: rows) (toImport_fetched hfetch)
            dsimp only at h
            cases hbatch : importBatch env (row :: rows)
                (s.fetched (row :: rows)) with
            | mk s' e =>
                rw [hbatch] at h himports
                cases e with
                | none =>
                    subst h
                    exact himports
                | some e =>
                    subst h
                    exact himports

/-- **A run only adds master rows**, and those that `video_index` tells of. -/
theorem imports_currentVideoIndex {fuel : ℕ} {r : ImportResult}
    (h : importCurrentVideoIndex env vi db fuel = some r) :
    Imports env.sfwBucket vi db.tables r.1.db.tables := by
  have hloop : iterate (importStep env vi) fuel (importInit env db) = some r →
      Imports env.sfwBucket vi db.tables r.1.db.tables := by
    refine iterate_post
      (fun s : ImportState => Imports env.sfwBucket vi db.tables s.db.tables)
      (fun r : ImportResult => Imports env.sfwBucket vi db.tables r.1.db.tables)
      ?_ ?_ (.refl _)
    · exact fun s s' hs hstep => hs.trans (importStep_imports hstep)
    · exact fun s r hs hstep => hs.trans (importStep_imports hstep)
  unfold importCurrentVideoIndex at h
  cases hlimit : env.limit with
  | none =>
      rw [hlimit] at h
      exact hloop h
  | some limit =>
      rw [hlimit] at h
      dsimp only at h
      split_ifs at h
      · obtain rfl := Option.some.inj h
        exact .refl _
      · exact hloop h

end Runs

end VideoStorage.Jobs.MediaImports
