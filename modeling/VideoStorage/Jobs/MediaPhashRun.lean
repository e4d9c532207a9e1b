import Mathlib.Data.Int.ConditionallyCompleteOrder
import Mathlib.Order.Monotone.Defs
import VideoStorage.Foundation.Loop
import VideoStorage.Jobs.MediaPhash

/-!
# `media_phash`: a run

`run_inner`: pages of videos without a hash, each row downloaded, hashed and
persisted, a row that cannot be hashed recorded as a failure. The page cursor
moves past every fetched row, so a run meets a video at most once and what it
records about one leaves the others as they were.
-/

namespace VideoStorage.Jobs.MediaPhash

open Foundation MediaIndex

/-! ## Computing a hash -/

/-- What the file system, the object stores and the decoder answer for a row. -/
structure HashDeps where
  tempfile : MissingHashRow → Except String Unit
  fileClone : MissingHashRow → Except String Unit
  s3 : MissingHashRow → String → Except String Unit
  storj : MissingHashRow → String → Except String Unit
  /-- The outer error is a panic of the blocking task. -/
  decode : MissingHashRow → Except String (Except String VideoHashResult)

/-- One provider's branch of the download. -/
def downloadFrom (provider : String) (store : String → Except String Unit)
    (objectKey : Option String) : Except (String × String) Unit :=
  match objectKey with
  | none => .error ("phash_download", provider ++ " row missing object_key")
  | some key => (store key).mapError fun e =>
      ("phash_download", provider ++ " download " ++ key ++ ": " ++ e)

def download (deps : HashDeps) (row : MissingHashRow) :
    Except (String × String) Unit :=
  if row.storageProvider = some "hetzner" then
    downloadFrom "hetzner" (deps.s3 row) row.objectKey
  else match row.storageProvider with
    | none => downloadFrom "storj" (deps.storj row) row.objectKey
    | some provider =>
        if provider = "storj" then
          downloadFrom "storj" (deps.storj row) row.objectKey
        else
          .error ("phash_download", "unknown storage provider: " ++ provider)

/-- The hash of a row, or the phase that failed and why. -/
def hashRow (deps : HashDeps) (row : MissingHashRow) :
    Except (String × String) VideoHashResult := do
  (deps.tempfile row).mapError fun e => ("phash_download", "tempfile: " ++ e)
  (deps.fileClone row).mapError fun e =>
    ("phash_download", "file clone: " ++ e)
  download deps row
  let decoded ← (deps.decode row).mapError fun e =>
    ("phash_decode", "spawn_blocking panic: " ++ e)
  decoded.mapError fun e => ("phash_decode", "phash: " ++ e)

/-! ## Persisting a row -/

/-- The tables of the media index with what its transactions share. -/
structure Db where
  tables : Tables := {}
  failures : JobFailures := {}
  feed : List (ℕ × FeedEventRow) := []
  seq : ℕ := 1

structure PHashSummary where
  jobRunId : String
  scannedRows : ℕ := 0
  hashRowsUpserted : ℕ := 0
  hashFeedEventsAppended : ℕ := 0
  rowFailures : ℕ := 0
  deriving DecidableEq, Repr

/-- What `persist_one` adds to the totals. -/
def PHashSummary.add (s : PHashSummary) : Option UpsertOutcome → PHashSummary
  | none => { s with rowFailures := s.rowFailures + 1 }
  | some outcome =>
      if outcome.isWrite then { s with
        hashRowsUpserted := s.hashRowsUpserted + 1
        hashFeedEventsAppended := s.hashFeedEventsAppended + 1 }
      else s

/-- The statements on `media_job_failures`, in a transaction begun at `now`. -/
def failureWork (now : ℤ) : (w : (mediaIndex .none).Work) → JobFailures →
    Except SqlError ((mediaIndex .none).Answer w × JobFailures)
  | .inl (.recordPhash jobRunId videoId phase error), t =>
      (t.recordPhash now jobRunId videoId phase error).map fun t' => ((), t')
  | .inl (.recordImport jobRunId videoId phase error), t =>
      (t.recordImport jobRunId videoId phase error).map fun t' => ((), t')
  | .inl (.clear jobKind videoId), t => .ok ((), t.clear jobKind videoId)

def performTxn {α : Type} (now : ℤ) (txn : MediaTxn .none α) (db : Db) :
    Except SqlError (α × ℕ × Loc (mediaIndex .none) × JobFailures) :=
  perform SqlError.statement (failureWork now) idleOracle db.tables txn db.seq {}
    db.failures

theorem failureWork_recordPhash (now : ℤ)
    (jobRunId videoId phase error : String) (t : JobFailures) :
    failureWork now (.inl (.recordPhash jobRunId videoId phase error)) t
      = (t.recordPhash now jobRunId videoId phase error).map
          fun t' => ((), t') := rfl

/-- The database after a commit. -/
def Db.commit (db : Db) (seq : ℕ) (l : Loc (mediaIndex .none))
    (failures : JobFailures) : Db where
  tables := l.view db.tables
  failures := failures
  feed := db.feed ++ l.pend
  seq := seq

def persistOne (now : ℤ) (jobRunId : String) (row : MissingHashRow)
    (hashResult : Except (String × String) VideoHashResult) (db : Db)
    (summary : PHashSummary) : Except SqlError (Db × PHashSummary) := do
  let (outcome, seq, l, failures) ←
    performTxn now (persistOneTxn jobRunId row hashResult) db
  return (db.commit seq l failures, summary.add outcome)

section Persist

variable {O : OtherWork} {ε X : Type} {fault : Fault → ε}
  {act : (w : (mediaIndex O).Work) → X → Except ε ((mediaIndex O).Answer w × X)}
  {ans : Oracle (mediaIndex O)} {st : (mediaIndex O).Store}
  {l : Loc (mediaIndex O)} {x : X}

/-- An upsert of a hash never fails while its video is there. -/
theorem performs_upsertHashRecordTxn {input : HashRecordInput}
    (hvideo : (mediaIndex O).present (l.view st)
      (TableKey.video input.videoId)) :
    Performs fault act ans st (upsertHashRecordTxn input) l x
      fun _ l' x' => x = x' ∧ l.marked = l'.marked ∧
        (mediaIndex O).present (l'.view st) (TableKey.video input.videoId) := by
  have hkey : TableKey.video input.videoId ≠ TableKey.hash input.key := nofun
  have hwrite : ∀ (l₁ : Loc (mediaIndex O)) (r : HashRecord),
      (mediaIndex O).present (l₁.view st) (TableKey.video input.videoId) →
      (mediaIndex O).present ((l₁.write (TableKey.hash input.key) r).view st)
        (TableKey.video input.videoId) := by
    intro l₁ r h
    unfold Schema.present at h ⊢
    rw [Loc.get_view_write_ne l₁ st _ _ hkey]
    exact h
  unfold upsertHashRecordTxn
  rw [Prog.bind_eq]
  refine Performs.bind
    (Q := fun b l' x' => x = x' ∧ l.marked = l'.marked ∧
      (mediaIndex O).present (l'.view st) (TableKey.video input.videoId) ∧
      (b = false → (mediaIndex O).present (l'.view st) (TableKey.hash input.key)))
    (performs_insertIfAbsent ?_ ?_ ?_) ?_
  · simpa [HashRecordInput.key] using hvideo
  · exact fun hp => ⟨rfl, rfl, hvideo, fun _ => hp⟩
  · exact fun _ => ⟨rfl, rfl, hwrite l _ hvideo, nofun⟩
  · rintro b l₁ x₁ ⟨rfl, hmarked, hvideo₁, hhash⟩
    cases b with
    | true => exact performs_ret ⟨rfl, hmarked, hvideo₁⟩
    | false =>
        obtain ⟨r, hr⟩ := Option.isSome_iff_exists.mp (hhash rfl)
        exact performs_compareAndUpdate hr ⟨rfl, hmarked, hvideo₁⟩
          ⟨rfl, hmarked, hwrite _ _ hvideo₁⟩

theorem performs_appendIfWritten {out : UpsertOutcome} {input : FeedEventInput}
    (hvideo : (mediaIndex O).present (l.view st)
      (TableKey.video input.videoId)) :
    Performs fault act ans st (appendIfWritten out input) l x
      fun _ _ x' => x = x' := by
  unfold appendIfWritten
  split
  · refine Performs.bind (Q := fun _ _ x' => x = x') ?_ ?_
    · unfold appendFeedEventTxn
      rw [Prog.bind_eq]
      refine Performs.bind
        (Q := fun _ l' x' => l' = { l with logLock := true } ∧ x = x')
        (performs_lockLog ⟨rfl, rfl⟩) ?_
      rintro - l₁ x₁ ⟨rfl, rfl⟩
      rw [Prog.bind_eq]
      refine Performs.bind (Q := fun _ l' x' =>
          l' = { l with logLock := true, marked := true } ∧ x = x')
        (performs_markLog ⟨rfl, rfl⟩) ?_
      rintro - l₂ x₂ ⟨rfl, rfl⟩
      have hparents : ((mediaIndex O).eventParents input.toRow).all
          ((mediaIndex O).present (l.view st)) := by
        simpa [FeedEventInput.toRow] using hvideo
      exact performs_insertLog rfl hparents fun _ => rfl
    · rintro - l₁ x₁ rfl
      exact performs_ret rfl
  · exact performs_ret rfl

end Persist

section PersistOne

variable {now : ℤ} {jobRunId : String} {row : MissingHashRow} {db : Db}
  {summary : PHashSummary} {vhr : VideoHashResult} {phase err : String}

/-- A stored hash is what the upsert says of its row; no other row changes. -/
theorem eval_persistOneTxn {st : (mediaIndex .none).Store}
    {l l' : Loc (mediaIndex .none)} {out : Option UpsertOutcome}
    (h : Eval st (persistOneTxn (O := .none) jobRunId row (.ok vhr)) l out l') :
    (∃ up, out = some up ∧ up.Explains (hashInput row vhr).toRow
      (fun _ => (hashInput row vhr).toRow)
      (hashMaterialMatches · (hashInput row vhr))
      ((mediaIndex .none).get (l.view st) (TableKey.hash (hashInput row vhr).key))
      ((mediaIndex .none).get (l'.view st)
        (TableKey.hash (hashInput row vhr).key))) ∧
    ∀ k, k ≠ TableKey.hash (hashInput row vhr).key →
      (mediaIndex .none).get (l'.view st) k
        = (mediaIndex .none).get (l.view st) k := by
  obtain ⟨up, l₁, u, hup, happ, rfl⟩ := persistOneTxn_runs_ok h
  obtain ⟨honly, hexplains⟩ := eval_upsertHashRecordTxn hup
  rw [view_appendIfWritten happ]
  exact ⟨⟨up, rfl, hexplains⟩, honly.rows⟩

/-- A failure is recorded, and nothing else written. -/
theorem persistOne_error :
    persistOne now jobRunId row (.error (phase, err)) db summary
      = (db.failures.recordPhash now jobRunId row.videoId phase err).map
          fun t => ({ db with failures := t }, summary.add none) := by
  have hwork : performTxn now (persistOneTxn jobRunId row (.error (phase, err))) db
      = (db.failures.recordPhash now jobRunId row.videoId phase err).map
          fun t => (none, db.seq, {}, t) := by
    have hbody : persistOneTxn (O := .none) jobRunId row (.error (phase, err))
        = (work (D := mediaIndex .none)
            (.inl (.recordPhash jobRunId row.videoId phase err))).bind
            fun _ => .ret none := rfl
    unfold performTxn
    rw [hbody, perform_bind, perform_work, failureWork_recordPhash]
    cases db.failures.recordPhash now jobRunId row.videoId phase err <;> rfl
  unfold persistOne
  rw [hwork]
  cases db.failures.recordPhash now jobRunId row.videoId phase err with
  | error e => rfl
  | ok t =>
      have hcommit : db.commit db.seq {} t = { db with failures := t } := by
        unfold Db.commit
        rw [List.append_nil]
        rfl
      show Except.ok _ = Except.ok _
      rw [hcommit]

/-- A hash is stored whenever its video is there: it touches the rows and the
failures of no other video, and is inserted where there was none. -/
theorem persistOne_ok
    (hvideo : (mediaIndex .none).present db.tables (TableKey.video row.videoId)) :
    ∃ db' out, persistOne now jobRunId row (.ok vhr) db summary
        = .ok (db', summary.add (some out)) ∧
      (∀ k, k ≠ TableKey.hash (hashInput row vhr).key →
        (mediaIndex .none).get db'.tables k = (mediaIndex .none).get db.tables k) ∧
      db'.failures = db.failures.clear jobKind row.videoId ∧
      (db.tables.get (.hash (hashInput row vhr).key) = none → out = .inserted) := by
  have hrun : Performs SqlError.statement (failureWork now) idleOracle db.tables
      (persistOneTxn jobRunId row (.ok vhr)) {} db.failures
      fun out _ t => (∃ o, out = some o) ∧
        t = db.failures.clear jobKind row.videoId := by
    refine Performs.bind (performs_upsertHashRecordTxn hvideo) ?_
    rintro out l₁ x₁ ⟨rfl, -, hvideo₁⟩
    refine Performs.bind (performs_appendIfWritten hvideo₁) ?_
    rintro - l₂ x₂ rfl
    refine Performs.bind (Q := fun _ _ t => t = db.failures.clear jobKind row.videoId)
      (performs_work rfl rfl) ?_
    rintro - l₃ x₃ rfl
    exact performs_ret ⟨⟨out, rfl⟩, rfl⟩
  obtain ⟨_, seq, l, t, h, ⟨out, rfl⟩, rfl⟩ := hrun db.seq
  obtain ⟨⟨up, hup, hexplains⟩, honly⟩ := eval_persistOneTxn (perform_eval h)
  obtain rfl := Option.some.inj hup
  refine ⟨db.commit seq l _, out, ?_, honly, rfl, ?_⟩
  · unfold persistOne performTxn
    rw [h]
    rfl
  · exact fun hnone => (hexplains.inserted hnone).1

end PersistOne

/-! ## The pages of a run -/

/-- What a run is given: its arguments, the job settings, and how the stores, the
clock of the database, the cancel token and the stream of finished downloads
behave. -/
structure RunEnv where
  jobRunId : String
  deps : HashDeps
  hashtext : String → ℤ
  limit : Option ℤ
  shard : Option Shard
  /-- `SCAN_PAGE_SIZE`. -/
  pageSize : ℤ
  /-- `PHASH_CONCURRENCY`. -/
  concurrency : ℕ
  cancelled : ℕ → Bool
  clock : ℕ → ℤ
  clock_mono : Monotone clock
  /-- The order in which `buffer_unordered` hands out a page. -/
  finished : ℕ → Shuffle MissingHashRow

namespace RunEnv

variable (env : RunEnv)

def query : MissingHashQuery where
  hashtext := env.hashtext
  hashKind := hashKind
  hashVersion := hashVersion
  inputMediaVersion := inputMediaVersion
  shard := env.shard

end RunEnv

/-- Where a run is. `time` counts the looks at the clock and the token, and
`attempts`, which no step reads, are the rows handed to `persist_one`. -/
structure RunState where
  db : Db
  summary : PHashSummary
  after : Option String := none
  time : ℕ := 0
  attempts : List MissingHashRow := []

/-- Why a run ends with `Err`. -/
inductive RunError
  | fetch (e : SqlError)
  | persist (videoId : String) (e : SqlError)
  deriving DecidableEq, Repr

def RunState.persisted (s : RunState) (row : MissingHashRow) (db : Db)
    (summary : PHashSummary) : RunState :=
  { s with
    db := db
    summary := summary
    time := s.time + 1
    attempts := s.attempts ++ [row] }

/-- The stream loop over one page; `true` when it was cancelled. -/
def persistRows (env : RunEnv) : List MissingHashRow → RunState →
    Except RunError (Bool × RunState)
  | [], s => .ok (false, s)
  | row :: rows, s =>
      if env.cancelled s.time then .ok (true, s)
      else
        let summary :=
          { s.summary with scannedRows := s.summary.scannedRows + 1 }
        match persistOne (env.clock s.time) env.jobRunId row
            (hashRow env.deps row) s.db summary with
        | .error e => .error (.persist row.videoId e)
        | .ok (db, summary) => persistRows env rows (s.persisted row db summary)

def runStatus (rowFailures : ℕ) : String :=
  if rowFailures = 0 then "succeeded" else "succeeded_with_failures"

def terminalStatus (cancelled : Bool) (rowFailures : ℕ) : String :=
  if cancelled then "cancelled" else runStatus rowFailures

/-- How a run ends: `Err`, or the terminal status and the state it leaves. -/
abbrev RunResult : Type := Except RunError (String × RunState)

def RunState.finish (s : RunState) (cancelled : Bool) : RunResult :=
  .ok (terminalStatus cancelled s.summary.rowFailures, s)

/-- `limit - scanned_rows`. -/
def RunState.remaining (env : RunEnv) (s : RunState) : Option ℤ :=
  env.limit.map (· - s.summary.scannedRows)

def RunState.batchLimit (env : RunEnv) (s : RunState) : ℤ :=
  match s.remaining env with
  | some r => min r env.pageSize
  | none => env.pageSize

def fetchPage (env : RunEnv) (s : RunState) :
    Except SqlError (List MissingHashRow) :=
  videosMissingCanonicalPhash env.query (env.clock s.time) s.after
    (some (s.batchLimit env)) s.db.tables s.db.failures

/-- The cursor moves past the whole page before its rows are persisted. -/
def RunState.fetched (s : RunState) (rows : List MissingHashRow) : RunState :=
  { s with after := nextCursor MissingHashRow.videoId rows, time := s.time + 1 }

/-- One round of `loop`. A stream without a slot for a download never ends. -/
def runStep (env : RunEnv) (s : RunState) : RunState ⊕ RunResult :=
  if env.cancelled s.time then .inr (s.finish true)
  else if s.remaining env = some 0 then .inr (s.finish false)
  else
    match fetchPage env s with
    | .error e => .inr (.error (.fetch e))
    | .ok [] => .inr (s.finish false)
    | .ok rows =>
        if env.concurrency = 0 then .inl s
        else
          match persistRows env ((env.finished s.time).apply rows) (s.fetched rows) with
          | .error e => .inr (.error e)
          | .ok (true, s') => .inr (s'.finish true)
          | .ok (false, s') => .inl s'

def runInner (env : RunEnv) (db : Db) (fuel : ℕ) : Option RunResult :=
  iterate (runStep env) fuel { db := db, summary := { jobRunId := env.jobRunId } }

/-! ## One row leaves the other videos alone -/

/-- A video's master row, canonical hash and failures are the same. -/
structure SameVideo (db db' : Db) (videoId : String) : Prop where
  master : db'.tables.get (.video videoId) = db.tables.get (.video videoId)
  hash : ∀ key : HashKey, key.videoId = videoId →
    db'.tables.get (.hash key) = db.tables.get (.hash key)
  failures : db'.failures.ofVideo videoId = db.failures.ofVideo videoId

theorem SameVideo.refl (db : Db) (videoId : String) :
    SameVideo db db videoId :=
  ⟨rfl, fun _ _ => rfl, rfl⟩

theorem SameVideo.trans {db db₁ db₂ : Db} {videoId : String}
    (h : SameVideo db db₁ videoId) (h₁ : SameVideo db₁ db₂ videoId) :
    SameVideo db db₂ videoId :=
  ⟨h₁.master.trans h.master, fun k hk => (h₁.hash k hk).trans (h.hash k hk),
    h₁.failures.trans h.failures⟩

section Frame

variable {db db' : Db} {q : MissingHashQuery} {row : MissingHashRow} {now : ℤ}

theorem SameVideo.missing (h : SameVideo db db' row.videoId) :
    Missing q db'.tables row ↔ Missing q db.tables row := by
  have hhash := h.hash (q.hashKey row.videoId) rfl
  constructor
  · rintro ⟨⟨v, hv, hrow⟩, hnone, hshard⟩
    exact ⟨⟨v, h.master ▸ hv, hrow⟩, hhash ▸ hnone, hshard⟩
  · rintro ⟨⟨v, hv, hrow⟩, hnone, hshard⟩
    exact ⟨⟨v, h.master.trans hv, hrow⟩, hhash.trans hnone, hshard⟩

theorem SameVideo.find {videoId : String} (h : SameVideo db db' videoId)
    (phase : String) :
    db'.failures.find (JobFailures.phashKey videoId phase)
      = db.failures.find (JobFailures.phashKey videoId phase) := by
  unfold JobFailures.phashKey
  rw [JobFailures.find_eq_ofVideo, JobFailures.find_eq_ofVideo, h.failures]

/-- A video that is not backing off stays so while nobody records a failure. -/
theorem SameVideo.ready {videoId : String} (h : SameVideo db db' videoId)
    {later : ℤ} (hlater : now ≤ later)
    (hready : MissingHashQuery.notBackingOff now db.failures videoId) :
    MissingHashQuery.notBackingOff later db'.failures videoId := by
  unfold MissingHashQuery.notBackingOff at hready ⊢
  rw [h.failures]
  rw [List.all_eq_true] at hready ⊢
  intro f hf
  have hdue := hready f hf
  cases hnext : f.nextRetryAt with
  | none => rfl
  | some due =>
      rw [hnext] at hdue
      simp only [Option.any_some, Bool.not_eq_true', decide_eq_false_iff_not] at hdue ⊢
      omega

variable {jobRunId : String} {summary summary' : PHashSummary}
  {result : Except (String × String) VideoHashResult}

theorem persistOne_frame
    (hvideo : (mediaIndex .none).present db.tables (TableKey.video row.videoId))
    (h : persistOne now jobRunId row result db summary = .ok (db', summary'))
    {u : String} (hne : u ≠ row.videoId) : SameVideo db db' u := by
  cases result with
  | error failure =>
      obtain ⟨phase, err⟩ := failure
      rw [persistOne_error] at h
      obtain ⟨t, hrec, ht⟩ := map_eq_ok.mp h
      cases ht
      exact ⟨rfl, fun _ _ => rfl, JobFailures.ofVideo_upsert hrec hne⟩
  | ok vhr =>
      obtain ⟨db₁, out, hok, htables, hfailures, -⟩ := persistOne_ok hvideo
      rw [hok] at h
      cases h
      refine ⟨htables (TableKey.video u) nofun, ?_, ?_⟩
      · rintro key rfl
        refine htables (TableKey.hash key) fun hkey => hne ?_
        rw [TableKey.hash.inj hkey]
        rfl
      · rw [hfailures]
        exact JobFailures.ofVideo_clear _ hne

end Frame

end VideoStorage.Jobs.MediaPhash
