import VideoStorage.Jobs.ImportCompleteness
import VideoStorage.Jobs.PhashLedger

/-!
# The ledger of a legacy import

An import statement by statement: a page in one transaction, and row by row when that
is rolled back, with a record for each row that is refused. A page that was rolled
back is not counted, and each row of a finished page is counted once
(`import_ledger`), although a run may fail, or lose the answer to a commit, in the
middle of a page.
-/

namespace VideoStorage.Jobs.MediaImports

open Foundation MediaIndex
open MediaPhash (Db performTxn Committed)
open VideoStorage.Db (VideoTables)

def summaryTotals (summary : ImportSummary) : Json :=
  .object [
    ("scanned_rows", .ofInt summary.scannedRows),
    ("imported_media_rows", .ofInt summary.importedMediaRows),
    ("hash_rows_upserted", .ofInt summary.hashRowsUpserted),
    ("hash_feed_events_appended", .ofInt summary.hashFeedEventsAppended),
    ("row_failures", .ofInt summary.rowFailures)]

def postgresText (error : String) : String :=
  "postgres legacy video_index import failed: " ++ error

/-- `to_string`. -/
def ImportError.text (errorText : SqlError → String) : ImportError → String
  | .invalidLimit limit =>
      "invalid legacy video_index import limit " ++ toString limit ++
        "; expected a non-negative value"
  | .postgres e => postgresText (errorText e)
  | .tooManyConsecutiveFailures consecutive lastError =>
      "import aborted after " ++ toString consecutive ++
        " consecutive row failures (systemic error); last: " ++ lastError

/-! ## Commits -/

/-- A transaction that was committed: of rows that were imported, with what it appended
to the feed, or of the record of a row that was refused. -/
inductive Commit
  | imported (rows : List LegacyVideoIndexRow) (out : List ImportedRow)
      (events : List (ℕ × FeedEventRow))
  | recorded (row : LegacyVideoIndexRow) (error : String)

def RowCounts.add (c c' : RowCounts) : RowCounts where
  importedMediaRows := c.importedMediaRows + c'.importedMediaRows
  hashRowsUpserted := c.hashRowsUpserted + c'.hashRowsUpserted
  hashFeedEventsAppended := c.hashFeedEventsAppended + c'.hashFeedEventsAppended
  rowFailures := c.rowFailures + c'.rowFailures

namespace Commit

def rows : Commit → List LegacyVideoIndexRow
  | .imported rows _ _ => rows
  | .recorded row _ => [row]

def events : Commit → List (ℕ × FeedEventRow)
  | .imported _ _ events => events
  | .recorded _ _ => []

def counts : Commit → RowCounts
  | .imported _ out _ => out.foldl (fun sum r => sum.add r.counts) {}
  | .recorded _ _ => { rowFailures := 1 }

/-- A row that was refused, or one without a key. -/
def failures (sfwBucket : String) : Commit → ℕ
  | .imported rows _ _ => rows.countP fun row => (canonicalStorage sfwBucket row).isNone
  | .recorded _ _ => 1

end Commit

/-- A page that `scanned_rows` counts, with its transactions. -/
structure FinishedPage where
  page : List LegacyVideoIndexRow
  commits : List Commit

def ImportSummary.commit (s : ImportSummary) (c : Commit) : ImportSummary :=
  s.add c.counts

def ImportSummary.page (s : ImportSummary) (p : FinishedPage) : ImportSummary :=
  let s' := p.commits.foldl ImportSummary.commit s
  { s' with scannedRows := s'.scannedRows + p.page.length }

/-- The totals of these pages. -/
def summaryOf (jobRunId : String) (pages : List FinishedPage) : ImportSummary :=
  pages.foldl ImportSummary.page { jobRunId := jobRunId }

/-! ## The body of a run -/

/-- Where `import_current_video_index_inner` is. -/
inductive Next
  | looking
  /-- The whole page in one transaction. -/
  | batching
  /-- Rows of the page that are still to be imported. -/
  | importing (left : List LegacyVideoIndexRow)
  | flushing
  | closing (status : String)
  | failing (error : String)

/-- `finished` and `commits` are the transactions whose commit was acknowledged, of the
pages that are finished and of this one; `lost` is one whose acknowledgement was not
received. No step reads them. -/
structure Body where
  run : ImportState
  vi : VideoTables
  page : List LegacyVideoIndexRow := []
  next : Next := .looking
  finished : List FinishedPage := []
  commits : List Commit := []
  lost : Option Commit := none

inductive BodyEvent
  /-- `is_cancelled()` is true. -/
  | cancelled
  | limitReached
  | exhausted
  | page
  | fetchFailed (error : String)
  | batchCommitted
  | batchRolledBack (drawn : ℕ)
  | batchFailed (error : String) (drawn : ℕ)
  | batchLost (error : String)
  | rowCommitted
  | rowRecorded (error : String) (drawn : ℕ)
  | rowFailed (error : String) (drawn : ℕ)
  | rowLost (error : String)
  | recordLost (error last : String) (drawn : ℕ)
  | pageDone
  /-- Other writers, of the index too. -/
  | others

/-- The query for the next page. -/
def fetchRows (env : ImportEnv) (b : Body) : Except SqlError (List LegacyVideoIndexRow) :=
  fetchMissingLegacyRowsAfter b.run.after (b.run.pageLimit env) b.vi b.run.db.tables

/-- The transaction of a page. -/
def BatchCommits (env : ImportEnv) (b : Body) (imported : List ImportedRow)
    (events : List (ℕ × FeedEventRow)) (db : Db) : Prop :=
  Committed 0 (importPageTxn env.sfwBucket env.jobRunId b.page) b.run.db imported events db

/-- The transaction of a row. -/
def RowCommits (env : ImportEnv) (b : Body) (row : LegacyVideoIndexRow)
    (imported : ImportedRow) (events : List (ℕ × FeedEventRow)) (db : Db) : Prop :=
  Committed 0 (importOneRowTxn env.sfwBucket row env.jobRunId) b.run.db imported events db

/-- The transaction that records why a row was refused. -/
def Records (env : ImportEnv) (b : Body) (row : LegacyVideoIndexRow) (error : String)
    (failures : JobFailures) : Prop :=
  b.run.db.failures.recordImport env.jobRunId row.videoId "import_error" error = .ok failures

/-- Behind a row that was recorded as failed. -/
def afterFailure (left : List LegacyVideoIndexRow) (error : String) (s : ImportState) : Next :=
  if maxConsecutiveImportFailures ≤ s.consecutiveFailures then
    .failing ((ImportError.tooManyConsecutiveFailures s.consecutiveFailures error).text
      fun _ => "")
  else .importing left

inductive BodyStep (env : ImportEnv) (b : Body) : BodyEvent → Body → Prop
  | cancelled (h : b.next = .looking) :
      BodyStep env b .cancelled { b with next := .closing (importStatus true b.run) }
  | limitReached (h : b.next = .looking) (hlimit : b.run.remaining env = some 0) :
      BodyStep env b .limitReached { b with next := .closing (importStatus false b.run) }
  | exhausted (h : b.next = .looking) (hlimit : b.run.remaining env ≠ some 0)
      (hrows : fetchRows env b = .ok []) :
      BodyStep env b .exhausted { b with next := .closing (importStatus false b.run) }
  | page {row : LegacyVideoIndexRow} {rows : List LegacyVideoIndexRow} (h : b.next = .looking)
      (hlimit : b.run.remaining env ≠ some 0) (hrows : fetchRows env b = .ok (row :: rows)) :
      BodyStep env b .page
        { b with
          run := b.run.fetched (row :: rows)
          page := row :: rows
          next := .batching }
  | fetchFailed (error : String) (h : b.next = .looking)
      (hlimit : b.run.remaining env ≠ some 0) :
      BodyStep env b (.fetchFailed error) { b with next := .failing (postgresText error) }
  | batchCommitted {imported : List ImportedRow} {events : List (ℕ × FeedEventRow)} {db : Db}
      (h : b.next = .batching) (htxn : BatchCommits env b imported events db) :
      BodyStep env b .batchCommitted
        { b with
          run := b.run.imported imported db
          next := .importing []
          commits := b.commits ++ [.imported b.page imported events] }
  /-- A row of the page is refused. -/
  | batchRolledBack (drawn : ℕ) (h : b.next = .batching) :
      BodyStep env b (.batchRolledBack drawn)
        { b with run := b.run.rolledBack drawn, next := .importing b.page }
  /-- The transaction does not begin, or its commit is refused. -/
  | batchFailed (error : String) (drawn : ℕ) (h : b.next = .batching) :
      BodyStep env b (.batchFailed error drawn)
        { b with run := b.run.rolledBack drawn, next := .failing (postgresText error) }
  | batchLost (error : String) {imported : List ImportedRow} {events : List (ℕ × FeedEventRow)}
      {db : Db} (h : b.next = .batching) (htxn : BatchCommits env b imported events db) :
      BodyStep env b (.batchLost error)
        { b with
          run := { b.run with db := db }
          next := .failing (postgresText error)
          lost := some (.imported b.page imported events) }
  | rowCommitted {row : LegacyVideoIndexRow} {left : List LegacyVideoIndexRow}
      {imported : ImportedRow} {events : List (ℕ × FeedEventRow)} {db : Db}
      (h : b.next = .importing (row :: left)) (htxn : RowCommits env b row imported events db) :
      BodyStep env b .rowCommitted
        { b with
          run := b.run.imported [imported] db
          next := .importing left
          commits := b.commits ++ [.imported [row] [imported] events] }
  /-- The row is refused, and that is recorded. -/
  | rowRecorded (error : String) (drawn : ℕ) {row : LegacyVideoIndexRow}
      {left : List LegacyVideoIndexRow} {failures : JobFailures}
      (h : b.next = .importing (row :: left)) (hrec : Records env b row error failures) :
      BodyStep env b (.rowRecorded error drawn)
        { b with
          run := (b.run.rolledBack drawn).failed failures
          next := afterFailure left error ((b.run.rolledBack drawn).failed failures)
          commits := b.commits ++ [.recorded row error] }
  /-- A `?` on the way of a row. -/
  | rowFailed (error : String) (drawn : ℕ) {row : LegacyVideoIndexRow}
      {left : List LegacyVideoIndexRow} (h : b.next = .importing (row :: left)) :
      BodyStep env b (.rowFailed error drawn)
        { b with run := b.run.rolledBack drawn, next := .failing (postgresText error) }
  | rowLost (error : String) {row : LegacyVideoIndexRow} {left : List LegacyVideoIndexRow}
      {imported : ImportedRow} {events : List (ℕ × FeedEventRow)} {db : Db}
      (h : b.next = .importing (row :: left)) (htxn : RowCommits env b row imported events db) :
      BodyStep env b (.rowLost error)
        { b with
          run := { b.run with db := db }
          next := .failing (postgresText error)
          lost := some (.imported [row] [imported] events) }
  | recordLost (error last : String) (drawn : ℕ) {row : LegacyVideoIndexRow}
      {left : List LegacyVideoIndexRow} {failures : JobFailures}
      (h : b.next = .importing (row :: left)) (hrec : Records env b row last failures) :
      BodyStep env b (.recordLost error last drawn)
        { b with
          run := { b.run with db := { (b.run.rolledBack drawn).db with failures := failures } }
          next := .failing (postgresText error)
          lost := some (.recorded row last) }
  | pageDone (h : b.next = .importing []) :
      BodyStep env b .pageDone
        { b with
          run := b.run.scanned b.page
          next := .flushing
          finished := b.finished ++ [⟨b.page, b.commits⟩]
          commits := [] }
  /-- Nobody takes an event out of the feed. -/
  | others (db : Db) (vi : VideoTables) (hfeed : b.run.db.feed <+: db.feed) :
      BodyStep env b .others { b with run := { b.run with db := db }, vi := vi }

def Body.turn (b : Body) : Turn String String :=
  match b.next with
  | .looking | .batching | .importing _ => .work
  | .flushing => .report
  | .closing status => .close status
  | .failing error => .fail error

def code (env : ImportEnv) : JobCode Body BodyEvent where
  jobKind := jobKind
  turn := Body.turn
  step := BodyStep env
  reported b := { b with next := .looking }
  summaryTotals b := summaryTotals b.run.summary

/-- The limit is looked at behind the insert. -/
def startNext (env : ImportEnv) : Next :=
  match env.limit with
  | some limit =>
      if limit < 0 then .failing ((ImportError.invalidLimit limit).text env.errorText)
      else .looking
  | none => .looking

/-- `import_current_video_index`. -/
def startImport (env : ImportEnv) (db : Db) (vi : VideoTables) (runs : JobRuns String Json) :
    RunningJob Body where
  body := { run := importInit env db, vi := vi, next := startNext env }
  runs := runs

/-! ## What a commit counts -/

/-- The event is of this kind. -/
def ofKind (kind : FeedEventKind) (e : ℕ × FeedEventRow) : Bool :=
  e.2.eventKind == kind.asStr

/-- These are the counts for rows whose transaction appended these events. -/
structure Tallied (sfwBucket : String) (rows : List LegacyVideoIndexRow)
    (events : List (ℕ × FeedEventRow)) (counts : RowCounts) : Prop where
  media : counts.importedMediaRows = events.countP (ofKind .mediaVisibilityChanged)
  hashes : counts.hashRowsUpserted = events.countP (ofKind .hashUpserted)
  appended : counts.hashFeedEventsAppended = events.countP (ofKind .hashUpserted)
  /-- There are no other events. -/
  kinds : events.length = events.countP (ofKind .mediaVisibilityChanged) +
    events.countP (ofKind .hashUpserted)
  failures : counts.rowFailures =
    rows.countP fun row => (canonicalStorage sfwBucket row).isNone

section Tally

variable {O : OtherWork} {st : (mediaIndex O).Store} {l l' : Loc (mediaIndex O)}
  {sfwBucket jobRunId : String} {row : LegacyVideoIndexRow}
  {rows rows' : List LegacyVideoIndexRow} {events events' : List (ℕ × FeedEventRow)}
  {counts counts' : RowCounts}

theorem Tallied.nil : Tallied sfwBucket [] [] {} := ⟨rfl, rfl, rfl, rfl, rfl⟩

theorem Tallied.add (h : Tallied sfwBucket rows events counts)
    (h' : Tallied sfwBucket rows' events' counts') :
    Tallied sfwBucket (rows ++ rows') (events ++ events') (counts.add counts') := by
  obtain ⟨hmedia, hhashes, happended, hkinds, hfailures⟩ := h
  obtain ⟨hmedia', hhashes', happended', hkinds', hfailures'⟩ := h'
  constructor
  · rw [List.countP_append, Nat.cast_add, ← hmedia, ← hmedia']
    rfl
  · rw [List.countP_append, Nat.cast_add, ← hhashes, ← hhashes']
    rfl
  · rw [List.countP_append, Nat.cast_add, ← happended, ← happended']
    rfl
  · rw [List.length_append, List.countP_append, List.countP_append, hkinds, hkinds']
    omega
  · rw [List.countP_append, Nat.cast_add, ← hfailures, ← hfailures']
    rfl

/-- The events of an append: one if there was a write. -/
theorem events_appendIfWritten {outcome : UpsertOutcome} {input : FeedEventInput} {u : Unit}
    (h : Eval st (appendIfWritten (O := O) outcome input) l u l') :
    ∃ events, l'.pend = l.pend ++ events ∧
      (outcome.isWrite = false ∧ events = [] ∨
        outcome.isWrite = true ∧ ∃ n, events = [(n, input.toRow)]) := by
  rcases eval_appendIfWritten h with ⟨hwrite, rfl⟩ | ⟨hwrite, -, n, hn⟩
  · exact ⟨[], (List.append_nil _).symm, .inl ⟨hwrite, rfl⟩⟩
  · exact ⟨_, hn, .inr ⟨hwrite, n, rfl⟩⟩

theorem countWrites_single {α : Type} (a : α) (outcome : UpsertOutcome) :
    countWrites [(a, outcome)] = if outcome.isWrite then 1 else 0 := by
  unfold countWrites
  rw [List.filter_singleton]
  cases outcome.isWrite <;> rfl

/-- The hash of a row. -/
theorem tallied_importHash {hashes : List (HashRecordInput × UpsertOutcome)}
    (h : Eval st (importHashTxn (O := O) sfwBucket row) l hashes l') :
    ∃ events, l'.pend = l.pend ++ events ∧ Tallied sfwBucket [] events {
      hashRowsUpserted := countWrites hashes
      hashFeedEventsAppended := countWrites hashes } := by
  rcases importHashTxn_runs h with ⟨rfl, rfl⟩ |
    ⟨phash, kind, version, outcome, l₁, u, hup, happ, rfl⟩
  · exact ⟨[], (List.append_nil _).symm, .nil⟩
  · obtain ⟨events, hevents, hwrite⟩ := events_appendIfWritten happ
    refine ⟨events, by rw [hevents, (eval_upsertHashRecordTxn hup).1.pend], ?_⟩
    rw [countWrites_single]
    rcases hwrite with ⟨hwrite, rfl⟩ | ⟨hwrite, n, rfl⟩ <;> rw [hwrite] <;>
      exact ⟨rfl, rfl, rfl, rfl, rfl⟩

/-- A row is counted as what it wrote. -/
theorem tallied_importOneRow {imported : ImportedRow}
    (h : Eval st (importOneRowTxn (O := O) sfwBucket row jobRunId) l imported l') :
    ∃ events, l'.pend = l.pend ++ events ∧
      Tallied sfwBucket [row] events imported.counts := by
  unfold importOneRowTxn at h
  cases hstorage : canonicalStorage sfwBucket row with
  | none =>
      simp only [hstorage] at h
      obtain ⟨_, l₁, hrec, hret⟩ := eval_bind.mp h
      obtain rfl := eval_work hrec
      obtain ⟨rfl, rfl⟩ := eval_ret.mp hret
      refine ⟨[], (List.append_nil _).symm, rfl, rfl, rfl, rfl, ?_⟩
      rw [List.countP_singleton, hstorage]
      rfl
  | some storage =>
      simp only [hstorage] at h
      obtain ⟨out, l₁, hmedia, h₁⟩ := eval_bind.mp h
      obtain ⟨u, l₂, happ, h₂⟩ := eval_bind.mp h₁
      obtain ⟨hashes, l₃, hhash, hret⟩ := eval_bind.mp h₂
      obtain ⟨rfl, rfl⟩ := eval_ret.mp hret
      obtain ⟨events, hevents, hwrite⟩ := events_appendIfWritten happ
      obtain ⟨events', hevents', htallied'⟩ := tallied_importHash hhash
      have hpend : l₁.pend = l.pend := (eval_importMediaRowTxn hmedia).1.pend
      refine ⟨events ++ events', by rw [hevents', hevents, hpend, List.append_assoc], ?_⟩
      have htallied : Tallied sfwBucket [row] events {
          importedMediaRows := countWrites [(mediaInput row storage, out.media)] } := by
        have hkeyed : [row].countP (fun row => (canonicalStorage sfwBucket row).isNone) = 0 := by
          rw [List.countP_singleton, hstorage]
          rfl
        rw [countWrites_single]
        rcases hwrite with ⟨hwrite, rfl⟩ | ⟨hwrite, n, rfl⟩ <;> rw [hwrite] <;>
          exact ⟨rfl, rfl, rfl, rfl, congrArg Nat.cast hkeyed.symm⟩
      have hsum := htallied.add htallied'
      rw [List.append_nil] at hsum
      convert hsum using 1
      simp [RowCounts.add]

theorem RowCounts.add_zero (c : RowCounts) : c.add {} = c := by
  simp [RowCounts.add]

theorem RowCounts.zero_add (c : RowCounts) : RowCounts.add {} c = c := by
  simp [RowCounts.add]

theorem RowCounts.add_assoc (c₁ c₂ c₃ : RowCounts) :
    (c₁.add c₂).add c₃ = c₁.add (c₂.add c₃) := by
  simp [RowCounts.add, Int.add_assoc]

theorem foldl_counts (out : List ImportedRow) (c : RowCounts) :
    out.foldl (fun sum r => sum.add r.counts) c =
      c.add (out.foldl (fun sum r => sum.add r.counts) {}) := by
  induction out generalizing c with
  | nil => exact c.add_zero.symm
  | cons r out ih =>
      rw [List.foldl_cons, List.foldl_cons, ih, ih (RowCounts.add {} r.counts),
        RowCounts.zero_add, RowCounts.add_assoc]

/-- The rows of a page are counted one by one. -/
theorem tallied_importPage {out : List ImportedRow}
    (h : Eval st (importPageTxn (O := O) sfwBucket jobRunId rows) l out l') :
    ∃ events, l'.pend = l.pend ++ events ∧ Tallied sfwBucket rows events
      (out.foldl (fun sum r => sum.add r.counts) {}) := by
  induction rows generalizing l out with
  | nil =>
      obtain ⟨rfl, rfl⟩ := eval_ret.mp h
      exact ⟨[], (List.append_nil _).symm, .nil⟩
  | cons row rows ih =>
      obtain ⟨first, l₁, rest, hone, hpage, rfl⟩ := importPageTxn_runs_cons h
      obtain ⟨events, hevents, htallied⟩ := tallied_importOneRow hone
      obtain ⟨events', hevents', htallied'⟩ := ih hpage
      refine ⟨events ++ events', by rw [hevents', hevents, List.append_assoc], ?_⟩
      rw [List.foldl_cons, RowCounts.zero_add, foldl_counts]
      exact htallied.add htallied'

end Tally

/-- A commit is counted as what it did. -/
def Commit.Exact (sfwBucket : String) : Commit → Prop
  | .imported rows out events => Tallied sfwBucket rows events
      (out.foldl (fun sum r => sum.add r.counts) {})
  | .recorded _ _ => True

/-- What a step does to the ledger. -/
inductive Change (env : ImportEnv) (b b' : Body) : Prop
  | idle (hfinished : b'.finished = b.finished) (hcommits : b'.commits = b.commits)
      (hlost : b'.lost = b.lost) (hsummary : b'.run.summary = b.run.summary)
      (hfeed : b.run.db.feed <+: b'.run.db.feed)
  | committed {c : Commit} (hexact : c.Exact env.sfwBucket)
      (hfinished : b'.finished = b.finished) (hcommits : b'.commits = b.commits ++ [c])
      (hlost : b'.lost = b.lost) (hsummary : b'.run.summary = b.run.summary.commit c)
      (hfeed : b'.run.db.feed = b.run.db.feed ++ c.events)
  | lost {c : Commit} (hexact : c.Exact env.sfwBucket)
      (hfinished : b'.finished = b.finished) (hcommits : b'.commits = b.commits)
      (hlost : b'.lost = some c) (hsummary : b'.run.summary = b.run.summary)
      (hfeed : b'.run.db.feed = b.run.db.feed ++ c.events)
  | pageDone (hfinished : b'.finished = b.finished ++ [⟨b.page, b.commits⟩])
      (hcommits : b'.commits = []) (hlost : b'.lost = b.lost)
      (hsummary : b'.run.summary = { b.run.summary with
        scannedRows := b.run.summary.scannedRows + b.page.length })
      (hfeed : b'.run.db.feed = b.run.db.feed)

variable {env : ImportEnv} {b b' : Body} {e : BodyEvent} {c : Commit} {commits : List Commit}
  {pages : List FinishedPage}

theorem batch_exact {out : List ImportedRow} {events : List (ℕ × FeedEventRow)} {db : Db}
    (h : BatchCommits env b out events db) :
    Commit.Exact env.sfwBucket (.imported b.page out events) ∧
      db.feed = b.run.db.feed ++ events := by
  obtain ⟨l, heval, rfl, hfeed⟩ := h.eval
  obtain ⟨events, hevents, htallied⟩ := tallied_importPage heval
  refine ⟨?_, hfeed⟩
  unfold Commit.Exact
  rw [hevents]
  exact htallied

theorem row_exact {row : LegacyVideoIndexRow} {imported : ImportedRow}
    {events : List (ℕ × FeedEventRow)} {db : Db} (h : RowCommits env b row imported events db) :
    Commit.Exact env.sfwBucket (.imported [row] [imported] events) ∧
      db.feed = b.run.db.feed ++ events := by
  obtain ⟨l, heval, rfl, hfeed⟩ := h.eval
  obtain ⟨events, hevents, htallied⟩ := tallied_importOneRow heval
  have hcounts : [imported].foldl (fun sum r => sum.add r.counts) ({} : RowCounts) =
      imported.counts := RowCounts.zero_add _
  refine ⟨?_, hfeed⟩
  unfold Commit.Exact
  simp only [hcounts]
  rw [hevents]
  exact htallied

theorem ImportSummary.add_foldl (s : ImportSummary) (out : List ImportedRow) (c : RowCounts) :
    s.add (out.foldl (fun sum r => sum.add r.counts) c) =
      out.foldl (fun sum r => sum.add r.counts) (s.add c) := by
  induction out generalizing c with
  | nil => rfl
  | cons r out ih =>
      rw [List.foldl_cons, List.foldl_cons, ih]
      congr 1
      simp [ImportSummary.add, RowCounts.add, Int.add_assoc]

theorem ImportSummary.add_zero (s : ImportSummary) : s.add {} = s := by
  simp [ImportSummary.add]

theorem ImportSummary.commit_imported (s : ImportSummary) (rows : List LegacyVideoIndexRow)
    (out : List ImportedRow) (events : List (ℕ × FeedEventRow)) :
    s.commit (.imported rows out events) =
      out.foldl (fun sum r => sum.add r.counts) s := by
  unfold ImportSummary.commit Commit.counts
  rw [ImportSummary.add_foldl, ImportSummary.add_zero]

theorem change_step (h : BodyStep env b e b') : Change env b b' := by
  cases h with
  | cancelled | limitReached | exhausted | page | fetchFailed | batchRolledBack | batchFailed
  | rowFailed => exact .idle rfl rfl rfl rfl (List.prefix_refl _)
  | others db vi hfeed => exact .idle rfl rfl rfl rfl hfeed
  | batchCommitted h htxn =>
      obtain ⟨hexact, hfeed⟩ := batch_exact htxn
      exact .committed hexact rfl rfl rfl (ImportSummary.commit_imported ..).symm hfeed
  | rowCommitted h htxn =>
      obtain ⟨hexact, hfeed⟩ := row_exact htxn
      exact .committed hexact rfl rfl rfl (ImportSummary.commit_imported ..).symm hfeed
  | @rowRecorded error drawn row left failures h hrec =>
      have hexact : Commit.Exact env.sfwBucket (.recorded row error) := trivial
      exact .committed hexact rfl rfl rfl rfl (List.append_nil _).symm
  | batchLost error h htxn =>
      obtain ⟨hexact, hfeed⟩ := batch_exact htxn
      exact .lost hexact rfl rfl rfl rfl hfeed
  | rowLost error h htxn =>
      obtain ⟨hexact, hfeed⟩ := row_exact htxn
      exact .lost hexact rfl rfl rfl rfl hfeed
  | @recordLost error last drawn row left failures h hrec =>
      have hexact : Commit.Exact env.sfwBucket (.recorded row last) := trivial
      exact .lost hexact rfl rfl rfl rfl (List.append_nil _).symm
  | pageDone h => exact .pageDone rfl rfl rfl rfl rfl

/-! ## Where a run stands -/

/-- The transactions whose commit was acknowledged. -/
def Body.acknowledged (b : Body) : List Commit :=
  b.finished.flatMap FinishedPage.commits ++ b.commits

/-- The transactions that no totals count: of the page at hand. -/
def Body.uncounted (b : Body) : List Commit := b.commits ++ b.lost.toList

/-- All transactions that were committed. -/
def Body.committed (b : Body) : List Commit := b.acknowledged ++ b.lost.toList

/-- What the code counts is what it has committed. -/
structure Body.Accounted (env : ImportEnv) (b : Body) : Prop where
  summary : b.run.summary =
    b.commits.foldl ImportSummary.commit (summaryOf env.jobRunId b.finished)
  exact : ∀ c ∈ b.committed, c.Exact env.sfwBucket
  feed : (b.committed.flatMap Commit.events).Sublist b.run.db.feed

/-- The rows of a page are those of its transactions, and those that are left. -/
def Body.Covers (b : Body) : Prop :=
  match b.next with
  | .looking | .batching | .flushing | .closing _ => b.commits = [] ∧ b.lost = none
  | .importing left => b.commits.flatMap Commit.rows ++ left = b.page ∧ b.lost = none
  | .failing _ => b.uncounted.flatMap Commit.rows <+: b.page

theorem Body.not_failing (hturn : b.turn = .work) (error : String) : b.next ≠ .failing error := by
  unfold Body.turn at hturn
  intro hnext
  rw [hnext] at hturn
  cases hturn

theorem Body.Covers.not_lost (h : b.Covers) (hnext : ∀ error, b.next ≠ .failing error) :
    b.lost = none := by
  unfold Body.Covers at h
  cases hb : b.next with
  | looking | batching | importing _ | flushing | closing _ =>
      rw [hb] at h
      exact h.2
  | failing error => exact absurd hb (hnext error)

theorem summaryOf_append (p : FinishedPage) :
    summaryOf env.jobRunId (pages ++ [p]) = (summaryOf env.jobRunId pages).page p := by
  unfold summaryOf
  rw [List.foldl_append]
  rfl

/-- One more transaction. -/
theorem Body.Accounted.append (h : b.Accounted env) (hnone : b.lost = none)
    (hexact : c.Exact env.sfwBucket) :
    (∀ c' ∈ b.acknowledged ++ [c], c'.Exact env.sfwBucket) ∧
      ((b.acknowledged ++ [c]).flatMap Commit.events).Sublist
        (b.run.db.feed ++ c.events) := by
  have hcommitted : b.committed = b.acknowledged := by
    unfold Body.committed
    rw [hnone]
    exact List.append_nil _
  constructor
  · intro c' hc'
    rcases List.mem_append.mp hc' with hc' | hc'
    · exact h.exact c' (hcommitted ▸ hc')
    · exact List.mem_singleton.mp hc' ▸ hexact
  · rw [List.flatMap_append, List.flatMap_singleton]
    exact (hcommitted ▸ h.feed).append (List.Sublist.refl _)

theorem accounted_step (h : b.Accounted env) (hnone : b.lost = none) (hchange : Change env b b') :
    b'.Accounted env := by
  cases hchange with
  | idle hfinished hcommits hlost hsummary hfeed =>
      have hcommitted : b'.committed = b.committed := by
        unfold Body.committed Body.acknowledged
        rw [hfinished, hcommits, hlost]
      refine ⟨?_, hcommitted ▸ h.exact, hcommitted ▸ h.feed.trans hfeed.sublist⟩
      rw [hsummary, hcommits, hfinished, h.summary]
  | @committed c hexact hfinished hcommits hlost hsummary hfeed =>
      have hcommitted : b'.committed = b.acknowledged ++ [c] := by
        unfold Body.committed Body.acknowledged
        rw [hfinished, hcommits, hlost, hnone, ← List.append_assoc]
        exact List.append_nil _
      obtain ⟨hall, hsub⟩ := h.append hnone hexact
      refine ⟨?_, hcommitted ▸ hall, ?_⟩
      · rw [hsummary, hcommits, hfinished, h.summary, List.foldl_append]
        rfl
      · rw [hcommitted, hfeed]
        exact hsub
  | @lost c hexact hfinished hcommits hlost hsummary hfeed =>
      have hcommitted : b'.committed = b.acknowledged ++ [c] := by
        unfold Body.committed Body.acknowledged
        rw [hfinished, hcommits, hlost]
        rfl
      obtain ⟨hall, hsub⟩ := h.append hnone hexact
      refine ⟨?_, hcommitted ▸ hall, ?_⟩
      · rw [hsummary, hcommits, hfinished, h.summary]
      · rw [hcommitted, hfeed]
        exact hsub
  | pageDone hfinished hcommits hlost hsummary hfeed =>
      have hcommitted : b'.committed = b.committed := by
        unfold Body.committed Body.acknowledged
        rw [hfinished, hcommits, hlost, List.flatMap_append, List.flatMap_singleton,
          List.append_nil]
      refine ⟨?_, hcommitted ▸ h.exact, ?_⟩
      · rw [hsummary, hcommits, hfinished, summaryOf_append, h.summary]
        rfl
      · rw [hcommitted, hfeed]
        exact h.feed

/-- The pages are covered by their transactions. -/
structure Body.Covered (b : Body) : Prop where
  finished : ∀ p ∈ b.finished, p.commits.flatMap Commit.rows = p.page
  current : b.Covers

theorem covered_step (h : b.Covered) (hstep : BodyStep env b e b') : b'.Covered := by
  obtain ⟨hfinished, hcurrent⟩ := h
  unfold Body.Covers at hcurrent
  cases hstep with
  | cancelled hnext | limitReached hnext _ | exhausted hnext _ _ | page hnext _ _ =>
      rw [hnext] at hcurrent
      exact ⟨hfinished, hcurrent⟩
  | fetchFailed error hnext _ | batchFailed error drawn hnext =>
      rw [hnext] at hcurrent
      refine ⟨hfinished, ?_⟩
      unfold Body.Covers Body.uncounted
      rw [hcurrent.1, hcurrent.2]
      exact List.nil_prefix
  | batchCommitted hnext _ =>
      rw [hnext] at hcurrent
      refine ⟨hfinished, ?_, hcurrent.2⟩
      rw [hcurrent.1]
      simp [Commit.rows]
  | batchRolledBack drawn hnext =>
      rw [hnext] at hcurrent
      refine ⟨hfinished, ?_, hcurrent.2⟩
      rw [hcurrent.1]
      rfl
  | batchLost error hnext _ =>
      rw [hnext] at hcurrent
      refine ⟨hfinished, ?_⟩
      unfold Body.Covers Body.uncounted
      rw [hcurrent.1]
      simp [Commit.rows]
  | rowCommitted hnext _ =>
      rw [hnext] at hcurrent
      refine ⟨hfinished, ?_, hcurrent.2⟩
      rw [← hcurrent.1, List.flatMap_append, List.append_assoc]
      rfl
  | @rowRecorded error drawn row left failures hnext _ =>
      rw [hnext] at hcurrent
      refine ⟨hfinished, ?_⟩
      unfold Body.Covers afterFailure
      have hrows : (b.commits ++ [Commit.recorded row error]).flatMap Commit.rows ++ left = b.page := by
        rw [← hcurrent.1, List.flatMap_append, List.append_assoc]
        rfl
      split_ifs
      · unfold Body.uncounted
        rw [hcurrent.2, Option.toList_none, List.append_nil, ← hrows]
        exact List.prefix_append _ _
      · exact ⟨hrows, hcurrent.2⟩
  | rowFailed error drawn hnext =>
      rw [hnext] at hcurrent
      refine ⟨hfinished, ?_⟩
      unfold Body.Covers Body.uncounted
      rw [hcurrent.2, Option.toList_none, List.append_nil, ← hcurrent.1]
      exact List.prefix_append _ _
  | @rowLost error row left _ _ _ hnext _ | @recordLost error last drawn row left _ hnext _ =>
      rw [hnext] at hcurrent
      refine ⟨hfinished, ?_⟩
      unfold Body.Covers Body.uncounted
      rw [← hcurrent.1, List.flatMap_append]
      exact (List.prefix_append_right_inj _).mpr (List.prefix_append [row] left)
  | pageDone hnext =>
      rw [hnext] at hcurrent
      refine ⟨?_, rfl, hcurrent.2⟩
      intro p hp
      rcases List.mem_append.mp hp with hp | hp
      · exact hfinished p hp
      · obtain rfl := List.mem_singleton.mp hp
        exact (List.append_nil _).symm.trans hcurrent.1
  | others db vi _ => exact ⟨hfinished, hcurrent⟩

/-! ## Why a run stops -/

def Commit.isRecorded : Commit → Bool
  | .imported .. => false
  | .recorded .. => true

/-- The last of these transactions are records of as many refused rows. -/
def Recent (n : ℕ) (commits : List Commit) : Prop :=
  ∃ earlier recent, commits = earlier ++ recent ∧ recent.length = n ∧
    ∀ c ∈ recent, c.isRecorded = true

theorem Recent.zero : Recent 0 commits := ⟨commits, [], (List.append_nil _).symm, rfl, nofun⟩

theorem Recent.recorded {n : ℕ} {row : LegacyVideoIndexRow} {error : String}
    (h : Recent n commits) : Recent (n + 1) (commits ++ [.recorded row error]) := by
  obtain ⟨earlier, recent, rfl, rfl, hrecorded⟩ := h
  refine ⟨earlier, recent ++ [.recorded row error], List.append_assoc .., ?_, ?_⟩
  · rw [List.length_append]
    rfl
  · intro c hc
    rcases List.mem_append.mp hc with hc | hc
    · exact hrecorded c hc
    · obtain rfl := List.mem_singleton.mp hc
      rfl

/-- Why a run fails: an error of the database, a limit that makes no sense, or that the
last fifty rows were refused. -/
def Reason (env : ImportEnv) (commits : List Commit) (error : String) : Prop :=
  (∃ e, error = postgresText e) ∨
  (∃ limit, env.limit = some limit ∧ limit < 0 ∧
    error = (ImportError.invalidLimit limit).text env.errorText) ∨
  ∃ row lastError, Recent maxConsecutiveImportFailures commits ∧
    commits.getLast? = some (.recorded row lastError) ∧
    error = (ImportError.tooManyConsecutiveFailures maxConsecutiveImportFailures
      lastError).text env.errorText

structure Body.Stands (env : ImportEnv) (b : Body) : Prop where
  recent : Recent b.run.consecutiveFailures b.acknowledged
  /-- The run has not failed before. -/
  few : (∀ error, b.next ≠ .failing error) →
    b.run.consecutiveFailures < maxConsecutiveImportFailures
  failing : ∀ error, b.next = .failing error → Reason env b.acknowledged error
  status : ∀ status, b.next = .closing status →
    ∃ cancelled, status = importStatus cancelled b.run

theorem Body.Stands.postgres (h : b.Stands env) {b' : Body} (error : String)
    (hnext : b'.next = .failing (postgresText error))
    (hfailures : b'.run.consecutiveFailures = b.run.consecutiveFailures)
    (hacknowledged : b'.acknowledged = b.acknowledged) : b'.Stands env := by
  refine ⟨?_, fun h => absurd hnext (h _), ?_, ?_⟩
  · rw [hfailures, hacknowledged]
    exact h.recent
  · intro error' herror
    obtain rfl := Next.failing.inj (hnext.symm.trans herror)
    exact .inl ⟨error, rfl⟩
  · intro status hstatus
    rw [hnext] at hstatus
    cases hstatus

theorem stands_step (h : b.Stands env) (hturn : b.turn = .work) (hstep : BodyStep env b e b') :
    b'.Stands env := by
  have hfew := h.few (Body.not_failing hturn)
  cases hstep with
  | cancelled | limitReached | exhausted =>
      refine ⟨h.recent, fun _ => hfew, nofun, ?_⟩
      rintro status ⟨⟩
      exact ⟨_, rfl⟩
  | page | batchRolledBack => exact ⟨h.recent, fun _ => hfew, nofun, nofun⟩
  | fetchFailed | batchFailed | batchLost | rowFailed | rowLost | recordLost =>
      exact h.postgres _ rfl rfl rfl
  | batchCommitted | rowCommitted => exact ⟨.zero, fun _ => Nat.zero_lt_succ 49, nofun, nofun⟩
  | @rowRecorded error drawn row left failures hnext _ =>
      have hacknowledged : b.finished.flatMap FinishedPage.commits ++
          (b.commits ++ [.recorded row error]) = b.acknowledged ++ [.recorded row error] :=
        (List.append_assoc ..).symm
      have hrecent : Recent (b.run.consecutiveFailures + 1)
          (b.acknowledged ++ [.recorded row error]) := h.recent.recorded
      constructor
      · unfold Body.acknowledged
        rw [hacknowledged]
        exact hrecent
      · unfold afterFailure
        split_ifs with hmany
        · exact fun hnot => absurd rfl (hnot _)
        · exact fun _ => lt_of_not_ge hmany
      · unfold afterFailure Body.acknowledged
        rw [hacknowledged]
        split_ifs with hmany
        · rintro error' ⟨⟩
          have hfifty : b.run.consecutiveFailures + 1 = maxConsecutiveImportFailures :=
            le_antisymm hfew hmany
          refine .inr (.inr ⟨row, error, hfifty ▸ hrecent, ?_, ?_⟩)
          · exact List.getLast?_concat
          · rw [← hfifty]
            rfl
        · nofun
      · unfold afterFailure
        split_ifs <;> nofun
  | pageDone =>
      refine ⟨?_, fun _ => hfew, nofun, nofun⟩
      unfold Body.acknowledged
      rw [List.flatMap_append, List.flatMap_singleton, List.append_nil]
      exact h.recent
  | others db vi _ => exact ⟨h.recent, fun _ => hfew, h.failing, h.status⟩

/-! ## How much a run takes -/

/-- How many rows `scanned_rows` is still to count. -/
def Body.inHand (b : Body) : ℕ :=
  match b.next with
  | .batching | .importing _ => b.page.length
  | .looking | .flushing | .closing _ => 0
  | .failing _ => (b.uncounted.flatMap Commit.rows).length

structure Body.Within (env : ImportEnv) (b : Body) : Prop where
  page : b.page.length ≤ env.batchSize.toNat
  limit : ∀ limit, env.limit = some limit → 0 ≤ limit →
    b.run.summary.scannedRows + b.inHand ≤ limit

theorem length_fetchRows {rows : List LegacyVideoIndexRow} (h : fetchRows env b = .ok rows) :
    (rows.length : ℤ) ≤ b.run.pageLimit env := by
  unfold fetchRows fetchMissingLegacyRowsAfter at h
  by_cases hlimit : 0 ≤ b.run.pageLimit env
  · have hok : limitOf (some (b.run.pageLimit env)) = .ok (some (b.run.pageLimit env).toNat) :=
      if_pos hlimit
    rw [hok] at h
    obtain rfl := Except.ok.inj h
    have hlength : (orderLimit LegacyVideoIndexRow.videoId (some (b.run.pageLimit env).toNat)
        ((legacyRows b.vi).filter (missingPast b.run.after b.run.db.tables))).length ≤
        (b.run.pageLimit env).toNat := length_orderLimit_le
    omega
  · have herror : limitOf (some (b.run.pageLimit env)) = .error .negativeLimit :=
      if_neg hlimit
    rw [herror] at h
    cases h

theorem inHand_batching (h : b.next = .batching) : b.inHand = b.page.length := by
  unfold Body.inHand
  rw [h]

theorem inHand_importing {left : List LegacyVideoIndexRow} (h : b.next = .importing left) :
    b.inHand = b.page.length := by
  unfold Body.inHand
  rw [h]

theorem ImportState.pageLimit_le (s : ImportState) : s.pageLimit env ≤ env.batchSize ∧
    ∀ limit, env.limit = some limit → s.pageLimit env ≤ limit - s.summary.scannedRows := by
  unfold ImportState.pageLimit ImportState.remaining
  cases env.limit with
  | none => exact ⟨le_refl _, nofun⟩
  | some limit =>
      refine ⟨min_le_right _ _, ?_⟩
      rintro limit ⟨⟩
      exact min_le_left _ _

theorem Body.Within.idle (h : b.Within env) {b' : Body} (hpage : b'.page = b.page)
    (hscanned : b'.run.summary.scannedRows = b.run.summary.scannedRows)
    (hhand : b'.inHand ≤ b.inHand) : b'.Within env := by
  refine ⟨hpage ▸ h.page, fun limit hlimit hnonneg => ?_⟩
  have := h.limit limit hlimit hnonneg
  omega

/-- A run fails in the middle of a page, or before it. -/
theorem uncounted_le (hcovered : b.Covered) (hstep : BodyStep env b e b') {error : String}
    (hnext : b'.next = .failing error) :
    (b'.uncounted.flatMap Commit.rows).length ≤ b.inHand := by
  have hpage : (b'.uncounted.flatMap Commit.rows).length ≤ b'.page.length := by
    have hcovers := (covered_step hcovered hstep).current
    unfold Body.Covers at hcovers
    rw [hnext] at hcovers
    exact hcovers.length_le
  cases hstep with
  | batchFailed _ _ h | batchLost _ h _ => exact hpage.trans (inHand_batching h).ge
  | rowRecorded _ _ h _ | rowFailed _ _ h | rowLost _ h _ | recordLost _ _ _ h _ =>
      exact hpage.trans (inHand_importing h).ge
  | fetchFailed _ h _ =>
      have hcovers := hcovered.current
      unfold Body.Covers at hcovers
      rw [h] at hcovers
      unfold Body.uncounted
      rw [hcovers.1, hcovers.2]
      exact Nat.zero_le _
  | others db vi _ =>
      have hbefore : b.next = .failing error := hnext
      unfold Body.inHand
      rw [hbefore]
      exact le_refl _
  | _ => cases hnext

theorem within_step (h : b.Within env) (hcovered : b.Covered) (hstep : BodyStep env b e b') :
    b'.Within env := by
  have hfails : ∀ error, b'.next = .failing error →
      (b'.uncounted.flatMap Commit.rows).length ≤ b.inHand :=
    fun _ => uncounted_le hcovered hstep
  cases hstep with
  | cancelled | limitReached | exhausted => exact h.idle rfl rfl (Nat.zero_le _)
  | fetchFailed | batchFailed | batchLost | rowFailed | rowLost | recordLost =>
      exact h.idle rfl rfl (hfails _ rfl)
  | @page row rows hnext hlimit hrows =>
      have hlength := length_fetchRows hrows
      obtain ⟨hbatch, hremaining⟩ : b.run.pageLimit env ≤ env.batchSize ∧ _ :=
        b.run.pageLimit_le
      refine ⟨?_, fun limit hlimit _ => ?_⟩
      · dsimp only
        omega
      · have := hremaining limit hlimit
        change b.run.summary.scannedRows + ((row :: rows).length : ℤ) ≤ limit
        omega
  | batchCommitted hnext _ =>
      exact h.idle rfl (scannedRows_foldl_add _ _) (inHand_batching hnext).ge
  | batchRolledBack drawn hnext => exact h.idle rfl rfl (inHand_batching hnext).ge
  | rowCommitted hnext _ =>
      exact h.idle rfl (scannedRows_foldl_add _ _) (inHand_importing hnext).ge
  | @rowRecorded error drawn row left failures hnext _ =>
      by_cases hmany : maxConsecutiveImportFailures ≤
          ((b.run.rolledBack drawn).failed failures).consecutiveFailures
      · have hfails' : afterFailure left error ((b.run.rolledBack drawn).failed failures) =
            .failing _ := if_pos hmany
        have hcount := hfails _ hfails'
        refine h.idle rfl rfl ?_
        rw [hfails']
        exact hcount
      · have hgoes : afterFailure left error ((b.run.rolledBack drawn).failed failures) =
            .importing left := if_neg hmany
        refine h.idle rfl rfl ?_
        rw [hgoes]
        exact (inHand_importing hnext).ge
  | pageDone hnext =>
      refine ⟨h.page, fun limit hlimit hnonneg => ?_⟩
      have hbefore := h.limit limit hlimit hnonneg
      rw [inHand_importing hnext] at hbefore
      change b.run.summary.scannedRows + b.page.length + 0 ≤ limit
      omega
  | others db vi _ => exact h.idle rfl rfl (le_refl _)

/-! ## Its accounts -/

structure Body.Valid (env : ImportEnv) (b : Body) : Prop extends
  Body.Accounted env b, Body.Covered b, Body.Stands env b, Body.Within env b

theorem valid_step (h : b.Valid env) (hturn : b.turn = .work) (hstep : BodyStep env b e b') :
    b'.Valid env where
  toAccounted :=
    accounted_step h.toAccounted (h.current.not_lost (Body.not_failing hturn)) (change_step hstep)
  toCovered := covered_step h.toCovered hstep
  toStands := stands_step h.toStands hturn hstep
  toWithin := within_step h.toWithin h.toCovered hstep

theorem flushing_of_turn (h : b.turn = .report) : b.next = .flushing := by
  unfold Body.turn at h
  split at h <;> simp_all

theorem closing_of_turn {status : String} (h : b.turn = .close status) :
    b.next = .closing status := by
  unfold Body.turn at h
  split at h <;> simp_all

theorem failing_of_turn {error : String} (h : b.turn = .fail error) :
    b.next = .failing error := by
  unfold Body.turn at h
  split at h <;> simp_all

theorem valid_flushed (h : b.Valid env) (hturn : b.turn = .report) :
    Body.Valid env { b with next := .looking } := by
  have hnext := flushing_of_turn hturn
  have hcurrent := h.current
  have hfew := h.few (by rw [hnext]; nofun)
  unfold Body.Covers at hcurrent
  rw [hnext] at hcurrent
  have hcovered : Body.Covered { b with next := .looking } := ⟨h.finished, hcurrent⟩
  have hstands : Body.Stands env { b with next := .looking } :=
    ⟨h.recent, fun _ => hfew, nofun, nofun⟩
  exact ⟨⟨h.summary, h.exact, h.feed⟩, hcovered, hstands, h.idle rfl rfl (Nat.zero_le _)⟩

/-- The totals are written between pages. -/
theorem summary_reported (h : b.Valid env)
    (hturn : b.turn = .report ∨ ∃ status, b.turn = .close status) :
    b.run.summary = summaryOf env.jobRunId b.finished := by
  have hcurrent := h.current
  unfold Body.Covers at hcurrent
  have hnone : b.commits = [] := by
    rcases hturn with hturn | ⟨status, hturn⟩
    · rw [flushing_of_turn hturn] at hcurrent
      exact hcurrent.1
    · rw [closing_of_turn hturn] at hcurrent
      exact hcurrent.1
  rw [h.summary, hnone]
  rfl

theorem finished_step (h : BodyStep env b e b') : b.finished <+: b'.finished := by
  cases change_step h with
  | idle hfinished => exact hfinished ▸ List.prefix_refl _
  | committed _ hfinished => exact hfinished ▸ List.prefix_refl _
  | lost _ hfinished => exact hfinished ▸ List.prefix_refl _
  | pageDone hfinished => exact hfinished ▸ List.prefix_append _ _

/-- The totals count the pages that are finished. -/
def accounts (env : ImportEnv) : Accounts (code env) FinishedPage where
  work := Body.finished
  tally pages := summaryTotals (summaryOf env.jobRunId pages)
  Valid := Body.Valid env
  extends_work _ _ _ _ := finished_step
  work_reported _ := rfl
  valid_step _ _ _ := valid_step
  valid_reported _ := valid_flushed
  exact _ h hturn := congrArg summaryTotals (summary_reported h hturn)

/-! ## What they count -/

/-- What the totals of these transactions are. -/
structure Counted (sfwBucket : String) (commits : List Commit) (summary : ImportSummary) :
    Prop where
  media : summary.importedMediaRows =
    (commits.flatMap Commit.events).countP (ofKind .mediaVisibilityChanged)
  hashes : summary.hashRowsUpserted =
    (commits.flatMap Commit.events).countP (ofKind .hashUpserted)
  appended : summary.hashFeedEventsAppended =
    (commits.flatMap Commit.events).countP (ofKind .hashUpserted)
  /-- There are no other events. -/
  kinds : (commits.flatMap Commit.events).length =
    (commits.flatMap Commit.events).countP (ofKind .mediaVisibilityChanged) +
      (commits.flatMap Commit.events).countP (ofKind .hashUpserted)
  failures : summary.rowFailures = (commits.map (Commit.failures sfwBucket)).sum

/-- A record is one failure and no event. -/
theorem Commit.Exact.counts {sfwBucket : String} (h : c.Exact sfwBucket) :
    c.counts.importedMediaRows = c.events.countP (ofKind .mediaVisibilityChanged) ∧
      c.counts.hashRowsUpserted = c.events.countP (ofKind .hashUpserted) ∧
      c.counts.hashFeedEventsAppended = c.events.countP (ofKind .hashUpserted) ∧
      c.events.length = c.events.countP (ofKind .mediaVisibilityChanged) +
        c.events.countP (ofKind .hashUpserted) ∧
      c.counts.rowFailures = c.failures sfwBucket := by
  cases c with
  | imported rows out events => exact ⟨h.media, h.hashes, h.appended, h.kinds, h.failures⟩
  | recorded row error => exact ⟨rfl, rfl, rfl, rfl, rfl⟩

theorem Counted.commit {sfwBucket : String} {summary : ImportSummary}
    (h : Counted sfwBucket commits summary) (hc : c.Exact sfwBucket) :
    Counted sfwBucket (commits ++ [c]) (summary.commit c) := by
  obtain ⟨hmedia, hhashes, happended, hkinds, hfailures⟩ := hc.counts
  have hevents : (commits ++ [c]).flatMap Commit.events =
      commits.flatMap Commit.events ++ c.events := by
    rw [List.flatMap_append, List.flatMap_singleton]
  constructor
  · rw [hevents, List.countP_append, Nat.cast_add, ← h.media, ← hmedia]
    rfl
  · rw [hevents, List.countP_append, Nat.cast_add, ← h.hashes, ← hhashes]
    rfl
  · rw [hevents, List.countP_append, Nat.cast_add, ← h.appended, ← happended]
    rfl
  · rw [hevents, List.length_append, List.countP_append, List.countP_append, h.kinds, hkinds]
    omega
  · rw [List.map_append, List.sum_append, Nat.cast_add, ← h.failures, List.map_singleton,
      List.sum_singleton, ← hfailures]
    rfl

theorem Counted.foldl {sfwBucket : String} {summary : ImportSummary} {more : List Commit}
    (h : Counted sfwBucket commits summary) (hmore : ∀ c ∈ more, c.Exact sfwBucket) :
    Counted sfwBucket (commits ++ more) (more.foldl ImportSummary.commit summary) := by
  induction more generalizing commits summary with
  | nil =>
      rw [List.append_nil]
      exact h
  | cons c more ih =>
      have hrest := ih (h.commit (hmore c (.head _))) fun c' hc' => hmore c' (.tail _ hc')
      rwa [List.append_assoc] at hrest

theorem counted_summaryOf {sfwBucket : String}
    (hexact : ∀ c ∈ pages.flatMap FinishedPage.commits, c.Exact sfwBucket) :
    Counted sfwBucket (pages.flatMap FinishedPage.commits) (summaryOf env.jobRunId pages) := by
  induction pages using List.reverseRecOn with
  | nil => exact ⟨rfl, rfl, rfl, rfl, rfl⟩
  | append_singleton pages p ih =>
      rw [List.flatMap_append, List.flatMap_singleton] at hexact ⊢
      rw [summaryOf_append]
      have hbefore := ih fun c hc => hexact c (List.mem_append_left _ hc)
      obtain ⟨hmedia, hhashes, happended, hkinds, hfailures⟩ :=
        hbefore.foldl fun c hc => hexact c (List.mem_append_right _ hc)
      exact ⟨hmedia, hhashes, happended, hkinds, hfailures⟩

theorem scannedRows_commits (commits : List Commit) (s : ImportSummary) :
    (commits.foldl ImportSummary.commit s).scannedRows = s.scannedRows := by
  induction commits generalizing s with
  | nil => rfl
  | cons c commits ih => exact ih _

theorem scannedRows_summaryOf :
    (summaryOf env.jobRunId pages).scannedRows =
      (pages.flatMap FinishedPage.page).length := by
  induction pages using List.reverseRecOn with
  | nil => rfl
  | append_singleton pages p ih =>
      rw [summaryOf_append, List.flatMap_append, List.flatMap_singleton, List.length_append,
        Nat.cast_add, ← ih]
      exact congrArg (· + (p.page.length : ℤ)) (scannedRows_commits ..)

/-! ## Runs -/

variable {requestedBy : String} {db : Db} {vi : VideoTables} {runs : JobRuns String Json}
  {s s' : RunningJob Body} {es : List (RunEvent BodyEvent)}

/-- The end of an import with this status: its token, or its transactions, are the
reason. -/
def EndsFor (env : ImportEnv) (es : List (RunEvent BodyEvent)) (commits : List Commit)
    (status : String) : Prop :=
  (status = "cancelled" ∧ .own (.worked .cancelled) ∈ es) ∨
  (status = "succeeded" ∧ ∀ c ∈ commits, c.failures env.sfwBucket = 0) ∨
  (status = "succeeded_with_failures" ∧ ∃ c ∈ commits, c.failures env.sfwBucket ≠ 0)

/-- **What the row of an import says**, wherever the run is. -/
structure ImportLedger (env : ImportEnv) (requestedBy : String)
    (es : List (RunEvent BodyEvent)) (s : RunningJob Body) : Prop where
  row : (accounts env).RowTells env.jobRunId requestedBy s
  /-- Each row of a page that is counted is imported, or recorded as refused, once. -/
  pages : ∀ p ∈ s.body.finished, p.commits.flatMap Commit.rows = p.page
  /-- The totals of first pages count their transactions, whose events are in the feed. -/
  counted : ∀ pages, pages <+: s.body.finished →
    (summaryOf env.jobRunId pages).scannedRows = (pages.flatMap FinishedPage.page).length ∧
    Counted env.sfwBucket (pages.flatMap FinishedPage.commits) (summaryOf env.jobRunId pages) ∧
    ((pages.flatMap FinishedPage.commits).flatMap Commit.events).Sublist s.body.run.db.feed
  /-- What no totals count is a first part of one page. -/
  uncounted : s.body.uncounted.flatMap Commit.rows <+: s.body.page ∧
    s.body.page.length ≤ env.batchSize.toNat
  limit : ∀ limit, env.limit = some limit → 0 ≤ limit →
    ((s.body.committed.flatMap Commit.rows).length : ℤ) ≤ limit
  status : ∀ status, s.progress = .ended status →
    s.body.uncounted = [] ∧ EndsFor env es s.body.committed status
  /-- A row that is closed without an error counts all transactions. -/
  closed : ∀ row, s.runs env.jobRunId = some row → row.finished = true →
    row.errorMessage = none → s.body.uncounted = [] ∧
      row.totals = some (summaryTotals (summaryOf env.jobRunId s.body.finished)) ∧
      EndsFor env es s.body.committed row.status
  /-- Why a run has failed, recorded or not, or its closing update or the insert did. -/
  failed : ∀ error recorded, s.progress = .failed error recorded →
    Reason env s.body.acknowledged error ∨ (∃ status, s.body.next = .closing status) ∨
      ∃ made, .own (.notOpened error made) ∈ es

theorem fresh_start (hnew : runs env.jobRunId = none) :
    (accounts env).Fresh env.jobRunId (startImport env db vi runs) := by
  have hstart : ∀ {next : Next}, startNext env = next →
      next = .looking ∨ ∃ limit, env.limit = some limit ∧ limit < 0 ∧
        next = .failing ((ImportError.invalidLimit limit).text env.errorText) := by
    rintro next rfl
    unfold startNext
    split
    · rename_i limit hlimit
      split_ifs with hneg
      · exact .inr ⟨limit, hlimit, hneg, rfl⟩
      · exact .inl rfl
    · exact .inl rfl
  refine ⟨rfl, hnew, ⟨rfl, nofun, List.nil_sublist _⟩, ⟨nofun, ?_⟩, ⟨.zero, ?_, ?_, ?_⟩,
    ⟨Nat.zero_le _, ?_⟩⟩
  · have hcovers : ∀ {next : Next}, startNext env = next →
        Body.Covers { run := importInit env db, vi := vi, next := next } := by
      rintro next hnext
      rcases hstart hnext with rfl | ⟨limit, -, -, rfl⟩
      · exact ⟨rfl, rfl⟩
      · exact List.nil_prefix
    exact hcovers rfl
  · exact fun _ => Nat.zero_lt_succ 49
  · intro error herror
    rcases hstart rfl with hnext | ⟨limit, hlimit, hneg, hnext⟩
    · cases hnext.symm.trans herror
    · obtain rfl := Next.failing.inj (hnext.symm.trans herror)
      exact .inr (.inl ⟨limit, hlimit, hneg, rfl⟩)
  · intro status hstatus
    rcases hstart rfl with hnext | ⟨limit, -, -, hnext⟩ <;> cases hnext.symm.trans hstatus
  · intro limit hlimit hnonneg
    have hhand : (startImport env db vi runs).body.inHand = 0 := by
      unfold Body.inHand
      rcases hstart rfl with hnext | ⟨limit, -, -, hnext⟩ <;>
        simp [startImport, hnext, Body.uncounted]
    rw [hhand]
    exact hnonneg

/-- A run is closed as cancelled when its token said so. -/
theorem cancelled_of_closing (hturn : b.turn = .work) (hstep : BodyStep env b e b')
    (hclose : b'.turn = .close "cancelled") : e = .cancelled := by
  have hclosing := closing_of_turn hclose
  have hstatus : ∀ s : ImportState, importStatus false s ≠ "cancelled" := by
    intro s
    unfold importStatus
    rw [if_neg Bool.false_ne_true]
    split_ifs <;> decide
  cases hstep with
  | cancelled => rfl
  | limitReached | exhausted => exact absurd (Next.closing.inj hclosing) (hstatus _)
  | rowRecorded error drawn _ _ =>
      unfold afterFailure at hclosing
      split_ifs at hclosing
  | others db vi _ =>
      have hsame : b.turn = .close "cancelled" := hclose
      rw [hturn] at hsame
      cases hsame
  | _ => cases hclosing

theorem uncounted_page (h : b.Covered) : b.uncounted.flatMap Commit.rows <+: b.page ∧
    (b.uncounted.flatMap Commit.rows).length ≤ b.inHand := by
  have hcurrent := h.current
  unfold Body.Covers at hcurrent
  unfold Body.inHand
  cases hnext : b.next with
  | failing error =>
      rw [hnext] at hcurrent
      exact ⟨hcurrent, le_refl _⟩
  | importing left =>
      rw [hnext] at hcurrent
      have hpart : b.uncounted.flatMap Commit.rows <+: b.page := by
        unfold Body.uncounted
        rw [hcurrent.2, Option.toList_none, List.append_nil, ← hcurrent.1]
        exact List.prefix_append _ _
      exact ⟨hpart, hpart.length_le⟩
  | looking | batching | flushing | closing status =>
      rw [hnext] at hcurrent
      unfold Body.uncounted
      rw [hcurrent.1, hcurrent.2]
      exact ⟨List.nil_prefix, Nat.zero_le _⟩

theorem committed_eq : b.committed = b.finished.flatMap FinishedPage.commits ++ b.uncounted :=
  List.append_assoc ..

/-- The rows of finished pages are those of their transactions. -/
theorem rows_finished (h : ∀ p ∈ pages, p.commits.flatMap Commit.rows = p.page) :
    (pages.flatMap FinishedPage.commits).flatMap Commit.rows =
      pages.flatMap FinishedPage.page := by
  rw [List.flatMap_assoc]
  induction pages with
  | nil => rfl
  | cons p pages ih =>
      rw [List.flatMap_cons, List.flatMap_cons, h p (.head _),
        ih fun p' hp' => h p' (.tail _ hp')]

theorem rows_committed (h : b.Valid env) :
    ((b.committed.flatMap Commit.rows).length : ℤ) =
      b.run.summary.scannedRows + (b.uncounted.flatMap Commit.rows).length := by
  rw [committed_eq, List.flatMap_append, List.length_append, rows_finished h.finished,
    h.summary, scannedRows_commits, scannedRows_summaryOf]
  exact Nat.cast_add ..

theorem sum_failures {sfwBucket : String} :
    (commits.map (Commit.failures sfwBucket)).sum = 0 ↔
      ∀ c ∈ commits, c.failures sfwBucket = 0 := by
  rw [List.sum_eq_zero_iff_forall_eq_nat, List.forall_mem_map]

/-- An import that closes its row has counted everything. -/
theorem uncounted_of_turn {status : String} (hvalid : b.Valid env)
    (hturn : b.turn = .close status) : b.uncounted = [] := by
  have hcurrent := hvalid.current
  unfold Body.Covers at hcurrent
  rw [closing_of_turn hturn] at hcurrent
  unfold Body.uncounted
  rw [hcurrent.1, hcurrent.2]
  rfl

theorem endsFor_of_turn {status : String}
    (hrun : Trace ((code env).Step env.jobRunId requestedBy) (startImport env db vi runs) es s)
    (hvalid : s.body.Valid env) (hturn : s.body.turn = .close status) :
    EndsFor env es s.body.committed status := by
  have hcommitted : s.body.committed = s.body.finished.flatMap FinishedPage.commits := by
    rw [committed_eq, uncounted_of_turn hvalid hturn, List.append_nil]
  have hfailures : s.body.run.summary.rowFailures =
      (s.body.committed.map (Commit.failures env.sfwBucket)).sum := by
    rw [summary_reported hvalid (.inr ⟨status, hturn⟩), hcommitted]
    exact (counted_summaryOf fun c hc => hvalid.exact c (hcommitted ▸ hc)).failures
  obtain ⟨cancelled, hstatus⟩ := hvalid.status status (closing_of_turn hturn)
  cases cancelled with
  | true =>
      refine .inl ⟨hstatus, ?_⟩
      rw [hstatus] at hturn
      have hlooking : ∀ b, (code env).turn ((code env).reported b) ≠ .close "cancelled" :=
        fun _ h => by cases h
      have hby := closed_by (fun _ _ _ => cancelled_of_closing) hlooking hrun hturn
      refine hby.resolve_left fun h => ?_
      have hstart : startNext env = .closing "cancelled" := closing_of_turn h
      unfold startNext at hstart
      split at hstart
      · split_ifs at hstart
      · cases hstart
  | false =>
      unfold importStatus at hstatus
      rw [if_neg Bool.false_ne_true] at hstatus
      split_ifs at hstatus with hzero <;> rw [hfailures, Nat.cast_eq_zero, sum_failures] at hzero
      · exact .inr (.inl ⟨hstatus, hzero⟩)
      · push Not at hzero
        exact .inr (.inr ⟨hstatus, hzero⟩)

theorem import_ledger (env : ImportEnv) (requestedBy : String) (db : Db) (vi : VideoTables)
    (runs : JobRuns String Json) {es : List (RunEvent BodyEvent)} {s : RunningJob Body}
    (hnew : runs env.jobRunId = none)
    (hrun : Trace ((code env).Step env.jobRunId requestedBy) (startImport env db vi runs)
      es s) : ImportLedger env requestedBy es s := by
  obtain ⟨hvalid, hrow⟩ := run_row (fresh_start hnew) hrun
  have hsub : ∀ pages, pages <+: s.body.finished →
      (pages.flatMap FinishedPage.commits).Sublist s.body.committed := by
    intro pages hpart
    rw [committed_eq]
    exact (hpart.sublist.flatMap _).trans (List.sublist_append_left _ _)
  refine ⟨hrow, hvalid.finished, ?_, ⟨(uncounted_page hvalid.toCovered).1, hvalid.page⟩,
    ?_, ?_, ?_, ?_⟩
  · intro pages hpart
    exact ⟨scannedRows_summaryOf,
      counted_summaryOf fun c hc => hvalid.exact c ((hsub pages hpart).subset hc),
      ((hsub pages hpart).flatMap _).trans hvalid.feed⟩
  · intro limit hlimit hnonneg
    rw [rows_committed hvalid]
    have hbound := hvalid.limit limit hlimit hnonneg
    have hhand := (uncounted_page hvalid.toCovered).2
    omega
  · intro status hended
    have hturn : s.body.turn = .close status := (hrow.ended status hended).1
    exact ⟨uncounted_of_turn hvalid hturn, endsFor_of_turn hrun hvalid hturn⟩
  · intro row hstored hfinished herror
    obtain ⟨hturn, htotals⟩ := hrow.finished row hstored hfinished herror
    exact ⟨uncounted_of_turn hvalid hturn, htotals, endsFor_of_turn hrun hvalid hturn⟩
  · intro error recorded hfailed
    rcases failed_by hrun (.inr ⟨recorded, hfailed⟩) with ⟨-, h | ⟨_, h⟩⟩ | hmay | hinsert
    -- a run does not begin as failed
    · cases h
    · cases h
    · have hmay : s.body.turn.MayFail error := hmay
      unfold Turn.MayFail at hmay
      split at hmay
      · rename_i error' hturn
        exact .inl (hvalid.failing error (hmay ▸ failing_of_turn hturn))
      · rename_i status hturn
        exact .inr (.inl ⟨status, closing_of_turn hturn⟩)
      · exact hmay.elim
      · exact hmay.elim
    · exact .inr (.inr hinsert)

/-! ## Undisturbed runs -/

section Undisturbed

variable {st st' : ImportState} {page rows : List LegacyVideoIndexRow} {status : String}
  {fuel : ℕ}

/-- Where a run is that nobody disturbs. -/
structure At (s : RunningJob Body) (vi : VideoTables) (page : List LegacyVideoIndexRow)
    (st : ImportState) (next : Next) : Prop where
  running : s.progress = .running
  run : s.body.run = st
  vi : s.body.vi = vi
  page : s.body.page = page
  next : s.body.next = next

abbrev Leads (env : ImportEnv) (requestedBy : String) (s s' : RunningJob Body) : Prop :=
  (code env).Leads env.jobRunId requestedBy s s'

/-- A step of the body. -/
theorem worked_leads (hrunning : s.progress = .running) (hturn : s.body.turn = .work)
    (hstep : BodyStep env s.body e b') :
    ∃ s', Leads env requestedBy s s' ∧ At s' b'.vi b'.page b'.run b'.next :=
  ⟨{ s with body := b' }, .single (.worked hrunning hturn hstep), hrunning, rfl, rfl, rfl, rfl⟩

theorem turn_looking (h : b.next = .looking) : b.turn = .work := by
  unfold Body.turn
  rw [h]

theorem turn_batching (h : b.next = .batching) : b.turn = .work := by
  unfold Body.turn
  rw [h]

theorem turn_importing {left : List LegacyVideoIndexRow} (h : b.next = .importing left) :
    b.turn = .work := by
  unfold Body.turn
  rw [h]

theorem committed_transact {α : Type} {txn : MediaTxn .none α} {a : α} {db db' : Db}
    (h : env.transact rows txn db = .ok (a, db')) :
    ∃ events, Committed 0 txn db a events db' := by
  obtain ⟨-, seq, l, failures, hperform, rfl⟩ := transact_eq_ok.mp h
  exact ⟨l.pend, seq, l, failures, hperform, rfl, rfl⟩

/-- Where the fallback leaves a run. -/
def behindRows (errorText : SqlError → String) : Option ImportError → Next
  | none => .importing []
  | some error => .failing (error.text errorText)

theorem importRows_leads {r : Option ImportError} (h : importRows env rows st = (st', r))
    (hat : At s vi page st (.importing rows)) :
    ∃ s' st'', Leads env requestedBy s s' ∧ At s' vi page st'' (behindRows env.errorText r) ∧
      (r = none → st'' = st') := by
  induction rows generalizing s st with
  | nil =>
      cases h
      exact ⟨s, _, .refl s, hat, fun _ => rfl⟩
  | cons row rows ih =>
      simp only [importRows] at h
      obtain ⟨running, rfl, rfl, rfl, hnext⟩ := hat
      have hwork := turn_importing hnext
      cases hone : env.importOneRow row s.body.run.db with
      | ok out =>
          obtain ⟨imported, db⟩ := out
          rw [hone] at h
          obtain ⟨events, htxn⟩ := committed_transact hone
          obtain ⟨s₁, hfirst, hat₁⟩ := worked_leads running hwork (.rowCommitted hnext htxn)
          obtain ⟨s', st'', hleads, hrest⟩ := ih h hat₁
          exact ⟨s', st'', hfirst.trans hleads, hrest⟩
      | error e =>
          rw [hone] at h
          dsimp only at h
          cases hrec : s.body.run.db.failures.recordImport env.jobRunId row.videoId
              "import_error" (env.errorText e) with
          | error e' =>
              rw [hrec] at h
              cases h
              obtain ⟨s', hleads, hat'⟩ :=
                worked_leads running hwork (.rowFailed (env.errorText e') 0 hnext)
              exact ⟨s', _, hleads, hat', fun h => by cases h⟩
          | ok failures =>
              rw [hrec] at h
              dsimp only at h
              obtain ⟨s₁, hfirst, hat₁⟩ := worked_leads running hwork
                (.rowRecorded (env.errorText e) (env.drawn [row]) hnext hrec)
              unfold afterFailure at hat₁
              split_ifs at h hat₁ with hmany
              · cases h
                exact ⟨s₁, _, hfirst, hat₁, fun h => by cases h⟩
              · obtain ⟨s', st'', hleads, hrest⟩ := ih h hat₁
                exact ⟨s', st'', hfirst.trans hleads, hrest⟩

theorem importBatch_leads {r : Option ImportError} (h : importBatch env page st = (st', r))
    (hat : At s vi page st .batching) :
    ∃ s' st'', Leads env requestedBy s s' ∧ At s' vi page st'' (behindRows env.errorText r) ∧
      (r = none → st'' = st') := by
  unfold importBatch at h
  obtain ⟨running, rfl, rfl, rfl, hnext⟩ := hat
  have hwork := turn_batching hnext
  cases hpage : env.importPage s.body.page s.body.run.db with
  | ok out =>
      obtain ⟨imported, db⟩ := out
      rw [hpage] at h
      cases h
      obtain ⟨events, htxn⟩ := committed_transact hpage
      obtain ⟨s', hleads, hat'⟩ := worked_leads running hwork (.batchCommitted hnext htxn)
      exact ⟨s', _, hleads, hat', fun _ => rfl⟩
  | error e =>
      rw [hpage] at h
      obtain ⟨s₁, hfirst, hat₁⟩ := worked_leads running hwork
        (.batchRolledBack (env.drawn s.body.page) hnext)
      obtain ⟨s', st'', hleads, hrest⟩ := importRows_leads h hat₁
      exact ⟨s', st'', hfirst.trans hleads, hrest⟩

/-- How a run ends: its row is closed with the status, or failed with the error. -/
def EndsAs (env : ImportEnv) (s : RunningJob Body) : Except ImportError String → Prop
  | .ok status => s.progress = .ended status
  | .error error => s.progress = .failed (error.text env.errorText) true

theorem At.ends (h : At s vi page st (.closing status)) :
    ∃ s', Leads env requestedBy s s' ∧ EndsAs env s' (.ok status) := by
  have hturn : s.body.turn = .close status := by
    unfold Body.turn
    rw [h.next]
  exact ⟨_, .single (.completed h.running hturn), rfl⟩

theorem fails_leads {error : ImportError} (hrunning : s.progress = .running)
    (hnext : s.body.next = .failing (error.text env.errorText)) :
    ∃ s', Leads env requestedBy s s' ∧ EndsAs env s' (.error error) := by
  have hturn : s.body.turn = .fail (error.text env.errorText) := by
    unfold Body.turn
    rw [hnext]
  have hgives : Leads env requestedBy s { s with progress := .failing _ } :=
    .single (.gaveUp hrunning hturn)
  exact ⟨_, hgives.trans (.single (.markedFailed true rfl)), rfl⟩

/-- One page, with its flush. -/
theorem importStep_leads (hat : At s vi page st .looking) :
    (∀ st', importStep env vi st = .inl st' →
      ∃ s' page', Leads env requestedBy s s' ∧ At s' vi page' st' .looking) ∧
    ∀ st' r, importStep env vi st = .inr (st', r) →
      ∃ s', Leads env requestedBy s s' ∧ EndsAs env s' r := by
  obtain ⟨running, rfl, rfl, rfl, hnext⟩ := hat
  have hwork := turn_looking hnext
  -- a round that ends well goes on to the closing update
  have hcloses : ∀ {e : BodyEvent} {status : String},
      BodyStep env s.body e { s.body with next := .closing status } →
      ∃ s', Leads env requestedBy s s' ∧ EndsAs env s' (.ok status) := by
    intro e status hstep
    obtain ⟨s₁, hfirst, hat₁⟩ := worked_leads running hwork hstep
    obtain ⟨s', hleads, hended⟩ := hat₁.ends
    exact ⟨s', hfirst.trans hleads, hended⟩
  unfold importStep
  split_ifs with hcancel hlimit
  · refine ⟨nofun, fun st' r h => ?_⟩
    cases h
    exact hcloses (.cancelled hnext)
  · refine ⟨nofun, fun st' r h => ?_⟩
    cases h
    exact hcloses (.limitReached hnext hlimit)
  · cases hfetch : fetchMissingLegacyRowsAfter s.body.run.after (s.body.run.pageLimit env)
        s.body.vi s.body.run.db.tables with
    | error e =>
        refine ⟨nofun, fun st' r h => ?_⟩
        cases h
        obtain ⟨s₁, hfirst, hat₁⟩ :=
          worked_leads running hwork (.fetchFailed (env.errorText e) hnext hlimit)
        obtain ⟨s', hleads, hended⟩ :
            ∃ s', Leads env requestedBy s₁ s' ∧ EndsAs env s' (.error (.postgres e)) :=
          fails_leads hat₁.running hat₁.next
        exact ⟨s', hfirst.trans hleads, hended⟩
    | ok rows =>
        cases rows with
        | nil =>
            refine ⟨nofun, fun st' r h => ?_⟩
            cases h
            exact hcloses (.exhausted hnext hlimit hfetch)
        | cons row rows =>
            obtain ⟨s₁, hfirst, hat₁⟩ := worked_leads running hwork (.page hnext hlimit hfetch)
            dsimp only
            cases hbatch : importBatch env (row :: rows) (s.body.run.fetched (row :: rows)) with
            | mk st₂ r₂ =>
                obtain ⟨s₂, st₃, hsecond, hat₂, hsame⟩ := importBatch_leads hbatch hat₁
                cases r₂ with
                | some error =>
                    refine ⟨nofun, fun st' r h => ?_⟩
                    cases h
                    obtain ⟨s', hleads, hended⟩ := fails_leads hat₂.running hat₂.next
                    exact ⟨s', (hfirst.trans hsecond).trans hleads, hended⟩
                | none =>
                    obtain rfl := hsame rfl
                    refine ⟨fun st' h => ?_, nofun⟩
                    obtain rfl := Sum.inl.inj h
                    obtain ⟨running₂, rfl, hvi₂, hpage₂, hnext₂⟩ := hat₂
                    obtain ⟨s₃, hthird, hat₃⟩ :=
                      worked_leads running₂ (turn_importing hnext₂) (.pageDone hnext₂)
                    have hturn : s₃.body.turn = .report := by
                      unfold Body.turn
                      rw [hat₃.next]
                    have hflush : Leads env requestedBy s₃ _ :=
                      .single (.flushed true hat₃.running hturn)
                    refine ⟨_, _, ((hfirst.trans hsecond).trans hthird).trans hflush,
                      hat₃.running, ?_, hat₃.vi.trans hvi₂, rfl, rfl⟩
                    rw [← hpage₂]
                    exact hat₃.run

theorem loop_leads {r : ImportResult} (h : iterate (importStep env vi) fuel st = some r)
    (hat : At s vi page st .looking) :
    ∃ s', Leads env requestedBy s s' ∧ EndsAs env s' r.2 := by
  induction fuel generalizing s st page with
  | zero => cases h
  | succ fuel ih =>
      obtain ⟨hgoes, hstops⟩ := importStep_leads hat
      cases hstep : importStep env vi st with
      | inl st₁ =>
          rw [iterate_next hstep] at h
          obtain ⟨s₁, page₁, hleads, hat₁⟩ := hgoes st₁ hstep
          obtain ⟨s', hleads', hended⟩ := ih h hat₁
          exact ⟨s', hleads.trans hleads', hended⟩
      | inr r' =>
          rw [iterate_stop hstep] at h
          obtain rfl := Option.some.inj h
          exact hstops _ _ hstep

/-- **A run of `import_current_video_index`** that nobody disturbs is a run of the
system. -/
theorem importCurrentVideoIndex_leads {r : ImportResult}
    (h : importCurrentVideoIndex env vi db fuel = some r) :
    ∃ s', Leads env requestedBy (startImport env db vi runs) s' ∧ EndsAs env s' r.2 := by
  obtain ⟨s₁, hinsert, hat⟩ : ∃ s₁, Leads env requestedBy (startImport env db vi runs) s₁ ∧
      At s₁ vi [] (importInit env db) (startNext env) :=
    ⟨_, .single (.inserted rfl), rfl, rfl, rfl, rfl, rfl⟩
  have hloop : startNext env = .looking → iterate (importStep env vi) fuel
      (importInit env db) = some r →
      ∃ s', Leads env requestedBy (startImport env db vi runs) s' ∧ EndsAs env s' r.2 := by
    intro hlooking h
    rw [hlooking] at hat
    obtain ⟨s', hleads, hended⟩ := loop_leads h hat
    exact ⟨s', hinsert.trans hleads, hended⟩
  unfold importCurrentVideoIndex at h
  unfold startNext at hloop hat
  split at h
  · rename_i limit hlimit
    rw [hlimit] at hloop hat
    dsimp only at hloop hat
    split_ifs at h hloop hat with hneg
    · obtain rfl := Option.some.inj h
      obtain ⟨s', hleads, hended⟩ := fails_leads hat.running hat.next
      exact ⟨s', hinsert.trans hleads, hended⟩
    · exact hloop rfl h
  · rename_i hlimit
    rw [hlimit] at hloop
    exact hloop rfl h

end Undisturbed

/-- An index of three rows, of which one is refused and one has no key. -/
theorem import_ledger_refused : ∃ s : RunningJob Body,
    s.progress = .ended "succeeded_with_failures" ∧ s.body.uncounted = [] ∧
    (∃ c ∈ s.body.committed, c.failures "yral-sfw" ≠ 0) ∧
    ∃ row, s.runs "run" = some row ∧ row.status = "succeeded_with_failures" ∧
      row.totals = some (summaryTotals (summaryOf "run" s.body.finished)) := by
  have hstatus : (importCurrentVideoIndex refuseB threeRows {} 3).map (fun r => r.2.toOption) =
      some (some "succeeded_with_failures") := by decide +kernel
  obtain ⟨⟨st, r⟩, hrun, hr⟩ := Option.map_eq_some_iff.mp hstatus
  obtain ⟨s, ⟨es, htrace⟩, hends⟩ := importCurrentVideoIndex_leads hrun
  have hledger :=
    import_ledger refuseB "media_imports_api" {} threeRows (fun _ => none) rfl htrace
  have hended : s.progress = .ended "succeeded_with_failures" := by
    cases r with
    | error e => cases hr
    | ok status =>
        obtain rfl := Option.some.inj hr
        exact hends
  obtain ⟨hnone, hwhy⟩ := hledger.status _ hended
  obtain ⟨-, hrow⟩ := hledger.row.ended _ hended
  refine ⟨s, hended, hnone, ?_, _, hrow, rfl, rfl⟩
  rcases hwhy with ⟨h, -⟩ | ⟨h, -⟩ | ⟨-, hfailed⟩
  · exact absurd h (by decide)
  · exact absurd h (by decide)
  · exact hfailed

end VideoStorage.Jobs.MediaImports
