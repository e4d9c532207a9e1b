import VideoStorage.Jobs.JobRuns
import VideoStorage.Jobs.MediaPhashFailures
import Mathlib.Data.List.Flatten

/-!
# The ledger of a `media_phash` run

A run statement by statement: pages, downloads that finish in any order, one
transaction a row, and the flushes of the totals. Other writers come in between, a
statement may be refused or its answer lost, the token may be cancelled and the
process killed. The totals of the run's row are those of the first transactions that
the run has committed (`phash_ledger`).
-/

namespace VideoStorage.Jobs.MediaPhash

open Foundation MediaIndex

/-! ## The statements on `media_job_runs` -/

def summaryTotals (summary : PHashSummary) : Json :=
  .object [
    ("scanned_rows", .ofInt summary.scannedRows),
    ("hash_rows_upserted", .ofInt summary.hashRowsUpserted),
    ("hash_feed_events_appended", .ofInt summary.hashFeedEventsAppended),
    ("row_failures", .ofInt summary.rowFailures)]

/-! ## Commits -/

/-- A transaction of `persist_one` that was committed, with what it appended to the
feed. -/
structure Commit where
  row : MissingHashRow
  outcome : Option UpsertOutcome
  events : List (ℕ × FeedEventRow)

/-- A transaction on the database as it is, what it appends to the feed, and what it
leaves. -/
def Committed {α : Type} (now : ℤ) (txn : MediaTxn .none α) (db : Db) (out : α)
    (events : List (ℕ × FeedEventRow)) (db' : Db) : Prop :=
  ∃ seq l failures, performTxn now txn db = .ok (out, seq, l, failures) ∧
    events = l.pend ∧ db' = db.commit seq l failures

theorem Committed.eval {α : Type} {now : ℤ} {txn : MediaTxn .none α} {db db' : Db} {out : α}
    {events : List (ℕ × FeedEventRow)} (h : Committed now txn db out events db') :
    ∃ l : Loc (mediaIndex .none), Eval db.tables txn {} out l ∧ events = l.pend ∧
      db'.feed = db.feed ++ events := by
  obtain ⟨seq, l, failures, htxn, hevents, rfl⟩ := h
  exact ⟨l, perform_eval htxn, hevents, hevents ▸ rfl⟩

/-- The transaction of a row. -/
def Transacts (now : ℤ) (jobRunId : String) (result : Except (String × String) VideoHashResult)
    (db : Db) (c : Commit) (db' : Db) : Prop :=
  Committed now (persistOneTxn jobRunId c.row result) db c.outcome c.events db'

/-- It stored a hash. -/
def Commit.wrote (c : Commit) : Bool := c.outcome.any (·.isWrite)

def PHashSummary.commit (s : PHashSummary) (c : Commit) : PHashSummary :=
  { s with scannedRows := s.scannedRows + 1 }.add c.outcome

/-- The totals of these transactions. -/
def summaryOf (jobRunId : String) (commits : List Commit) : PHashSummary :=
  commits.foldl PHashSummary.commit { jobRunId := jobRunId }

/-! ## The body of a run -/

/-- Where `run_inner` is. -/
inductive Next
  | looking
  /-- Rows of the page that the stream has not handed out. -/
  | streaming (left : List MissingHashRow)
  | flushing
  | closing (status : String)
  | failing (error : String)

/-- `commits` are the transactions whose commit was acknowledged; `lost` is one whose
acknowledgement was not received. No step reads either. -/
structure Body where
  run : RunState
  next : Next := .looking
  commits : List Commit := []
  lost : Option Commit := none

inductive BodyEvent
  /-- `is_cancelled()` is true. -/
  | cancelled
  | limitReached
  | exhausted (now : ℤ)
  | page (now : ℤ)
  | fetchFailed (error : String)
  | persisted (now : ℤ) (result : Except (String × String) VideoHashResult)
  | persistFailed (error : String)
  | persistLost (now : ℤ) (result : Except (String × String) VideoHashResult)
      (error : String)
  | drained
  /-- Other writers. -/
  | others

/-- The query for the next page. -/
def fetchRows (env : RunEnv) (now : ℤ) (s : RunState) :
    Except SqlError (List MissingHashRow) :=
  videosMissingCanonicalPhash env.query now s.after (some (s.batchLimit env))
    s.db.tables s.db.failures

inductive BodyStep (env : RunEnv) (b : Body) : BodyEvent → Body → Prop
  | cancelled (h : b.next = .looking) :
      BodyStep env b .cancelled
        { b with next := .closing (terminalStatus true b.run.summary.rowFailures) }
  | limitReached (h : b.next = .looking) (hlimit : b.run.remaining env = some 0) :
      BodyStep env b .limitReached
        { b with next := .closing (terminalStatus false b.run.summary.rowFailures) }
  | exhausted (now : ℤ) (h : b.next = .looking) (hlimit : b.run.remaining env ≠ some 0)
      (hrows : fetchRows env now b.run = .ok []) :
      BodyStep env b (.exhausted now)
        { b with next := .closing (terminalStatus false b.run.summary.rowFailures) }
  | page (now : ℤ) {row : MissingHashRow} {rows : List MissingHashRow} (h : b.next = .looking)
      (hlimit : b.run.remaining env ≠ some 0)
      (hrows : fetchRows env now b.run = .ok (row :: rows)) :
      BodyStep env b (.page now)
        { b with run := b.run.fetched (row :: rows), next := .streaming (row :: rows) }
  | fetchFailed (error : String) (h : b.next = .looking)
      (hlimit : b.run.remaining env ≠ some 0) :
      BodyStep env b (.fetchFailed error) { b with next := .failing error }
  /-- The stream hands out a row, and the token is cancelled. -/
  | rowCancelled {row : MissingHashRow} {rows : List MissingHashRow}
      (hslots : env.concurrency ≠ 0) (h : b.next = .streaming (row :: rows)) :
      BodyStep env b .cancelled
        { b with next := .closing (terminalStatus true b.run.summary.rowFailures) }
  | persisted (now : ℤ) {result : Except (String × String) VideoHashResult}
      {pre post : List MissingHashRow} {c : Commit} {db : Db} (hslots : env.concurrency ≠ 0)
      (h : b.next = .streaming (pre ++ c.row :: post))
      (htxn : Transacts now env.jobRunId result b.run.db c db) :
      BodyStep env b (.persisted now result)
        { b with
          run := b.run.persisted c.row db (b.run.summary.commit c)
          next := .streaming (pre ++ post)
          commits := b.commits ++ [c] }
  /-- A statement is refused, or the transaction rolled back. -/
  | persistFailed (error : String) {row : MissingHashRow} {rows : List MissingHashRow}
      (hslots : env.concurrency ≠ 0) (h : b.next = .streaming (row :: rows)) :
      BodyStep env b (.persistFailed error) { b with next := .failing error }
  | persistLost (now : ℤ) {result : Except (String × String) VideoHashResult} (error : String)
      {pre post : List MissingHashRow} {c : Commit} {db : Db} (hslots : env.concurrency ≠ 0)
      (h : b.next = .streaming (pre ++ c.row :: post))
      (htxn : Transacts now env.jobRunId result b.run.db c db) :
      BodyStep env b (.persistLost now result error)
        { b with
          run := { b.run with db := db }
          next := .failing error
          lost := some c }
  | drained (h : b.next = .streaming []) :
      BodyStep env b .drained { b with next := .flushing }
  /-- Nobody takes an event out of the feed. -/
  | others (db : Db) (hfeed : b.run.db.feed <+: db.feed) :
      BodyStep env b .others { b with run := { b.run with db := db } }

def Body.turn (b : Body) : Turn String String :=
  match b.next with
  | .looking | .streaming _ => .work
  | .flushing => .report
  | .closing status => .close status
  | .failing error => .fail error

def code (env : RunEnv) : JobCode Body BodyEvent where
  jobKind := jobKind
  turn := Body.turn
  step := BodyStep env
  reported b := { b with next := .looking }
  summaryTotals b := summaryTotals b.run.summary

/-- `run`, from the insert on. -/
def startRun (env : RunEnv) (db : Db) (runs : JobRuns String Json) : RunningJob Body where
  body := { run := { db := db, summary := { jobRunId := env.jobRunId } } }
  runs := runs

/-! ## Its accounts -/

variable {env : RunEnv} {b b' : Body} {e : BodyEvent} {commits : List Commit} {c : Commit}

/-- A transaction appends the event of its hash, if it wrote one. -/
def Commit.Exact (c : Commit) : Prop :=
  if c.wrote then ∃ n vhr, c.events = [(n, (hashEvent c.row vhr).toRow)] else c.events = []

/-- All transactions that were committed. -/
def Body.committed (b : Body) : List Commit := b.commits ++ b.lost.toList

/-- What the code counts is what it has committed. -/
structure Body.Valid (env : RunEnv) (b : Body) : Prop where
  summary : b.run.summary = summaryOf env.jobRunId b.commits
  exact : ∀ c ∈ b.committed, c.Exact
  feed : (b.committed.flatMap Commit.events).Sublist b.run.db.feed
  /-- The answer to a commit is lost at the end of a run only. -/
  lost : b.lost.isSome → ∃ error, b.next = .failing error
  /-- A status is that of the failures so far. -/
  status : ∀ status, b.next = .closing status →
    ∃ cancelled, status = terminalStatus cancelled b.run.summary.rowFailures

theorem transacts_exact {now : ℤ} {jobRunId : String}
    {result : Except (String × String) VideoHashResult} {db db' : Db}
    (h : Transacts now jobRunId result db c db') :
    c.Exact ∧ db'.feed = db.feed ++ c.events := by
  obtain ⟨l, heval, hevents, hfeed⟩ := h.eval
  refine ⟨?_, hfeed⟩
  unfold Commit.Exact Commit.wrote
  cases result with
  | error failure =>
      obtain ⟨hout, rfl⟩ := persistOneTxn_runs_error heval
      rw [hout, hevents]
      exact if_neg Bool.false_ne_true ▸ rfl
  | ok vhr =>
      obtain ⟨outcome, l₁, u, hup, happ, hout⟩ := persistOneTxn_runs_ok heval
      have hpend : l₁.pend = [] := (eval_upsertHashRecordTxn hup).1.pend
      rw [hout, hevents, Option.any_some]
      rcases eval_appendIfWritten happ with ⟨hwrite, rfl⟩ | ⟨hwrite, -, n, hn⟩
      · rw [if_neg (by rw [hwrite]; exact Bool.false_ne_true)]
        exact hpend
      · rw [if_pos hwrite, hn, hpend]
        exact ⟨n, vhr, rfl⟩

theorem summaryOf_append :
    summaryOf env.jobRunId (commits ++ [c]) = (summaryOf env.jobRunId commits).commit c := by
  unfold summaryOf
  rw [List.foldl_append]
  rfl

theorem commits_step (h : BodyStep env b e b') : b.commits <+: b'.commits := by
  cases h with
  | persisted => exact List.prefix_append _ _
  | _ => exact List.prefix_refl _

theorem Body.Valid.not_lost (h : b.Valid env) (hturn : ∀ e, b.turn ≠ .fail e) :
    b.lost = none := by
  cases hlost : b.lost with
  | none => rfl
  | some c =>
      obtain ⟨error, herror⟩ := h.lost (by rw [hlost]; rfl)
      exact absurd (by unfold Body.turn; rw [herror]) (hturn error)

/-- One more transaction, its commit acknowledged or not. -/
theorem Body.Valid.transacts (h : b.Valid env) (hnone : b.lost = none) {now : ℤ}
    {result : Except (String × String) VideoHashResult} {db : Db}
    (htxn : Transacts now env.jobRunId result b.run.db c db) :
    (∀ c' ∈ b.commits ++ [c], c'.Exact) ∧
      ((b.commits ++ [c]).flatMap Commit.events).Sublist db.feed := by
  obtain ⟨hexact, hfeed⟩ := transacts_exact htxn
  have hcommitted : b.committed = b.commits := by
    unfold Body.committed
    rw [hnone]
    exact List.append_nil _
  constructor
  · intro c' hc'
    rcases List.mem_append.mp hc' with hc' | hc'
    · exact h.exact c' (hcommitted ▸ hc')
    · exact List.mem_singleton.mp hc' ▸ hexact
  · rw [hfeed, List.flatMap_append, List.flatMap_singleton]
    exact (hcommitted ▸ h.feed).append (List.Sublist.refl _)

theorem valid_step (h : b.Valid env) (hturn : b.turn = .work) (hstep : BodyStep env b e b') :
    b'.Valid env := by
  have hnone : b.lost = none := h.not_lost fun e he => by
    rw [hturn] at he
    cases he
  have hlost : ∀ {p : Prop}, b.lost.isSome → p := fun hsome => by
    rw [hnone] at hsome
    cases hsome
  cases hstep with
  | cancelled _ | limitReached _ _ | exhausted _ _ _ _ | rowCancelled _ _ =>
      refine ⟨h.summary, h.exact, h.feed, hlost, ?_⟩
      rintro status ⟨⟩
      exact ⟨_, rfl⟩
  | page now _ _ _ => exact ⟨h.summary, h.exact, h.feed, hlost, nofun⟩
  | fetchFailed error _ _ => exact ⟨h.summary, h.exact, h.feed, hlost, nofun⟩
  | @persisted now _ _ _ c db _ _ htxn =>
      obtain ⟨hexact, hfeed⟩ := h.transacts hnone htxn
      have hcommitted : b.commits ++ [c] ++ b.lost.toList = b.commits ++ [c] := by
        rw [hnone]
        exact List.append_nil _
      refine ⟨?_, ?_, ?_, hlost, nofun⟩
      · rw [summaryOf_append, ← h.summary]
        rfl
      · unfold Body.committed
        rwa [hcommitted]
      · unfold Body.committed
        rwa [hcommitted]
  | persistFailed error _ _ => exact ⟨h.summary, h.exact, h.feed, hlost, nofun⟩
  | persistLost now error _ _ htxn =>
      obtain ⟨hexact, hfeed⟩ := h.transacts hnone htxn
      exact ⟨h.summary, hexact, hfeed, fun _ => ⟨_, rfl⟩, nofun⟩
  | drained _ => exact ⟨h.summary, h.exact, h.feed, hlost, nofun⟩
  | others db hfeed =>
      exact ⟨h.summary, h.exact, h.feed.trans hfeed.sublist, h.lost, h.status⟩

theorem valid_flushed (h : b.Valid env) (hturn : b.turn = .report) :
    Body.Valid env { b with next := .looking } := by
  refine ⟨h.summary, h.exact, h.feed, fun hlost => ?_, nofun⟩
  have hnone : b.lost = none := h.not_lost fun e he => by
    rw [hturn] at he
    cases he
  have hsome : b.lost.isSome := hlost
  rw [hnone] at hsome
  cases hsome

/-- The totals count the transactions whose commit was acknowledged. -/
def accounts (env : RunEnv) : Accounts (code env) Commit where
  work := Body.commits
  tally commits := summaryTotals (summaryOf env.jobRunId commits)
  Valid := Body.Valid env
  extends_work _ _ _ _ := commits_step
  work_reported _ := rfl
  valid_step _ _ _ := valid_step
  valid_reported _ := valid_flushed
  exact _ h _ := congrArg summaryTotals h.summary

/-! ## What they count -/

/-- What the totals of these transactions are. -/
structure Counted (commits : List Commit) (summary : PHashSummary) : Prop where
  scanned : summary.scannedRows = commits.length
  upserted : summary.hashRowsUpserted = commits.countP Commit.wrote
  appended : summary.hashFeedEventsAppended = (commits.flatMap Commit.events).length
  failures : summary.rowFailures = commits.countP (·.outcome.isNone)

theorem scannedRows_commit {s : PHashSummary} :
    (s.commit c).scannedRows = s.scannedRows + 1 := by
  obtain ⟨row, outcome, events⟩ := c
  rcases outcome with _ | _ | _ | _ <;> rfl

theorem hashRowsUpserted_commit {s : PHashSummary} :
    (s.commit c).hashRowsUpserted = s.hashRowsUpserted + if c.wrote then 1 else 0 := by
  obtain ⟨row, outcome, events⟩ := c
  rcases outcome with _ | _ | _ | _ <;> rfl

theorem hashFeedEventsAppended_commit {s : PHashSummary} (hc : c.Exact) :
    (s.commit c).hashFeedEventsAppended = s.hashFeedEventsAppended + c.events.length := by
  have happend : (s.commit c).hashFeedEventsAppended =
      s.hashFeedEventsAppended + if c.wrote then 1 else 0 := by
    obtain ⟨row, outcome, events⟩ := c
    rcases outcome with _ | _ | _ | _ <;> rfl
  rw [happend]
  unfold Commit.Exact at hc
  split_ifs at hc ⊢
  · obtain ⟨n, vhr, hevents⟩ := hc
    rw [hevents]
    rfl
  · rw [hc]
    rfl

theorem rowFailures_commit {s : PHashSummary} :
    (s.commit c).rowFailures = s.rowFailures + if c.outcome.isNone then 1 else 0 := by
  obtain ⟨row, outcome, events⟩ := c
  rcases outcome with _ | _ | _ | _ <;> rfl

theorem counted_summaryOf (hexact : ∀ c ∈ commits, c.Exact) :
    Counted commits (summaryOf env.jobRunId commits) := by
  induction commits using List.reverseRecOn with
  | nil => exact ⟨rfl, rfl, rfl, rfl⟩
  | append_singleton commits c ih =>
      have hc : c.Exact := hexact c (List.mem_append_right _ (.head _))
      obtain ⟨hscanned, hupserted, happended, hfailures⟩ :=
        ih fun c' hc' => hexact c' (List.mem_append_left _ hc')
      rw [summaryOf_append]
      constructor
      · rw [scannedRows_commit, hscanned, List.length_append]
        rfl
      · rw [hashRowsUpserted_commit, hupserted, List.countP_append, List.countP_singleton]
      · rw [hashFeedEventsAppended_commit hc, happended, List.flatMap_append,
          List.flatMap_singleton, List.length_append]
      · rw [rowFailures_commit, hfailures, List.countP_append, List.countP_singleton]

/-! ## Runs -/

variable {requestedBy : String} {db : Db} {runs : JobRuns String Json} {s s' : RunningJob Body}
  {es : List (RunEvent BodyEvent)}

/-- The end of a run with this status: its token, or its transactions, are the reason. -/
def EndsFor (es : List (RunEvent BodyEvent)) (commits : List Commit) (status : String) : Prop :=
  (status = "cancelled" ∧ .own (.worked .cancelled) ∈ es) ∨
  (status = "succeeded" ∧ ∀ c ∈ commits, c.outcome.isSome) ∨
  (status = "succeeded_with_failures" ∧ ∃ c ∈ commits, c.outcome = none)

theorem closing_of_turn {status : String} (h : b.turn = .close status) :
    b.next = .closing status := by
  unfold Body.turn at h
  split at h <;> simp_all

theorem fresh_start (hnew : runs env.jobRunId = none) :
    (accounts env).Fresh env.jobRunId (startRun env db runs) where
  starting := rfl
  noRow := hnew
  valid := ⟨rfl, nofun, List.nil_sublist _, nofun, nofun⟩

/-- A run is closed as cancelled when its token said so. -/
theorem cancelled_of_closing (hturn : b.turn = .work) (hstep : BodyStep env b e b')
    (hclose : b'.turn = .close "cancelled") : e = .cancelled := by
  have hclosing := closing_of_turn hclose
  cases hstep with
  | cancelled | rowCancelled => rfl
  | limitReached | exhausted =>
      exact absurd (Next.closing.inj hclosing) (terminalStatus_ne _)
  | others db _ =>
      have hsame : b.turn = .close "cancelled" := hclose
      rw [hturn] at hsame
      cases hsame
  | _ => cases hclosing

/-- A run that closes its row has lost no answer to a commit. -/
theorem committed_of_turn {status : String} (hvalid : b.Valid env)
    (hturn : b.turn = .close status) : b.committed = b.commits := by
  unfold Body.committed
  cases hlost : b.lost with
  | none => exact List.append_nil _
  | some c =>
      obtain ⟨error, herror⟩ := hvalid.lost (by rw [hlost]; rfl)
      rw [closing_of_turn hturn] at herror
      cases herror

theorem endsFor_of_turn {status : String}
    (hrun : Trace ((code env).Step env.jobRunId requestedBy) (startRun env db runs) es s)
    (hvalid : s.body.Valid env) (hturn : s.body.turn = .close status) :
    EndsFor es s.body.committed status := by
  rw [committed_of_turn hvalid hturn]
  obtain ⟨cancelled, hstatus⟩ := hvalid.status status (closing_of_turn hturn)
  rw [hvalid.summary] at hstatus
  have hfailures : (summaryOf env.jobRunId s.body.commits).rowFailures =
      s.body.commits.countP (·.outcome.isNone) :=
    (counted_summaryOf fun c hc => hvalid.exact c (List.mem_append_left _ hc)).failures
  cases cancelled with
  | true =>
      refine .inl ⟨hstatus, ?_⟩
      rw [hstatus] at hturn
      have hlooking : ∀ b, (code env).turn ((code env).reported b) ≠ .close "cancelled" :=
        fun _ h => by cases h
      have hby := closed_by (fun _ _ _ => cancelled_of_closing) hlooking hrun hturn
      exact hby.resolve_left fun h => by cases h
  | false =>
      unfold terminalStatus runStatus at hstatus
      rw [if_neg Bool.false_ne_true, hfailures] at hstatus
      split_ifs at hstatus with hzero
      · refine .inr (.inl ⟨hstatus, fun c hc => ?_⟩)
        have hsome := List.countP_eq_zero.mp hzero c hc
        rwa [Option.isNone_iff_eq_none, ← ne_eq, ← Option.isSome_iff_ne_none] at hsome
      · refine .inr (.inr ⟨hstatus, ?_⟩)
        obtain ⟨c, hc, hnone⟩ := List.countP_pos_iff.mp (Nat.pos_of_ne_zero hzero)
        exact ⟨c, hc, Option.isNone_iff_eq_none.mp hnone⟩

section Undisturbed

variable {rows left : List MissingHashRow} {rs rs' : RunState} {status : String} {fuel : ℕ}

/-- Where a run is that nobody disturbs. -/
structure At (s : RunningJob Body) (rs : RunState) (next : Next) : Prop where
  running : s.progress = .running
  run : s.body.run = rs
  next : s.body.next = next

abbrev Leads (env : RunEnv) (requestedBy : String) (s s' : RunningJob Body) : Prop :=
  (code env).Leads env.jobRunId requestedBy s s'

/-- A step of the body. -/
theorem worked_leads (hrunning : s.progress = .running) (hturn : s.body.turn = .work)
    (hstep : BodyStep env s.body e b') :
    ∃ s', Leads env requestedBy s s' ∧ At s' b'.run b'.next :=
  ⟨{ s with body := b' }, .single (.worked hrunning hturn hstep), hrunning, rfl, rfl⟩

theorem turn_looking (h : b.next = .looking) : b.turn = .work := by
  unfold Body.turn
  rw [h]

theorem turn_streaming (h : b.next = .streaming left) : b.turn = .work := by
  unfold Body.turn
  rw [h]

/-- A row is persisted by its transaction. -/
theorem persistOne_transacts {now : ℤ} {jobRunId : String} {row : MissingHashRow}
    {result : Except (String × String) VideoHashResult} {summary : PHashSummary} {db db' : Db}
    {summary' : PHashSummary}
    (h : persistOne now jobRunId row result db
      { summary with scannedRows := summary.scannedRows + 1 } = .ok (db', summary')) :
    ∃ c, c.row = row ∧ Transacts now jobRunId result db c db' ∧
      summary' = summary.commit c := by
  unfold persistOne at h
  cases htxn : performTxn now (persistOneTxn jobRunId row result) db with
  | error e =>
      rw [htxn] at h
      cases h
  | ok r =>
      obtain ⟨outcome, seq, l, failures⟩ := r
      rw [htxn] at h
      cases h
      exact ⟨⟨row, outcome, l.pend⟩, rfl, ⟨seq, l, failures, htxn, rfl, rfl⟩, rfl⟩

theorem persistRows_leads (hslots : env.concurrency ≠ 0) {cancelled : Bool}
    (h : persistRows env rows rs = .ok (cancelled, rs')) (hat : At s rs (.streaming left))
    (hleft : left.Perm rows) :
    ∃ s', Leads env requestedBy s s' ∧ At s' rs' (if cancelled then
      .closing (terminalStatus true rs'.summary.rowFailures) else .flushing) := by
  induction rows generalizing s rs left with
  | nil =>
      cases h
      obtain rfl := hleft.eq_nil
      obtain ⟨running, rfl, hnext⟩ := hat
      exact worked_leads running (turn_streaming hnext) (.drained hnext)
  | cons row rows ih =>
      simp only [persistRows] at h
      split_ifs at h with hcancel
      · cases h
        cases left with
        | nil => exact absurd hleft.symm.eq_nil (List.cons_ne_nil _ _)
        | cons row' left =>
            obtain ⟨running, rfl, hnext⟩ := hat
            exact worked_leads running (turn_streaming hnext) (.rowCancelled hslots hnext)
      · cases hpersist : persistOne (env.clock rs.time) env.jobRunId row
            (hashRow env.deps row) rs.db
            { rs.summary with scannedRows := rs.summary.scannedRows + 1 } with
        | error e =>
            rw [hpersist] at h
            cases h
        | ok r =>
            obtain ⟨db, summary⟩ := r
            rw [hpersist] at h
            obtain ⟨c, rfl, htxn, rfl⟩ := persistOne_transacts hpersist
            obtain ⟨pre, post, rfl⟩ :=
              List.append_of_mem (hleft.mem_iff.mpr (.head rows))
            have hrest : (pre ++ post).Perm rows :=
              (List.perm_middle.symm.trans hleft).cons_inv
            obtain ⟨running, rfl, hnext⟩ := hat
            have hstep : BodyStep env s.body
                (.persisted (env.clock s.body.run.time) (hashRow env.deps c.row)) _ :=
              .persisted _ hslots hnext htxn
            obtain ⟨s₁, hfirst, hat₁⟩ := worked_leads running (turn_streaming hnext) hstep
            obtain ⟨s', hleads, hat'⟩ := ih h hat₁ hrest
            exact ⟨s', hfirst.trans hleads, hat'⟩

/-- The closing update. -/
theorem At.complete (h : At s rs (.closing status)) :
    Leads env requestedBy s { s with
      runs := s.runs.completeJobRun env.jobRunId status (summaryTotals rs.summary)
      progress := .ended status } := by
  have hturn : s.body.turn = .close status := by
    unfold Body.turn
    rw [h.next]
  obtain ⟨running, rfl, -⟩ := h
  exact .single (.completed running hturn)

/-- One round, with its flush. -/
theorem runStep_leads (hat : At s rs .looking) :
    (∀ rs', runStep env rs = .inl rs' →
      ∃ s', Leads env requestedBy s s' ∧ At s' rs' .looking) ∧
    ∀ status rs', runStep env rs = .inr (.ok (status, rs')) →
      ∃ s', Leads env requestedBy s s' ∧ At s' rs' (.closing status) := by
  have hwork := turn_looking hat.next
  unfold runStep
  by_cases hcancel : env.cancelled rs.time = true
  · rw [if_pos hcancel]
    refine ⟨nofun, fun status rs' h => ?_⟩
    cases h
    obtain ⟨running, rfl, hnext⟩ := hat
    exact worked_leads running hwork (.cancelled hnext)
  rw [if_neg hcancel]
  by_cases hlimit : rs.remaining env = some 0
  · rw [if_pos hlimit]
    refine ⟨nofun, fun status rs' h => ?_⟩
    cases h
    obtain ⟨running, rfl, hnext⟩ := hat
    exact worked_leads running hwork (.limitReached hnext hlimit)
  rw [if_neg hlimit]
  cases hfetch : fetchPage env rs with
  | error e => exact ⟨nofun, nofun⟩
  | ok rows =>
      cases rows with
      | nil =>
          refine ⟨nofun, fun status rs' h => ?_⟩
          cases h
          obtain ⟨running, rfl, hnext⟩ := hat
          exact worked_leads running hwork (.exhausted _ hnext hlimit hfetch)
      | cons row rows =>
          by_cases hslots : env.concurrency = 0
          · simp only [if_pos hslots]
            refine ⟨fun rs' h => ?_, nofun⟩
            obtain rfl := Sum.inl.inj h
            exact ⟨s, .refl s, hat⟩
          · simp only [if_neg hslots]
            obtain ⟨running, rfl, hnext⟩ := hat
            obtain ⟨s₁, hpage, hat₁⟩ : ∃ s₁, Leads env requestedBy s s₁ ∧ At s₁ _ _ :=
              worked_leads running hwork (.page _ hnext hlimit hfetch)
            have hperm := ((env.finished s.body.run.time).perm (row :: rows)).symm
            cases h : persistRows env ((env.finished s.body.run.time).apply (row :: rows))
                (s.body.run.fetched (row :: rows)) with
            | error e => exact ⟨nofun, nofun⟩
            | ok r =>
                obtain ⟨cancelled, rs₁⟩ := r
                obtain ⟨s', hleads, hat'⟩ :=
                  persistRows_leads hslots h hat₁ hperm
                cases cancelled with
                | true =>
                    refine ⟨nofun, fun status rs' h => ?_⟩
                    cases h
                    exact ⟨s', hpage.trans hleads, hat'⟩
                | false =>
                    refine ⟨fun rs' h => ?_, nofun⟩
                    obtain rfl := Sum.inl.inj h
                    have hturn : s'.body.turn = .report := by
                      unfold Body.turn
                      rw [hat'.next]
                      rfl
                    have hflush : Leads env requestedBy s' _ :=
                      
                      .single (.flushed true hat'.running hturn)
                    exact ⟨_, (hpage.trans hleads).trans hflush, hat'.running, hat'.run, rfl⟩

theorem loop_leads (h : iterate (runStep env) fuel rs = some (.ok (status, rs')))
    (hat : At s rs .looking) :
    ∃ s', Leads env requestedBy s s' ∧ s'.progress = .ended status ∧ s'.body.run = rs' := by
  induction fuel generalizing s rs with
  | zero => cases h
  | succ fuel ih =>
      obtain ⟨hgoes, hstops⟩ := runStep_leads hat
      cases hstep : runStep env rs with
      | inl rs₁ =>
          rw [iterate_next hstep] at h
          obtain ⟨s₁, hleads, hat₁⟩ := hgoes rs₁ hstep
          obtain ⟨s', hleads', hended⟩ := ih h hat₁
          exact ⟨s', hleads.trans hleads', hended⟩
      | inr r =>
          rw [iterate_stop hstep] at h
          obtain rfl := Option.some.inj h
          obtain ⟨s₁, hleads, hat₁⟩ := hstops status rs' hstep
          exact ⟨_, hleads.trans hat₁.complete, rfl, hat₁.run⟩

end Undisturbed

end VideoStorage.Jobs.MediaPhash
