import VideoStorage.Foundation.Json
import VideoStorage.Foundation.Ledger
import VideoStorage.MediaIndex.JobRuns

/-!
# The rows of `media_job_runs`

A run of `media_phash` or of the legacy import inserts a row as `running`, flushes
its totals into it behind each page and closes it; an error it records as `failed`,
best effort. Whatever is refused on the way and wherever the run is killed, the row
is a record of its work (`simulates_trace`): its totals are those of a first part of
what the run committed, and never go back (`run_row`).
-/

namespace VideoStorage.Jobs

open Foundation MediaIndex

/-- Here `totals` is the JSON of a summary. -/
def updateJobRunTotals (runs : JobRuns String Json) (jobRunId : String) (totals : Json) :
    JobRuns String Json :=
  runs.modify jobRunId fun row => { row with totals := some totals }

/-! ## A run and its row -/

/-- The code of a job between its statements on `media_job_runs`. -/
structure JobCode (B E : Type) where
  jobKind : String
  turn : B → Turn String String
  step : B → E → B → Prop
  reported : B → B
  summaryTotals : B → Json

structure RunningJob (B : Type) where
  body : B
  runs : JobRuns String Json
  progress : Progress String String := .starting

inductive RunEvent (E : Type)
  | own (e : JobEvent E String String)
  /-- Other runs, on rows of their own. -/
  | others

section Run

variable {B E C : Type}

inductive JobCode.Step (code : JobCode B E) (jobRunId requestedBy : String)
    (s : RunningJob B) : RunEvent E → RunningJob B → Prop
  | inserted (h : s.progress = .starting) :
      code.Step jobRunId requestedBy s (.own .opened)
        { s with
          runs := s.runs.insertJobRun jobRunId code.jobKind requestedBy
          progress := .running }
  /-- The `?` behind the insert. -/
  | notInserted (e : String) (made : Bool) (h : s.progress = .starting) :
      code.Step jobRunId requestedBy s (.own (.notOpened e made))
        { s with
          runs := if made then s.runs.insertJobRun jobRunId code.jobKind requestedBy
            else s.runs
          progress := .failed e false }
  | worked {e : E} {b : B} (h : s.progress = .running) (hturn : code.turn s.body = .work)
      (hstep : code.step s.body e b) :
      code.Step jobRunId requestedBy s (.own (.worked e)) { s with body := b }
  /-- The flush of the totals; its result is dropped. -/
  | flushed (made : Bool) (h : s.progress = .running) (hturn : code.turn s.body = .report) :
      code.Step jobRunId requestedBy s (.own (.reported made))
        { s with
          body := code.reported s.body
          runs := if made then
            updateJobRunTotals s.runs jobRunId (code.summaryTotals s.body) else s.runs }
  | completed {status : String} (h : s.progress = .running)
      (hturn : code.turn s.body = .close status) :
      code.Step jobRunId requestedBy s (.own (.closed status))
        { s with
          runs := s.runs.completeJobRun jobRunId status (code.summaryTotals s.body)
          progress := .ended status }
  /-- The `?` behind `complete_job_run`. -/
  | notCompleted {status : String} (e : String) (made : Bool) (h : s.progress = .running)
      (hturn : code.turn s.body = .close status) :
      code.Step jobRunId requestedBy s (.own (.notClosed status e made))
        { s with
          runs := if made then
            s.runs.completeJobRun jobRunId status (code.summaryTotals s.body) else s.runs
          progress := .failing e }
  | gaveUp {e : String} (h : s.progress = .running) (hturn : code.turn s.body = .fail e) :
      code.Step jobRunId requestedBy s (.own (.gaveUp e)) { s with progress := .failing e }
  /-- `mark_job_run_failed`; its result is dropped. -/
  | markedFailed {e : String} (made : Bool) (h : s.progress = .failing e) :
      code.Step jobRunId requestedBy s (.own (.markedFailed made))
        { s with
          runs := if made then s.runs.markJobRunFailed jobRunId e else s.runs
          progress := .failed e made }
  | killed : code.Step jobRunId requestedBy s (.own .stopped) { s with progress := .stopped }
  | others {runs : JobRuns String Json} (h : runs jobRunId = s.runs jobRunId) :
      code.Step jobRunId requestedBy s .others { s with runs := runs }

/-- What the totals of a job count: the work it has committed, as long as its state is
valid. -/
structure Accounts (code : JobCode B E) (C : Type) where
  work : B → List C
  tally : List C → Json
  Valid : B → Prop
  extends_work : ∀ b e b', code.turn b = .work → code.step b e b' → work b <+: work b'
  work_reported : ∀ b, work (code.reported b) = work b
  valid_step : ∀ b e b', Valid b → code.turn b = .work → code.step b e b' → Valid b'
  valid_reported : ∀ b, Valid b → code.turn b = .report → Valid (code.reported b)
  /-- Wherever the totals are written. -/
  exact : ∀ b, Valid b → (code.turn b = .report ∨ ∃ status, code.turn b = .close status) →
    code.summaryTotals b = tally (work b)

variable {code : JobCode B E} (A : Accounts code C) {jobRunId requestedBy : String}

def Accounts.system : JobSystem B E C String String where
  turn := code.turn
  work := A.work
  step := code.step
  reported := code.reported
  extends_work := A.extends_work
  work_reported := A.work_reported

def statusOf : Standing String String → String
  | .opened => "running"
  | .closed status => status
  | .failed _ => "failed"

def errorOf : Standing String String → Option String
  | .opened | .closed _ => none
  | .failed e => some e

def isFinished : Standing String String → Bool
  | .opened => false
  | .closed _ | .failed _ => true

/-- The row for a record. -/
def Accounts.row (requestedBy : String) (r : Record C String String) : JobRun Json where
  jobKind := code.jobKind
  status := statusOf r.standing
  requestedBy := requestedBy
  finished := isFinished r.standing
  totals := r.shown.map A.tally
  errorMessage := errorOf r.standing

/-- The table has the row of the job's record. -/
structure Accounts.Matches (jobRunId requestedBy : String) (s : RunningJob B)
    (j : Job B C String String) : Prop where
  body : s.body = j.body
  progress : s.progress = j.progress
  row : s.runs jobRunId = j.record.map (A.row requestedBy)
  valid : A.Valid s.body

variable {A} {s s' : RunningJob B} {j : Job B C String String} {e : RunEvent E}
  {es : List (RunEvent E)}

theorem modify_row {runs : JobRuns String Json} {r : Option (Record C String String)}
    {f : Record C String String → Record C String String} {g : JobRun Json → JobRun Json}
    (hrow : runs jobRunId = r.map (A.row requestedBy))
    (hfg : ∀ r, A.row requestedBy (f r) = g (A.row requestedBy r)) :
    runs.modify jobRunId g jobRunId = (r.map f).map (A.row requestedBy) := by
  rw [JobRuns.modify_self, hrow, Option.map_map, Option.map_map]
  congr 1
  funext r
  exact (hfg r).symm

theorem modify_written {made : Bool} {runs : JobRuns String Json}
    {r : Option (Record C String String)}
    {f : Record C String String → Record C String String} {g : JobRun Json → JobRun Json}
    (hrow : runs jobRunId = r.map (A.row requestedBy))
    (hfg : ∀ r, A.row requestedBy (f r) = g (A.row requestedBy r)) :
    (if made then runs.modify jobRunId g else runs) jobRunId =
      (written made f r).map (A.row requestedBy) := by
  unfold written
  split_ifs
  · exact modify_row hrow hfg
  · exact hrow

/-- The step lemma: each step is one of the job with its record, or leaves both. -/
theorem simulates (h : A.Matches jobRunId requestedBy s j)
    (hstep : code.Step jobRunId requestedBy s e s') :
    ∃ j' es', Trace A.system.Step j es' j' ∧ A.Matches jobRunId requestedBy s' j' := by
  obtain ⟨body, record, progress⟩ := j
  obtain ⟨rfl, rfl, hrow, hvalid⟩ := h
  cases hstep with
  | inserted h =>
      exact ⟨_, _, .single (.opened h), rfl, rfl, Function.update_self .., hvalid⟩
  | notInserted e made h =>
      refine ⟨_, _, .single (.notOpened e made h), rfl, rfl, ?_, hvalid⟩
      dsimp only
      split_ifs
      · exact Function.update_self ..
      · exact hrow
  | worked h hturn hstep =>
      exact ⟨_, _, .single (.worked h hturn hstep), rfl, rfl, hrow,
        A.valid_step _ _ _ hvalid hturn hstep⟩
  | flushed made h hturn =>
      refine ⟨_, _, .single (.reported made h hturn), rfl, rfl, ?_,
        A.valid_reported _ hvalid hturn⟩
      have htotals := A.exact _ hvalid (.inl hturn)
      exact modify_written hrow fun r => by rw [htotals]; rfl
  | completed h hturn =>
      refine ⟨_, _, .single (.closed h hturn), rfl, rfl, ?_, hvalid⟩
      have htotals := A.exact _ hvalid (.inr ⟨_, hturn⟩)
      exact modify_row hrow fun r => by rw [htotals]; rfl
  | notCompleted e made h hturn =>
      refine ⟨_, _, .single (.notClosed e made h hturn), rfl, rfl, ?_, hvalid⟩
      have htotals := A.exact _ hvalid (.inr ⟨_, hturn⟩)
      exact modify_written hrow fun r => by rw [htotals]; rfl
  | gaveUp h hturn => exact ⟨_, _, .single (.gaveUp h hturn), rfl, rfl, hrow, hvalid⟩
  | markedFailed made h =>
      refine ⟨_, _, .single (.markedFailed made h), rfl, rfl, ?_, hvalid⟩
      exact modify_written hrow fun r => rfl
  | killed => exact ⟨_, _, .single .stopped, rfl, rfl, hrow, hvalid⟩
  | others h => exact ⟨_, [], .nil _, rfl, rfl, h.trans hrow, hvalid⟩

theorem simulates_trace (h : A.Matches jobRunId requestedBy s j)
    (hrun : Trace (code.Step jobRunId requestedBy) s es s') :
    ∃ j' es', Trace A.system.Step j es' j' ∧ A.Matches jobRunId requestedBy s' j' := by
  induction hrun generalizing j with
  | nil s => exact ⟨j, [], .nil j, h⟩
  | cons hstep _ ih =>
      obtain ⟨j₁, es₁, hrun₁, h₁⟩ := simulates h hstep
      obtain ⟨j', es', hrun', h'⟩ := ih h₁
      exact ⟨j', es₁ ++ es', hrun₁.append hrun', h'⟩

/-! ## What the row tells -/

/-- A run that is about to insert its row. -/
structure Accounts.Fresh (A : Accounts code C) (jobRunId : String) (s : RunningJob B) :
    Prop where
  starting : s.progress = .starting
  noRow : s.runs jobRunId = none
  valid : A.Valid s.body

structure Accounts.RowTells (A : Accounts code C) (jobRunId requestedBy : String)
    (s : RunningJob B) : Prop where
  /-- The totals are those of a first part of the work. -/
  totals : ∀ row t, s.runs jobRunId = some row → row.totals = some t →
    ∃ work, work <+: A.work s.body ∧ t = A.tally work
  /-- A row that is finished without an error has the totals of the whole work, and
  nothing is left to do. -/
  finished : ∀ row, s.runs jobRunId = some row → row.finished = true →
    row.errorMessage = none → code.turn s.body = .close row.status ∧
      row.totals = some (A.tally (A.work s.body))
  /-- While the run goes on the row is `running`. -/
  running : s.progress = .running →
    ∃ row, s.runs jobRunId = some row ∧ row.status = "running" ∧ row.finished = false
  ended : ∀ status, s.progress = .ended status →
    code.turn s.body = .close status ∧ s.runs jobRunId = some {
      jobKind := code.jobKind
      status := status
      requestedBy := requestedBy
      finished := true
      totals := some (A.tally (A.work s.body)) }
  failed : ∀ e, s.progress = .failed e true → (code.turn s.body).MayFail e ∧
    ∃ row, s.runs jobRunId = some row ∧ row.status = "failed" ∧ row.finished = true ∧
      row.errorMessage = some e

theorem rowTells (h : A.Matches jobRunId requestedBy s j) (hkept : A.system.Kept j) :
    A.RowTells jobRunId requestedBy s := by
  obtain ⟨body, record, progress⟩ := j
  obtain ⟨rfl, rfl, hrow, -⟩ := h
  have hrecord : ∀ row, s.runs jobRunId = some row →
      ∃ r, record = some r ∧ A.row requestedBy r = row := by
    intro row h
    exact Option.map_eq_some_iff.mp (hrow.symm.trans h)
  constructor
  · intro row t h ht
    obtain ⟨r, hr, rfl⟩ := hrecord row h
    obtain ⟨work, hwork, rfl⟩ := Option.map_eq_some_iff.mp ht
    exact ⟨work, hkept.shown work ⟨r, hr, hwork⟩, rfl⟩
  · intro row h hfinished herror
    obtain ⟨⟨standing, shown⟩, hr, rfl⟩ := hrecord row h
    cases standing with
    | opened => cases hfinished
    | failed e => cases herror
    | closed f =>
        obtain ⟨hturn, hshown⟩ := hkept.closed _ f hr rfl
        exact ⟨hturn, congrArg (Option.map A.tally) hshown⟩
  · intro hrunning
    obtain ⟨⟨standing, shown⟩, hr, rfl⟩ := hkept.fits.running hrunning
    exact ⟨_, hrow.trans (congrArg (Option.map _) hr), rfl, rfl⟩
  · intro status hended
    have hfits := hkept.fits
    unfold JobSystem.Fits at hfits
    rw [hended] at hfits
    obtain ⟨hturn, ⟨standing, shown⟩, hr, rfl⟩ := hfits
    obtain rfl := (hkept.closed _ status hr rfl).2
    exact ⟨hturn, hrow.trans (congrArg (Option.map _) hr)⟩
  · intro e hfailed
    have hfits := hkept.fits
    unfold JobSystem.Fits at hfits
    rw [hfailed] at hfits
    obtain ⟨⟨⟨standing, shown⟩, hr, rfl⟩, hfail⟩ := hfits
    exact ⟨hfail, _, hrow.trans (congrArg (Option.map _) hr), rfl, rfl, rfl⟩

theorem matches_fresh (h : A.Fresh jobRunId s) :
    A.Matches jobRunId requestedBy s ⟨s.body, none, s.progress⟩ :=
  ⟨rfl, rfl, h.noRow, h.valid⟩

/-- **The row of a run**, at any point of it. -/
theorem run_row (hfresh : A.Fresh jobRunId s)
    (hrun : Trace (code.Step jobRunId requestedBy) s es s') :
    A.Valid s'.body ∧ A.RowTells jobRunId requestedBy s' := by
  obtain ⟨j', es', hrun', h'⟩ := simulates_trace (matches_fresh hfresh) hrun
  exact ⟨h'.valid, rowTells h' (kept_trace hrun' (kept_start rfl hfresh.starting))⟩

/-- A run comes to this end by the event that leads to it. -/
theorem closed_by {status : String} {ev : E}
    (hevent : ∀ b e b', code.turn b = .work → code.step b e b' →
      code.turn b' = .close status → e = ev)
    (hreported : ∀ b, code.turn (code.reported b) ≠ .close status)
    (h : Trace (code.Step jobRunId requestedBy) s es s')
    (hclose : code.turn s'.body = .close status) :
    code.turn s.body = .close status ∨ .own (.worked ev) ∈ es := by
  induction h with
  | nil s => exact .inl hclose
  | cons hstep _ ih =>
      rcases ih hclose with hnext | hmem
      · cases hstep with
        | worked _ hturn hbody =>
            obtain rfl := hevent _ _ _ hturn hbody hnext
            exact .inr (.head _)
        | flushed made _ _ => exact absurd hnext (hreported _)
        | _ => exact .inl hnext
      · exact .inr (.tail _ hmem)

/-- The run has failed, or is about to record that it did. -/
def RunningJob.FailsWith (s : RunningJob B) (error : String) : Prop :=
  s.progress = .failing error ∨ ∃ recorded, s.progress = .failed error recorded

/-- The step lemma of a failure: it comes from the body, the closing update or the
insert, or was there before. -/
theorem failsWith_step {error : String} (hstep : code.Step jobRunId requestedBy s e s')
    (h : s'.FailsWith error) :
    s'.body = s.body ∧ (s.FailsWith error ∨ (code.turn s.body).MayFail error ∨
      ∃ made, e = .own (.notOpened error made)) := by
  cases hstep with
  | inserted hs => rcases h with h | ⟨_, h⟩ <;> cases h
  | notInserted e made hs =>
      obtain h | ⟨_, h⟩ := h <;> cases h
      exact ⟨rfl, .inr (.inr ⟨made, rfl⟩)⟩
  | worked hs | flushed _ hs => rcases h with h | ⟨_, h⟩ <;> cases hs.symm.trans h
  | completed hs hturn => rcases h with h | ⟨_, h⟩ <;> cases h
  | notCompleted e made hs hturn =>
      rw [hturn]
      exact ⟨rfl, .inr (.inl trivial)⟩
  | gaveUp hs hturn =>
      obtain h | ⟨_, h⟩ := h <;> cases h
      rw [hturn]
      exact ⟨rfl, .inr (.inl rfl)⟩
  | markedFailed made hs =>
      obtain h | ⟨_, h⟩ := h <;> cases h
      exact ⟨rfl, .inl (.inl hs)⟩
  | killed => rcases h with h | ⟨_, h⟩ <;> cases h
  | others hs => exact ⟨rfl, .inl h⟩

/-- **Why a run fails**: an error of its body, of its closing update, or of the
insert. -/
theorem failed_by {error : String} (h : Trace (code.Step jobRunId requestedBy) s es s')
    (hfailed : s'.FailsWith error) :
    s'.body = s.body ∧ s.FailsWith error ∨ (code.turn s'.body).MayFail error ∨
      ∃ made, .own (.notOpened error made) ∈ es := by
  induction h with
  | nil s => exact .inl ⟨rfl, hfailed⟩
  | cons hstep _ ih =>
      rcases ih hfailed with ⟨hbody, hfails⟩ | hmay | ⟨made, hmem⟩
      · obtain ⟨hsame, hfrom⟩ := failsWith_step hstep hfails
        rw [hbody, hsame]
        rcases hfrom with hbefore | hmay | ⟨made, rfl⟩
        · exact .inl ⟨rfl, hbefore⟩
        · exact .inr (.inl hmay)
        · exact .inr (.inr ⟨made, .head _⟩)
      · exact .inr (.inl hmay)
      · exact .inr (.inr ⟨made, .tail _ hmem⟩)

/-! ## Where a run can lead -/

abbrev JobCode.Leads (code : JobCode B E) (jobRunId requestedBy : String)
    (s s' : RunningJob B) : Prop :=
  ∃ es, Trace (code.Step jobRunId requestedBy) s es s'

namespace JobCode.Leads

variable {s₁ s₂ : RunningJob B}

theorem refl (s : RunningJob B) : code.Leads jobRunId requestedBy s s := ⟨[], .nil s⟩

theorem trans (h : code.Leads jobRunId requestedBy s s₁)
    (h' : code.Leads jobRunId requestedBy s₁ s₂) : code.Leads jobRunId requestedBy s s₂ := by
  obtain ⟨es, hrun⟩ := h
  obtain ⟨es', hrun'⟩ := h'
  exact ⟨es ++ es', hrun.append hrun'⟩

theorem single (h : code.Step jobRunId requestedBy s e s') :
    code.Leads jobRunId requestedBy s s' :=
  ⟨[e], .single h⟩

end JobCode.Leads

end Run

end VideoStorage.Jobs
