import Mathlib.Logic.Function.Basic

/-!
# `media_job_runs`

The statements of the jobs on this table: a run inserts its row as `running`, updates
it on the way and closes it. What a run counts in its `totals` is its own, as is the
form of its id.
-/

namespace VideoStorage.MediaIndex

structure JobRun (T : Type) where
  jobKind : String
  status : String
  requestedBy : String
  /-- `finished_at` is set. -/
  finished : Bool := false
  /-- The last id of a page, which may be none. -/
  cursor : Option (Option String) := none
  totals : Option T := none
  errorMessage : Option String := none
  deriving DecidableEq

/-- By id. -/
abbrev JobRuns (Id T : Type) : Type := Id → Option (JobRun T)

namespace JobRuns

variable {Id T : Type} [DecidableEq Id] (runs : JobRuns Id T) (jobRunId : Id)

/-- `UPDATE … WHERE id = $1`. -/
def modify (f : JobRun T → JobRun T) : JobRuns Id T :=
  Function.update runs jobRunId ((runs jobRunId).map f)

def insertJobRun (jobKind requestedBy : String) : JobRuns Id T :=
  Function.update runs jobRunId (some {
    jobKind := jobKind
    status := "running"
    requestedBy := requestedBy })

def completeJobRun (status : String) (totals : T) : JobRuns Id T :=
  runs.modify jobRunId fun row => { row with
    status := status
    finished := true
    totals := some totals
    errorMessage := none }

def markJobRunFailed (error : String) : JobRuns Id T :=
  runs.modify jobRunId fun row => { row with
    status := "failed"
    finished := true
    errorMessage := some error }

variable {runs jobRunId} {f : JobRun T → JobRun T}

@[simp] theorem modify_self : runs.modify jobRunId f jobRunId = (runs jobRunId).map f :=
  Function.update_self ..

theorem modify_of_ne {id : Id} (h : id ≠ jobRunId) :
    runs.modify jobRunId f id = runs id :=
  Function.update_of_ne h ..

@[simp] theorem completeJobRun_self {status : String} {totals : T} :
    runs.completeJobRun jobRunId status totals jobRunId =
      (runs jobRunId).map fun row => { row with
        status := status
        finished := true
        totals := some totals
        errorMessage := none } :=
  modify_self

@[simp] theorem markJobRunFailed_self {error : String} :
    runs.markJobRunFailed jobRunId error jobRunId =
      (runs jobRunId).map fun row => { row with
        status := "failed"
        finished := true
        errorMessage := some error } :=
  modify_self

end JobRuns

end VideoStorage.MediaIndex
