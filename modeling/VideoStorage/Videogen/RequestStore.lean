import Mathlib.Algebra.Group.Int.Defs
import Mathlib.Algebra.Group.Nat.Defs
import Mathlib.Data.Int.Order.Basic
import Mathlib.Data.List.Perm.Basic
import VideoStorage.Foundation.Trace

/-!
# The store of generation requests

`videogen_requests` and its statements. An insert draws its counter before its
row can be seen, so inserts may become visible in another order than they drew,
or not at all; the other statements make of every row what `onRow` says. A
statement reaches the rows of its own snapshot only (`seen`), and fails without
effect or not at all, which is no step.
-/

namespace VideoStorage.Videogen

open Foundation

/-! ## Rows -/

inductive RequestStatus
  | pending
  | complete
  | failed
  deriving DecidableEq, Repr

structure NewRequest where
  principal : String
  requestId : String
  modelId : String
  prompt : String
  deriving DecidableEq, Repr

/-- A row; `createdAt` in microseconds. -/
structure RequestRow where
  counter : ℤ
  principal : String
  requestId : String
  modelId : String
  prompt : String
  status : RequestStatus := .pending
  videoId : Option String := none
  bucketUrl : Option String := none
  failureReason : Option String := none
  createdAt : ℤ
  deriving DecidableEq, Repr

/-- The columns `INSERT` names, the sequence's counter and the defaults. -/
def NewRequest.row (req : NewRequest) (counter now : ℤ) : RequestRow where
  counter := counter
  principal := req.principal
  requestId := req.requestId
  modelId := req.modelId
  prompt := req.prompt
  createdAt := now

/-! ## Statements -/

/-- The snapshot of a statement. -/
abbrev Seen : Type := RequestRow → Bool

/-- `UPDATE … SET … WHERE …` on one row. -/
def updateWhere (guard : RequestRow → Bool) (set : RequestRow → RequestRow)
    (row : RequestRow) : Option RequestRow :=
  some (if guard row then set row else row)

def markComplete (principal : String) (counter : ℤ) (videoId bucketUrl : String)
    (seen : Seen) : RequestRow → Option RequestRow :=
  updateWhere
    (fun r => seen r && r.principal == principal && r.counter == counter &&
      r.status == .pending)
    (fun r => { r with
      status := .complete
      videoId := some videoId
      bucketUrl := some bucketUrl })

def markFailed (principal : String) (counter : ℤ) (reason : String)
    (seen : Seen) : RequestRow → Option RequestRow :=
  updateWhere
    (fun r => seen r && r.principal == principal && r.counter == counter &&
      r.status == .pending)
    (fun r => { r with
      status := .failed
      failureReason := some reason })

def microsPerSecond : ℤ := 1000000

def microsPerDay : ℤ := 86400 * microsPerSecond

def staleReason (staleAfterSecs : ℤ) : String :=
  "no completion callback within " ++ toString staleAfterSecs ++ "s"

def expireStaleForPrincipal (principal : String) (staleAfterSecs now : ℤ)
    (seen : Seen) : RequestRow → Option RequestRow :=
  updateWhere
    (fun r => seen r && r.principal == principal && r.status == .pending &&
      r.createdAt < now - staleAfterSecs * microsPerSecond)
    (fun r => { r with
      status := .failed
      failureReason := some (staleReason staleAfterSecs) })

/-- `DELETE`: pending rows go too. -/
def purgeForPrincipal (principal : String) (retentionDays now : ℤ)
    (seen : Seen) (row : RequestRow) : Option RequestRow :=
  if seen row && row.principal == principal &&
      row.createdAt < now - retentionDays * microsPerDay then none
  else some row

/-! ## The in-progress list -/

structure InProgressRow where
  counter : ℤ
  modelId : String
  prompt : String
  createdAt : String
  deriving DecidableEq, Repr

def inProgressLimit : ℕ := 50

def isPendingOf (principal : String) (row : RequestRow) : Bool :=
  row.principal == principal && row.status == .pending

/-- The selected columns; the time is rendered with `rfc3339`. -/
def RequestRow.inProgress (rfc3339 : ℤ → String) (row : RequestRow) :
    InProgressRow where
  counter := row.counter
  modelId := row.modelId
  prompt := row.prompt
  createdAt := rfc3339 row.createdAt

/-- Newest first. -/
def NewestFirst (rows : List RequestRow) : Prop :=
  rows.Pairwise fun a b => b.createdAt ≤ a.createdAt

/-- `ORDER BY created_at DESC LIMIT 50`: rows of one time come in any order. -/
def IsListPending (rfc3339 : ℤ → String) (rows : List RequestRow)
    (principal : String) (out : List InProgressRow) : Prop :=
  ∃ sorted, sorted.Perm (rows.filter (isPendingOf principal)) ∧
    NewestFirst sorted ∧
    out = (sorted.take inProgressLimit).map (·.inProgress rfc3339)

/-! ## Steps -/

/-- The table, the inserts under way and the sequence. -/
structure RequestStore where
  rows : List RequestRow := []
  inserting : List RequestRow := []
  nextCounter : ℤ := 1

/-- The statements that rewrite rows. -/
inductive RequestWrite
  | markComplete (principal : String) (counter : ℤ) (videoId bucketUrl : String)
  | markFailed (principal : String) (counter : ℤ) (reason : String)
  | expireStaleForPrincipal (principal : String) (staleAfterSecs now : ℤ)
  | purgeForPrincipal (principal : String) (retentionDays now : ℤ)

namespace RequestWrite

def principal : RequestWrite → String
  | .markComplete p _ _ _ => p
  | .markFailed p _ _ => p
  | .expireStaleForPrincipal p _ _ => p
  | .purgeForPrincipal p _ _ => p

/-- What the statement leaves of a row. -/
def onRow : RequestWrite → Seen → RequestRow → Option RequestRow
  | .markComplete p c v b, seen => Videogen.markComplete p c v b seen
  | .markFailed p c reason, seen => Videogen.markFailed p c reason seen
  | .expireStaleForPrincipal p secs now, seen =>
      Videogen.expireStaleForPrincipal p secs now seen
  | .purgeForPrincipal p days now, seen =>
      Videogen.purgeForPrincipal p days now seen

end RequestWrite

inductive RequestEvent
  /-- `insert_pending` takes the next counter. -/
  | draw (req : NewRequest) (now : ℤ)
  /-- The row of an insert becomes visible, and the insert returns its counter. -/
  | inserted (row : RequestRow)
  /-- An insert fails; its counter is lost. -/
  | abandoned (row : RequestRow)
  | write (w : RequestWrite)
  | listPending (principal : String) (out : List InProgressRow)

/-- The principal an operation is issued for. -/
def RequestEvent.principal : RequestEvent → String
  | .draw req _ => req.principal
  | .inserted row => row.principal
  | .abandoned row => row.principal
  | .write w => w.principal
  | .listPending p _ => p

/-- The counter that an insert returned. -/
def RequestEvent.returned : RequestEvent → Option ℤ
  | .inserted row => some row.counter
  | _ => none

def RequestStore.write (s : RequestStore) (w : RequestWrite) (seen : Seen) :
    RequestStore :=
  { s with rows := s.rows.filterMap (w.onRow seen) }

inductive RequestStep (rfc3339 : ℤ → String) :
    RequestStore → RequestEvent → RequestStore → Prop
  | draw {s : RequestStore} (req : NewRequest) (now : ℤ)
      (h : s.nextCounter < 2 ^ 63) :
      RequestStep rfc3339 s (.draw req now) { s with
        inserting := req.row s.nextCounter now :: s.inserting
        nextCounter := s.nextCounter + 1 }
  | inserted {s : RequestStore} (row : RequestRow) (h : row ∈ s.inserting) :
      RequestStep rfc3339 s (.inserted row) { s with
        rows := row :: s.rows
        inserting := s.inserting.erase row }
  | abandoned {s : RequestStore} (row : RequestRow) (h : row ∈ s.inserting) :
      RequestStep rfc3339 s (.abandoned row) { s with
        inserting := s.inserting.erase row }
  | write {s : RequestStore} (w : RequestWrite) (seen : Seen) :
      RequestStep rfc3339 s (.write w) (s.write w seen)
  | listPending {s : RequestStore} (principal : String)
      (out : List InProgressRow) (h : IsListPending rfc3339 s.rows principal out) :
      RequestStep rfc3339 s (.listPending principal out) s

inductive Terminal
  | complete (videoId bucketUrl : String)
  | failed (reason : String)
  deriving DecidableEq, Repr

/-- `i64::try_from(counter).unwrap_or(i64::MAX)`. -/
def storedCounter (counter : UInt64) : ℤ := min counter.toNat (2 ^ 63 - 1)

/-- What `record_terminal_best_effort` asks of a database that answers. -/
def recordTerminal (principal : String) (counter : UInt64) :
    Terminal → RequestWrite
  | .complete videoId bucketUrl =>
      .markComplete principal (storedCounter counter) videoId bucketUrl
  | .failed reason => .markFailed principal (storedCounter counter) reason

end VideoStorage.Videogen
