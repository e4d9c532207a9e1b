import VideoStorage.Db.Queries
import VideoStorage.Foundation.Loop

/-!
# The batch jobs

`phash_backfill::run` and `mirror::run` are one loop: fetch a batch, work on its
rows with bounded concurrency, write every result back in the order the work
finished, until a batch is empty. Neither keeps a cursor.
-/

namespace VideoStorage.Jobs

open Db Foundation

/-- What the two loops differ in: the batch, and what a result writes. -/
structure BatchJob (Outcome : Type) where
  fetch : Shuffle VideoRow → ℤ → VideoTables → Except SqlError (List VideoRow)
  record : VideoRow → Outcome → VideoTables → Except SqlError VideoTables

/-- What a run is given. `outcome n` is how the `n`-th attempt to finish ends. -/
structure BatchEnv (Outcome : Type) where
  limit : Option ℕ
  /-- `SCAN_PAGE_SIZE`. -/
  pageSize : ℤ
  concurrency : ℕ
  cancelled : ℕ → Bool
  outcome : ℕ → Outcome
  selected : ℕ → Shuffle VideoRow
  finished : ℕ → Shuffle VideoRow

structure BatchState where
  tables : VideoTables
  grandTotal : ℕ := 0
  rounds : ℕ := 0

/-- Which of the three `Ok(())` a run returned. -/
inductive BatchEnd
  | cancelled | limitReached | complete
  deriving DecidableEq, Repr

abbrev BatchResult : Type := Except SqlError (BatchEnd × BatchState)

section Loop

variable {Outcome : Type}

/-- The sequential writes of one batch; `true` when the limit is reached. -/
def recordResults (job : BatchJob Outcome) (env : BatchEnv Outcome) :
    List VideoRow → BatchState → Except SqlError (Bool × BatchState)
  | [], s => .ok (false, s)
  | row :: rows, s =>
      match job.record row (env.outcome s.grandTotal) s.tables with
      | .error e => .error e
      | .ok t =>
          let s' := { s with tables := t, grandTotal := s.grandTotal + 1 }
          if env.limit.any (· ≤ s'.grandTotal) then .ok (true, s')
          else recordResults job env rows s'

def BatchJob.batch (job : BatchJob Outcome) (env : BatchEnv Outcome)
    (s : BatchState) : Except SqlError (List VideoRow) :=
  job.fetch (env.selected s.rounds) env.pageSize s.tables

/-- One round of `loop`. A stream without a slot for its work never ends. -/
def batchStep (job : BatchJob Outcome) (env : BatchEnv Outcome) (s : BatchState) :
    BatchState ⊕ BatchResult :=
  if env.cancelled s.rounds then .inr (.ok (.cancelled, s))
  else
    match job.batch env s with
    | .error e => .inr (.error e)
    | .ok [] => .inr (.ok (.complete, s))
    | .ok rows =>
        if env.concurrency = 0 then .inl s
        else
          match recordResults job env ((env.finished s.rounds).apply rows)
              { s with rounds := s.rounds + 1 } with
          | .error e => .inr (.error e)
          | .ok (true, s') => .inr (.ok (.limitReached, s'))
          | .ok (false, s') => .inl s'

def runBatches (job : BatchJob Outcome) (env : BatchEnv Outcome)
    (t : VideoTables) (fuel : ℕ) : Option BatchResult :=
  iterate (batchStep job env) fuel { tables := t }

/-- The ways a round of a run without limit and cancellation can go. -/
inductive BatchRound (job : BatchJob Outcome) (env : BatchEnv Outcome)
    (s : BatchState) : BatchState ⊕ BatchResult → Prop
  | fetchError (e : SqlError) (h : job.batch env s = .error e) :
      BatchRound job env s (.inr (.error e))
  | complete (h : job.batch env s = .ok []) :
      BatchRound job env s (.inr (.ok (.complete, s)))
  | stuck (rows : List VideoRow) (h : job.batch env s = .ok rows)
      (hne : rows ≠ []) (hslots : env.concurrency = 0) :
      BatchRound job env s (.inl s)
  | recordError (rows : List VideoRow) (e : SqlError)
      (h : job.batch env s = .ok rows) (hslots : env.concurrency ≠ 0)
      (hrec : recordResults job env ((env.finished s.rounds).apply rows)
        { s with rounds := s.rounds + 1 } = .error e) :
      BatchRound job env s (.inr (.error e))
  | limit (rows : List VideoRow) (s' : BatchState)
      (h : job.batch env s = .ok rows) (hslots : env.concurrency ≠ 0)
      (hrec : recordResults job env ((env.finished s.rounds).apply rows)
        { s with rounds := s.rounds + 1 } = .ok (true, s')) :
      BatchRound job env s (.inr (.ok (.limitReached, s')))
  | next (rows : List VideoRow) (s' : BatchState)
      (h : job.batch env s = .ok rows) (hne : rows ≠ [])
      (hslots : env.concurrency ≠ 0)
      (hrec : recordResults job env ((env.finished s.rounds).apply rows)
        { s with rounds := s.rounds + 1 } = .ok (false, s')) :
      BatchRound job env s (.inl s')

theorem batchRound_of_running (job : BatchJob Outcome) {env : BatchEnv Outcome}
    {s : BatchState} (hcancel : env.cancelled s.rounds = false) :
    BatchRound job env s (batchStep job env s) := by
  unfold batchStep
  rw [if_neg (by rw [hcancel]; exact Bool.false_ne_true)]
  cases hbatch : job.batch env s with
  | error e => exact .fetchError e hbatch
  | ok rows =>
      cases rows with
      | nil => exact .complete hbatch
      | cons row rows =>
          by_cases hslots : env.concurrency = 0
          · simp only [if_pos hslots]
            exact .stuck _ hbatch (List.cons_ne_nil _ _) hslots
          · simp only [if_neg hslots]
            cases hrec : recordResults job env
                ((env.finished s.rounds).apply (row :: rows))
                { s with rounds := s.rounds + 1 } with
            | error e => exact .recordError _ e hbatch hslots hrec
            | ok r =>
                obtain ⟨full, s'⟩ := r
                cases full with
                | true => exact .limit _ s' hbatch hslots hrec
                | false =>
                    exact .next _ s' hbatch (List.cons_ne_nil _ _) hslots hrec

end Loop

end VideoStorage.Jobs
