import VideoStorage.Jobs.Batch

/-!
# The batch jobs: what is attempted, what is recorded

A round works on its whole batch before it looks at a result, and looks at the
limit only while it writes the results back. Both are told apart here: the rows
a run attempted and the results it recorded, round by round. A limited run
attempts too many rows exactly when one of its batches is larger than what the
limit leaves (`bounded_iff`).
-/

namespace VideoStorage.Jobs

open Db Foundation

variable {Outcome : Type}

/-! ## The ledger of a run -/

namespace BatchJob

variable (job : BatchJob Outcome) (env : BatchEnv Outcome) (s : BatchState)

def fetched : List VideoRow :=
  if env.cancelled s.rounds then []
  else
    match job.batch env s with
    | .ok rows => rows
    | .error _ => []

/-- The stream is run to its end, unless it has no slot. -/
def attempted : List VideoRow :=
  if env.concurrency = 0 then []
  else (env.finished s.rounds).apply (job.fetched env s)

end BatchJob

/-- The results that `recordResults` writes back. -/
def recordedResults (job : BatchJob Outcome) (env : BatchEnv Outcome) :
    List VideoRow → BatchState → List (VideoRow × Outcome)
  | [], _ => []
  | row :: rows, s =>
      match job.record row (env.outcome s.grandTotal) s.tables with
      | .error _ => []
      | .ok t =>
          let s' := { s with tables := t, grandTotal := s.grandTotal + 1 }
          (row, env.outcome s.grandTotal) ::
            if env.limit.any (· ≤ s'.grandTotal) then []
            else recordedResults job env rows s'

namespace BatchJob

variable (job : BatchJob Outcome) (env : BatchEnv Outcome)

def recorded (s : BatchState) : List (VideoRow × Outcome) :=
  recordedResults job env (job.attempted env s) { s with rounds := s.rounds + 1 }

/-- The rounds of a run from tables on, as far as the fuel goes. -/
def roundsOf (t : VideoTables) (fuel : ℕ) : List BatchState :=
  visited (batchStep job env) fuel { tables := t }

/-- The rows that the run's queries returned. -/
def selections (t : VideoTables) (fuel : ℕ) : List VideoRow :=
  (job.roundsOf env t fuel).flatMap (job.fetched env)

def attempts (t : VideoTables) (fuel : ℕ) : List VideoRow :=
  (job.roundsOf env t fuel).flatMap (job.attempted env)

def records (t : VideoTables) (fuel : ℕ) : List (VideoRow × Outcome) :=
  (job.roundsOf env t fuel).flatMap (job.recorded env)

/-- The writes of a ledger, in its order. -/
def replay (t : VideoTables) (ledger : List (VideoRow × Outcome)) :
    Except SqlError VideoTables :=
  ledger.foldlM (fun t r => job.record r.1 r.2 t) t

end BatchJob

/-! ## One round -/

section Round

variable {job : BatchJob Outcome} {env : BatchEnv Outcome} {s s' : BatchState}
  {rows : List VideoRow} {full : Bool}

/-- What `recordResults` did is in the ledger: its rows are the first of those
there were, its writes made the tables, and each of them counts once. -/
structure Written (job : BatchJob Outcome) (env : BatchEnv Outcome)
    (rows : List VideoRow) (s : BatchState) (full : Bool) (s' : BatchState) :
    Prop where
  first : (recordedResults job env rows s).map Prod.fst <+: rows
  tables : job.replay s.tables (recordedResults job env rows s) = .ok s'.tables
  counted : s'.grandTotal = s.grandTotal + (recordedResults job env rows s).length
  all : full = false → (recordedResults job env rows s).map Prod.fst = rows
  limit : full = env.limit.any (· ≤ s'.grandTotal)

theorem recordResults_written (hopen : env.limit.any (· ≤ s.grandTotal) = false)
    (h : recordResults job env rows s = .ok (full, s')) :
    Written job env rows s full s' := by
  induction rows generalizing s with
  | nil =>
      cases h
      exact ⟨List.prefix_refl _, rfl, rfl, fun _ => rfl, hopen.symm⟩
  | cons row rows ih =>
      unfold recordResults at h
      cases hrec : job.record row (env.outcome s.grandTotal) s.tables with
      | error e =>
          rw [hrec] at h
          cases h
      | ok t =>
          rw [hrec] at h
          dsimp only at h
          by_cases hlimit : env.limit.any (· ≤ s.grandTotal + 1) = true
          · rw [if_pos hlimit] at h
            obtain ⟨rfl, rfl⟩ := Prod.mk.inj (Except.ok.inj h)
            have hledger : recordedResults job env (row :: rows) s
                = [(row, env.outcome s.grandTotal)] := by
              simp only [recordedResults, hrec, if_pos hlimit]
            constructor
            · rw [hledger]
              exact ⟨rows, rfl⟩
            · rw [hledger]
              simp [BatchJob.replay, hrec]
            · rw [hledger]
              rfl
            · exact nofun
            · exact hlimit.symm
          · rw [if_neg hlimit] at h
            have hrest := ih (by simpa using hlimit) h
            have hledger : recordedResults job env (row :: rows) s
                = (row, env.outcome s.grandTotal) :: recordedResults job env rows
                    { s with tables := t, grandTotal := s.grandTotal + 1 } := by
              simp only [recordedResults, hrec, if_neg hlimit]
            constructor
            · rw [hledger]
              exact (List.cons_prefix_cons).mpr ⟨rfl, hrest.first⟩
            · rw [hledger]
              have htables := hrest.tables
              unfold BatchJob.replay at htables ⊢
              rw [List.foldlM_cons, hrec]
              exact htables
            · rw [hledger, hrest.counted, List.length_cons]
              dsimp only
              omega
            · intro hfull
              rw [hledger, List.map_cons, hrest.all hfull]
            · exact hrest.limit

theorem fetched_of_batch (hcancel : env.cancelled s.rounds = false)
    (h : job.batch env s = .ok rows) : job.fetched env s = rows := by
  unfold BatchJob.fetched
  rw [if_neg (by rw [hcancel]; exact Bool.false_ne_true), h]

theorem attempted_of_batch (hcancel : env.cancelled s.rounds = false)
    (hslots : env.concurrency ≠ 0) (h : job.batch env s = .ok rows) :
    job.attempted env s = (env.finished s.rounds).apply rows := by
  unfold BatchJob.attempted
  rw [if_neg hslots, fetched_of_batch hcancel h]

theorem batchStep_cancelled (hcancel : env.cancelled s.rounds = true) :
    batchStep job env s = .inr (.ok (.cancelled, s)) ∧ job.attempted env s = [] := by
  have hnil : (env.finished s.rounds).apply [] = [] :=
    List.perm_nil.mp ((env.finished s.rounds).perm [])
  constructor
  · unfold batchStep
    rw [if_pos hcancel]
  · unfold BatchJob.attempted BatchJob.fetched
    rw [if_pos hcancel, hnil, ite_self]

/-- **A round that goes on** has written back all it attempted. -/
theorem batchStep_next (hopen : env.limit.any (· ≤ s.grandTotal) = false)
    (hslots : env.concurrency ≠ 0) (h : batchStep job env s = .inl s') :
    (job.recorded env s).map Prod.fst = job.attempted env s ∧
      s'.grandTotal = s.grandTotal + (job.attempted env s).length ∧
      env.limit.any (· ≤ s'.grandTotal) = false := by
  cases hcancel : env.cancelled s.rounds with
  | true => cases h.symm.trans (batchStep_cancelled hcancel).1
  | false =>
      have hround := batchRound_of_running job hcancel
      rw [h] at hround
      cases hround with
      | stuck _ _ _ hzero => exact absurd hzero hslots
      | next rows _ hbatch hne _ hrec =>
          have hattempted := attempted_of_batch hcancel hslots hbatch
          rw [← hattempted] at hrec
          have hwritten := @recordResults_written _ _ _
            { s with rounds := s.rounds + 1 } _ _ _ hopen hrec
          have hall := hwritten.all rfl
          refine ⟨hall, ?_, hwritten.limit.symm⟩
          have hlength := congrArg List.length hall
          rw [List.length_map] at hlength
          rw [← hlength]
          exact hwritten.counted

/-- **A round that ends the run**: what it attempted and the limit leaves room for
is written back. -/
theorem batchStep_ends {e : BatchEnd} (hopen : env.limit.any (· ≤ s.grandTotal) = false)
    (h : batchStep job env s = .inr (.ok (e, s')))
    (hroom : ∀ n ∈ env.limit, s.grandTotal + (job.attempted env s).length ≤ n) :
    (job.recorded env s).map Prod.fst = job.attempted env s := by
  have hnone : job.attempted env s = [] →
      (job.recorded env s).map Prod.fst = job.attempted env s := by
    intro hnil
    unfold BatchJob.recorded
    rw [hnil]
    rfl
  cases hcancel : env.cancelled s.rounds with
  | true => exact hnone (batchStep_cancelled hcancel).2
  | false =>
      have hround := batchRound_of_running job hcancel
      rw [h] at hround
      cases hround with
      | complete hbatch =>
          apply hnone
          unfold BatchJob.attempted
          rw [fetched_of_batch hcancel hbatch]
          split_ifs
          · rfl
          · exact List.perm_nil.mp ((env.finished s.rounds).perm [])
      | limit rows _ hbatch hslots hrec =>
          rw [← attempted_of_batch hcancel hslots hbatch] at hrec
          have hwritten := @recordResults_written _ _ _
            { s with rounds := s.rounds + 1 } _ _ _ hopen hrec
          obtain ⟨n, hn, hreached⟩ :=
            (Option.any_eq_true _ _).mp hwritten.limit.symm
          have hcounted := hwritten.counted
          have hroom := hroom n hn
          refine hwritten.first.eq_of_length_le ?_
          rw [List.length_map]
          simp only [decide_eq_true_eq] at hreached
          dsimp only at hcounted
          omega

end Round

/-! ## Limited runs -/

/-- A run whose limit is a bound: it attempts at most `n` rows, and when it
returns `Ok` it has recorded every attempt. -/
structure BoundedRun (job : BatchJob Outcome) (env : BatchEnv Outcome)
    (t : VideoTables) (n : ℕ) : Prop where
  attempts : ∀ fuel, (job.attempts env t fuel).length ≤ n
  recorded : ∀ fuel e s, runBatches job env t fuel = some (.ok (e, s)) →
    (job.records env t fuel).map Prod.fst = job.attempts env t fuel

/-- The batch of a round is no larger than what the limit leaves. -/
def Fits (selectable : VideoTables → List VideoRow) (env : BatchEnv Outcome)
    (n : ℕ) (s : BatchState) : Prop :=
  env.cancelled s.rounds = false →
    s.grandTotal + min env.pageSize.toNat (selectable s.tables).length ≤ n

section Bounded

variable {job : BatchJob Outcome} {env : BatchEnv Outcome} {s : BatchState}
  {selectable : VideoTables → List VideoRow} {t : VideoTables} {n fuel : ℕ}

/-- How many rows a round attempts, of a job that fetches in the usual way. -/
theorem length_attempted
    (hfetch : ∀ order limit t,
      job.fetch order limit t = fetchBatch order limit (selectable t))
    (hslots : env.concurrency ≠ 0) : (job.attempted env s).length
      = if env.cancelled s.rounds then 0
        else min env.pageSize.toNat (selectable s.tables).length := by
  cases hcancel : env.cancelled s.rounds with
  | true =>
      rw [(batchStep_cancelled hcancel).2]
      rfl
  | false =>
      rw [if_neg Bool.false_ne_true]
      have hbatch : job.batch env s = fetchBatch (env.selected s.rounds)
          env.pageSize (selectable s.tables) := hfetch ..
      by_cases hsize : 0 ≤ env.pageSize
      · rw [attempted_of_batch hcancel hslots
          (hbatch.trans (fetchBatch_eq_ok.mpr ⟨hsize, rfl⟩)),
          ((env.finished s.rounds).perm _).length_eq, List.length_take,
          ((env.selected s.rounds).perm _).length_eq]
      · have herror : job.batch env s = .error .negativeLimit :=
          hbatch.trans (if_neg hsize)
        have hnil : job.attempted env s = [] := by
          unfold BatchJob.attempted BatchJob.fetched
          rw [if_neg hslots, hcancel, if_neg Bool.false_ne_true, herror]
          exact List.perm_nil.mp ((env.finished s.rounds).perm [])
        rw [hnil, List.length_nil]
        omega

theorem fits_iff
    (hfetch : ∀ order limit t,
      job.fetch order limit t = fetchBatch order limit (selectable t))
    (hslots : env.concurrency ≠ 0) (hopen : s.grandTotal ≤ n) :
    Fits selectable env n s ↔
      s.grandTotal + (job.attempted env s).length ≤ n := by
  rw [length_attempted hfetch hslots]
  unfold Fits
  cases env.cancelled s.rounds with
  | true => simpa using hopen
  | false => simp

theorem below_limit {s : BatchState} (hlimit : env.limit = some n) :
    env.limit.any (· ≤ s.grandTotal) = false ↔ s.grandTotal < n := by
  rw [hlimit]
  simp

theorem fits_of_attempts_le (hlimit : env.limit = some n)
    (hfetch : ∀ order limit t,
      job.fetch order limit t = fetchBatch order limit (selectable t))
    (hslots : env.concurrency ≠ 0) (hopen : s.grandTotal < n)
    (h : ∀ fuel, s.grandTotal + ((visited (batchStep job env) fuel s).flatMap
      (job.attempted env)).length ≤ n) (fuel : ℕ) :
    ∀ s' ∈ visited (batchStep job env) fuel s, Fits selectable env n s' := by
  induction fuel generalizing s with
  | zero => exact nofun
  | succ fuel ih =>
      have hself : Fits selectable env n s := by
        rw [fits_iff hfetch hslots hopen.le]
        have hone := h 1
        cases hstep : batchStep job env s with
        | inl s₁ =>
            rw [visited_next hstep] at hone
            simpa [visited] using hone
        | inr r =>
            rw [visited_stop hstep] at hone
            simpa using hone
      cases hstep : batchStep job env s with
      | inl s₁ =>
          obtain ⟨-, htotal, hopen₁⟩ :=
            batchStep_next ((below_limit hlimit).mpr hopen) hslots hstep
          rw [visited_next hstep]
          have hrest := @ih s₁ ((below_limit hlimit).mp hopen₁) fun fuel' => by
            have hnext := h (fuel' + 1)
            rw [visited_next hstep, List.flatMap_cons, List.length_append] at hnext
            omega
          simpa using ⟨hself, hrest⟩
      | inr r =>
          rw [visited_stop hstep]
          simpa using hself

theorem attempts_le_of_fits (hlimit : env.limit = some n)
    (hfetch : ∀ order limit t,
      job.fetch order limit t = fetchBatch order limit (selectable t))
    (hslots : env.concurrency ≠ 0) (hopen : s.grandTotal < n)
    (h : ∀ fuel, ∀ s' ∈ visited (batchStep job env) fuel s, Fits selectable env n s')
    (fuel : ℕ) :
    s.grandTotal + ((visited (batchStep job env) fuel s).flatMap
      (job.attempted env)).length ≤ n := by
  induction fuel generalizing s with
  | zero => exact hopen.le
  | succ fuel ih =>
      cases hstep : batchStep job env s with
      | inl s₁ =>
          obtain ⟨-, htotal, hopen₁⟩ :=
            batchStep_next ((below_limit hlimit).mpr hopen) hslots hstep
          have hrest := @ih s₁ ((below_limit hlimit).mp hopen₁) fun fuel' s' hs' => by
            apply h (fuel' + 1)
            rw [visited_next hstep]
            exact List.mem_cons_of_mem _ hs'
          rw [visited_next hstep, List.flatMap_cons, List.length_append]
          omega
      | inr r =>
          have hself := h 1 s (by rw [visited_stop hstep]; exact List.mem_cons_self)
          rw [fits_iff hfetch hslots hopen.le] at hself
          rw [visited_stop hstep]
          simpa using hself

/-- The attempts from a state on stay within what the limit leaves exactly when
every batch does. -/
theorem attempts_le_iff (hlimit : env.limit = some n)
    (hfetch : ∀ order limit t,
      job.fetch order limit t = fetchBatch order limit (selectable t))
    (hslots : env.concurrency ≠ 0) (hopen : s.grandTotal < n) :
    (∀ fuel, s.grandTotal + ((visited (batchStep job env) fuel s).flatMap
        (job.attempted env)).length ≤ n) ↔
      ∀ fuel, ∀ s' ∈ visited (batchStep job env) fuel s,
        Fits selectable env n s' :=
  ⟨fits_of_attempts_le hlimit hfetch hslots hopen,
    attempts_le_of_fits hlimit hfetch hslots hopen⟩

/-- Where every batch fits, what was attempted was recorded. -/
theorem records_eq_attempts (hlimit : env.limit = some n)
    (hfetch : ∀ order limit t,
      job.fetch order limit t = fetchBatch order limit (selectable t))
    (hslots : env.concurrency ≠ 0) (hopen : s.grandTotal < n)
    (hfits : ∀ fuel, ∀ s' ∈ visited (batchStep job env) fuel s,
      Fits selectable env n s') {e : BatchEnd} {s' : BatchState}
    (h : iterate (batchStep job env) fuel s = some (.ok (e, s'))) :
    ((visited (batchStep job env) fuel s).flatMap (job.recorded env)).map Prod.fst
      = (visited (batchStep job env) fuel s).flatMap (job.attempted env) := by
  induction fuel generalizing s with
  | zero => rfl
  | succ fuel ih =>
      have hbelow := (below_limit hlimit).mpr hopen
      cases hstep : batchStep job env s with
      | inl s₁ =>
          obtain ⟨hrecorded, -, hopen₁⟩ := batchStep_next hbelow hslots hstep
          rw [iterate_next hstep] at h
          rw [hlimit] at hopen₁
          have hrest := @ih s₁ (by simpa using hopen₁) (fun fuel' s' hs' => by
            apply hfits (fuel' + 1)
            rw [visited_next hstep]
            exact List.mem_cons_of_mem _ hs') h
          rw [visited_next hstep, List.flatMap_cons, List.flatMap_cons,
            List.map_append, hrecorded, hrest]
      | inr r =>
          rw [iterate_stop hstep] at h
          obtain rfl := Option.some.inj h
          have hself := hfits 1 s (by rw [visited_stop hstep]; exact List.mem_cons_self)
          rw [fits_iff hfetch hslots hopen.le] at hself
          rw [visited_stop hstep, List.flatMap_singleton, List.flatMap_singleton]
          apply batchStep_ends hbelow hstep
          intro n' hn'
          rw [hlimit] at hn'
          obtain rfl := Option.some.inj hn'
          exact hself

/-- A stream without a slot attempts nothing. -/
theorem attempted_of_noSlots (hslots : env.concurrency = 0) :
    job.attempted env = fun _ => [] := by
  funext s
  unfold BatchJob.attempted
  rw [if_pos hslots]

theorem recorded_of_noSlots (hslots : env.concurrency = 0) :
    job.recorded env = fun _ => [] := by
  funext s
  unfold BatchJob.recorded
  rw [attempted_of_noSlots hslots]
  rfl

/-- **Limited runs.** The limit bounds the attempts, and every attempt is
recorded, exactly when in every round the batch fits in what the limit leaves; or
nothing can be attempted at all. -/
theorem bounded_iff (hlimit : env.limit = some n) (hn : 1 ≤ n)
    (hfetch : ∀ order limit t,
      job.fetch order limit t = fetchBatch order limit (selectable t)) :
    BoundedRun job env t n ↔ env.concurrency = 0 ∨
      ∀ fuel, ∀ s ∈ job.roundsOf env t fuel, Fits selectable env n s := by
  by_cases hslots : env.concurrency = 0
  · refine iff_of_true ⟨fun fuel => ?_, fun fuel e s _ => ?_⟩ (.inl hslots)
    · unfold BatchJob.attempts
      rw [attempted_of_noSlots hslots]
      simp
    · unfold BatchJob.attempts BatchJob.records
      rw [attempted_of_noSlots hslots, recorded_of_noSlots hslots,
        List.flatMap_eq_nil_iff.mpr fun _ _ => rfl,
        List.flatMap_eq_nil_iff.mpr fun _ _ => rfl]
      rfl
  · have hiff := @attempts_le_iff _ job env { tables := t } _ n hlimit hfetch hslots hn
    constructor
    · intro h
      refine .inr (hiff.mp fun fuel => ?_)
      rw [Nat.zero_add]
      exact h.attempts fuel
    · rintro (hzero | hfits)
      · exact absurd hzero hslots
      · refine ⟨fun fuel => ?_, fun fuel e s h => ?_⟩
        · have hle := hiff.mpr hfits fuel
          rw [Nat.zero_add] at hle
          exact hle
        · exact records_eq_attempts hlimit hfetch hslots hn hfits h

end Bounded

end VideoStorage.Jobs
