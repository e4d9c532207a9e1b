import Mathlib.Data.Int.Notation
import VideoStorage.Foundation.Guard
import VideoStorage.Foundation.Trace

/-!
# Running flags

The flags of one process, and who takes them: the routes, the pipeline and the
sweep worker's closures. Each flag has one holder at most (`owned_run`). The
pipeline's hash and mirror steps and the discovery's scans are job bodies that
run under another flag (`single_flight_iff`).
-/

namespace VideoStorage.Jobs.Flags

open Foundation

inductive JobKind
  | scanStorj | scanHetzner | phashBackfill | mirror | mediaImport | mediaPhash
  | chainSnapshot
  deriving DecidableEq, Repr

/-- The `job_*_running` flags; the pipeline has one of its own. -/
inductive Flag
  | job (k : JobKind)
  | pipeline
  deriving DecidableEq, Repr

/-- Where `run_pipeline` is on its page. -/
inductive PipelineStage
  | scanning | phash | mirror
  deriving DecidableEq, Repr

/-- Where the worker's discovery closure is. -/
inductive DiscoveryStage
  | scanHetzner | scanStorj | importing
  deriving DecidableEq, Repr

/-- What runs in the background. -/
inductive Task
  /-- Spawned by the job's route. -/
  | spawned (k : JobKind)
  | pipeline (stage : PipelineStage)
  /-- The worker's closures. -/
  | drain
  | discovery (stage : DiscoveryStage)
  deriving DecidableEq, Repr

namespace Task

/-- The flag that the task's guard clears. -/
def held : Task → Flag
  | spawned k => .job k
  | pipeline _ => .pipeline
  | drain => .job .mediaPhash
  | discovery _ => .job .mediaImport

/-- The job body the task is in. The pipeline lists its page by itself. -/
def executes : Task → Option JobKind
  | spawned k => some k
  | pipeline .scanning => none
  | pipeline .phash => some .phashBackfill
  | pipeline .mirror => some .mirror
  | drain => some .mediaPhash
  | discovery .scanHetzner => some .scanHetzner
  | discovery .scanStorj => some .scanStorj
  | discovery .importing => some .mediaImport

end Task

/-- A task that goes on to its next part, also when the last one failed. -/
inductive Next : Task → Task → Prop
  | pipelinePhash : Next (.pipeline .scanning) (.pipeline .phash)
  | pipelineMirror : Next (.pipeline .phash) (.pipeline .mirror)
  | pipelinePage : Next (.pipeline .mirror) (.pipeline .scanning)
  | discoveryStorj : Next (.discovery .scanHetzner) (.discovery .scanStorj)
  | discoveryImport : Next (.discovery .scanStorj) (.discovery .importing)

/-- How a task ends; its guard is dropped either way. -/
inductive Ending
  | completed | failed | panicked | cancelled
  deriving DecidableEq, Repr

abbrev Process : Type := Guards Flag Task

inductive JobEvent
  /-- `POST` to the route of the kind. -/
  | trigger (k : JobKind)
  | runPipeline (cancelled : Bool)
  /-- `GET /chain/audit?remediate=true`, with the count of category C. -/
  | chainAudit (categoryC : ℤ)
  /-- The worker's pass comes to its drain. -/
  | drain
  /-- The worker's pass finds discovery due. -/
  | discovery
  | advance (t t' : Task)
  | finish (t : Task) (how : Ending)

inductive JobStep (s : Process) : JobEvent → Process → Prop
  | trigger (k : JobKind) :
      JobStep s (.trigger k) (s.start Task.held (.spawned k))
  /-- With a cancelled token the guard is dropped again at once. -/
  | runPipeline (cancelled : Bool) : JobStep s (.runPipeline cancelled)
      (if cancelled then s else s.start Task.held (.pipeline .scanning))
  | chainAudit (categoryC : ℤ) : JobStep s (.chainAudit categoryC)
      (if 0 < categoryC then s.start Task.held (.spawned .mediaImport) else s)
  | drain : JobStep s .drain (s.start Task.held .drain)
  | discovery : JobStep s .discovery
      (s.start Task.held (.discovery .scanHetzner))
  | advance {t t' : Task} (ht : t ∈ s.tasks) (hnext : Next t t') :
      JobStep s (.advance t t') (s.advance t t')
  | finish {t : Task} (how : Ending) (ht : t ∈ s.tasks) :
      JobStep s (.finish t how) (s.finish Task.held t)

/-! ## One instance of each kind -/

/-- At most one instance of each kind, and its flag set exactly while it runs. -/
def SingleFlight (s : Process) : Prop :=
  Guards.SingleFlight Task.executes Flag.job s

/-- The pipeline does not go on from its scan, and no discovery takes the import
flag. -/
def KeepsToFlag (s : Process) : JobEvent → Prop
  | .advance _ t' => t' ≠ .pipeline .phash
  | .discovery => s.flags (.job .mediaImport) = true
  | _ => True

section Runs

variable {s s' : Process} {e : JobEvent} {es : List JobEvent} {t t' : Task}

theorem Next.held (h : Next t t') : t'.held = t.held := by
  cases h <;> rfl

theorem owned_step (h : s.Owned Task.held) (hstep : JobStep s e s') :
    s'.Owned Task.held := by
  cases hstep with
  | trigger k => exact h.start _
  | runPipeline cancelled =>
      split
      · exact h
      · exact h.start _
  | chainAudit categoryC =>
      split
      · exact h.start _
      · exact h
  | drain => exact h.start _
  | discovery => exact h.start _
  | advance ht hnext => exact h.advance ht hnext.held
  | finish how ht => exact h.finish ht

/-- **Flags.** Whatever the tasks do, a flag is set exactly while one task holds
it. -/
theorem owned_run (hrun : Trace JobStep {} es s) : s.Owned Task.held :=
  hrun.invariant (Guards.Owned Task.held)
    (fun _ _ _ h hstep => owned_step h hstep) Guards.Owned.empty

/-- The task executes its own flag's job, or no job under no job's flag. -/
abbrev Proper (t : Task) : Prop :=
  Guards.Proper Task.held Task.executes Flag.job t

theorem proper_spawned (k : JobKind) : Proper (.spawned k) := by
  intro k'
  show some k = some k' ↔ Flag.job k = Flag.job k'
  rw [Option.some.injEq, Flag.job.injEq]

theorem proper_drain : Proper .drain := proper_spawned .mediaPhash

theorem proper_scanning : Proper (.pipeline .scanning) :=
  fun _ => ⟨nofun, nofun⟩

theorem not_proper {k : JobKind} (hexec : t.executes = some k)
    (hheld : t.held ≠ .job k) : ¬ Proper t :=
  fun h => hheld ((h k).mp hexec)

/-- The kinds that some task executes under another flag have no other holders
than their routes' tasks. -/
theorem executes_of_held {k : JobKind} (hk : k ≠ .mediaImport)
    (hheld : t.held = .job k) : t.executes = some k := by
  cases t with
  | spawned k' => exact congrArg some (Flag.job.inj hheld)
  | pipeline stage => cases hheld
  | drain => exact congrArg some (Flag.job.inj hheld)
  | discovery stage => exact absurd (Flag.job.inj hheld).symm hk

/-- Where each flag has one holder, no kind runs twice exactly when every task
keeps to its flag. -/
theorem singleFlight_iff (h : s.Owned Task.held) :
    SingleFlight s ↔ ∀ t ∈ s.tasks, Proper t := by
  constructor
  · intro hsingle t ht
    -- a body under another flag, which either is not set or has a holder
    have hother : ∀ k, k ≠ .mediaImport → t.executes = some k →
        t.held ≠ .job k → False := fun k hk hexec hheld =>
      h.not_singleFlight ht hexec hheld (fun _ => executes_of_held hk) hsingle
    cases t with
    | spawned k => exact proper_spawned k
    | drain => exact proper_drain
    | pipeline stage =>
        cases stage with
        | scanning => exact proper_scanning
        | phash => exact (hother .phashBackfill nofun rfl nofun).elim
        | mirror => exact (hother .mirror nofun rfl nofun).elim
    | discovery stage =>
        cases stage with
        | scanHetzner => exact (hother .scanHetzner nofun rfl nofun).elim
        | scanStorj => exact (hother .scanStorj nofun rfl nofun).elim
        | importing => exact proper_spawned .mediaImport
  · exact h.singleFlight

/-! ### One step -/

theorem proper_start (h : ∀ t ∈ s.tasks, Proper t) :
    (∀ t' ∈ (s.start Task.held t).tasks, Proper t') ↔
      s.flags t.held = true ∨ Proper t := by
  unfold Guards.start
  by_cases hflag : s.flags t.held = true
  · rw [if_pos hflag]
    exact ⟨fun _ => .inl hflag, fun _ => h⟩
  · rw [if_neg hflag]
    simp only [List.mem_cons, forall_eq_or_imp, hflag, Bool.false_eq_true,
      false_or]
    exact ⟨fun hall => hall.1, fun ht => ⟨ht, h⟩⟩

/-- A task that keeps to its flag goes on only from the pipeline's scan, to a body
of another flag. -/
theorem Next.of_proper (h : Next t t') (ht : Proper t) :
    t' = .pipeline .phash := by
  cases h with
  | pipelinePhash => rfl
  | pipelineMirror =>
      exact absurd ht (not_proper (k := .phashBackfill) rfl nofun)
  | pipelinePage => exact absurd ht (not_proper (k := .mirror) rfl nofun)
  | discoveryStorj =>
      exact absurd ht (not_proper (k := .scanHetzner) rfl nofun)
  | discoveryImport => exact absurd ht (not_proper (k := .scanStorj) rfl nofun)

theorem proper_step (h : ∀ t ∈ s.tasks, Proper t) (hstep : JobStep s e s') :
    (∀ t ∈ s'.tasks, Proper t) ↔ KeepsToFlag s e := by
  have hkeeps : (∀ t ∈ s'.tasks, Proper t) →
      ((∀ t ∈ s'.tasks, Proper t) ↔ True) := fun hafter => iff_true_intro hafter
  cases hstep with
  | trigger k => exact hkeeps ((proper_start h).mpr (.inr (proper_spawned k)))
  | runPipeline cancelled =>
      apply hkeeps
      split
      · exact h
      · exact (proper_start h).mpr (.inr proper_scanning)
  | chainAudit categoryC =>
      apply hkeeps
      split
      · exact (proper_start h).mpr (.inr (proper_spawned _))
      · exact h
  | drain => exact hkeeps ((proper_start h).mpr (.inr proper_drain))
  | discovery =>
      rw [proper_start h]
      show s.flags (.job .mediaImport) = true ∨ _ ↔ _
      -- discovery runs its scans under the flag of the import
      have hnot : ¬ Proper (.discovery .scanHetzner) :=
        not_proper (k := .scanHetzner) rfl nofun
      exact or_iff_left hnot
  | @advance t t' ht hnext =>
      -- the pipeline goes on to its hash step under its own flag
      have hphash := hnext.of_proper (h t ht)
      subst hphash
      have hnot : ¬ Proper (.pipeline .phash) :=
        not_proper (k := .phashBackfill) rfl nofun
      constructor
      · intro hafter
        exact (hnot (hafter _ List.mem_cons_self)).elim
      · intro hne
        exact (hne rfl).elim
  | finish how ht =>
      apply hkeeps
      intro t' ht'
      exact h t' (List.mem_of_mem_erase ht')

/-- **Single flight** holds throughout a run exactly as long as the pipeline stays
in its scan and no discovery gets the import flag. -/
theorem single_flight_iff (es : List JobEvent) :
    Throughout JobStep {} es SingleFlight ↔
      StepsMeet JobStep {} es KeepsToFlag := by
  have hproper : Throughout JobStep {} es (fun s => ∀ t ∈ s.tasks, Proper t) ↔
      StepsMeet JobStep {} es KeepsToFlag := by
    apply throughout_iff
    · intro t ht
      cases ht
    · exact fun _ _ _ h hstep => proper_step h hstep
  rw [← hproper]
  constructor
  · intro h es₁ s hprefix hrun
    exact (singleFlight_iff (owned_run hrun)).mp (h es₁ s hprefix hrun)
  · intro h es₁ s hprefix hrun
    exact (singleFlight_iff (owned_run hrun)).mpr (h es₁ s hprefix hrun)

end Runs

/-! ## The pipeline's hash step -/

/-- The hash job was started by its route, and the pipeline comes to its own. -/
def twoHashRuns : List JobEvent :=
  [.trigger .phashBackfill, .runPipeline false,
    .advance (.pipeline .scanning) (.pipeline .phash)]

/-- Two instances of the hash job are executing. -/
theorem two_hash_runs : ¬ Throughout JobStep {} twoHashRuns SingleFlight := by
  have hrun : Trace JobStep {} twoHashRuns _ :=
    .cons (.trigger .phashBackfill) <|
    .cons (.runPipeline false) <|
    .cons (.advance List.mem_cons_self .pipelinePhash) <|
    .nil _
  intro h
  have htwo := (h twoHashRuns _ (List.prefix_refl _) hrun .phashBackfill).1
  exact absurd htwo (by decide)

end VideoStorage.Jobs.Flags
