import VideoStorage.Chain.EarlyEnd
import VideoStorage.MediaIndex.JobRuns

/-!
# The row of a run

A snapshot inserts a row of `media_job_runs` as `running` and closes it: as
`completed` or `partial` with the totals, or as `failed` when the walk fails. An
error behind a complete walk returns at once, and one of the closing update too:
then the row stays as it is (`lifecycle_iff`).
-/

namespace VideoStorage.Chain

open Foundation Prog MediaIndex

/-! ## The table -/

/-- `totals` come with `completed` at the end. -/
abbrev SnapshotRuns : Type := JobRuns Uuid (Totals × Option Bool)

def SnapshotCall.applyRun (runs : SnapshotRuns) : SnapshotCall → SnapshotRuns
  | .insertRun runId jobKind requestedBy =>
      runs.insertJobRun runId jobKind requestedBy
  | .recordProgress runId last totals =>
      runs.modify runId fun row =>
        { row with cursor := some last, totals := some (totals, none) }
  | .finishRun runId status totals completed =>
      runs.completeJobRun runId status (totals, some completed)
  | .failRun runId message =>
      runs.markJobRunFailed runId message
  | .isCancelled | .fetch _ _ | .execute _ => runs

/-- The reply is an error. -/
def Failed : SnapshotExchange → Prop
  | ⟨.fetch _ _, .error _⟩ | ⟨.insertRun _ _ _, .error _⟩ | ⟨.execute _, .error _⟩
  | ⟨.recordProgress _ _ _, .error _⟩ | ⟨.finishRun _ _ _ _, .error _⟩
  | ⟨.failRun _ _, .error _⟩ => True
  | _ => False

/-- What a call leaves of the runs; an update that reports an error may have been
made all the same. -/
def RunActs (runs : SnapshotRuns) (x : SnapshotExchange) (runs' : SnapshotRuns) : Prop :=
  runs' = x.1.applyRun runs ∨ (Failed x ∧ runs' = runs)

variable {runs runs' : SnapshotRuns} {runId : Uuid} {requestedBy : String} {limit : Option ℕ}
  {tr : List SnapshotExchange} {out : Except String ChainSnapshotSummary}

/-- The row is there, as `running`. -/
def Running (runs : SnapshotRuns) (runId : Uuid) : Prop :=
  ∃ row, runs runId = some row ∧ row.status = "running"

/-- What becomes of the row when the run returns. -/
structure RowSettled (runs : SnapshotRuns) (runId : Uuid)
    (out : Except String ChainSnapshotSummary) : Prop where
  failed : ∀ e, out = .error e →
    ∃ row, runs runId = some row ∧ row.status = "failed" ∧ row.finished = true
  notRunning : ¬ Running runs runId

/-! ## While the run executes -/

theorem inserted_running {jobKind : String}
    (hact : RunActs runs ⟨.insertRun runId jobKind requestedBy, .ok ()⟩ runs') :
    Running runs' runId := by
  obtain rfl | ⟨hfail, -⟩ := hact
  · exact ⟨_, Function.update_self .., rfl⟩
  · exact hfail.elim

/-- Calls that do not touch the status. -/
def KeepsStatus : SnapshotCall → Prop
  | .isCancelled | .fetch _ _ | .execute _ | .recordProgress _ _ _ => True
  | _ => False

theorem keepsStatus_acts {x : SnapshotExchange} (hcall : KeepsStatus x.1)
    (hact : RunActs runs x runs') (h : Running runs runId) : Running runs' runId := by
  obtain ⟨row, hrow, hstatus⟩ := h
  rcases hact with rfl | ⟨-, rfl⟩
  · obtain ⟨e, r⟩ := x
    cases e with
    | recordProgress runId' last totals =>
        by_cases hid : runId = runId'
        · subst hid
          refine ⟨{ row with cursor := some last, totals := some (totals, none) }, ?_,
            hstatus⟩
          rw [SnapshotCall.applyRun, JobRuns.modify_self, hrow, Option.map_some]
        · refine ⟨row, ?_, hstatus⟩
          rw [SnapshotCall.applyRun, JobRuns.modify_of_ne hid, hrow]
    | isCancelled | fetch | execute => exact ⟨row, hrow, hstatus⟩
    | insertRun | finishRun | failRun => exact hcall.elim
  · exact ⟨row, hrow, hstatus⟩

theorem keepsStatus_trace (h : Trace RunActs runs tr runs')
    (hcalls : ∀ x ∈ tr, KeepsStatus x.1) (hrunning : Running runs runId) :
    Running runs' runId := by
  induction h with
  | nil runs => exact hrunning
  | cons hact _ ih =>
      have hfirst := keepsStatus_acts (hcalls _ (.head _)) hact hrunning
      exact ih (fun x hx => hcalls x (.tail _ hx)) hfirst

theorem WalkCall.keepsStatus {e : SnapshotCall} (h : WalkCall runId e) :
    KeepsStatus e := by
  cases e with
  | insertRun | finishRun | failRun => exact h.elim
  | _ => trivial

/-! ## The ways to return -/

/-- A statement behind a complete walk, or the closing update. -/
def Concludes (runId : Uuid) : SnapshotCall → Prop
  | .execute s => s ∈ closing runId
  | .finishRun _ _ _ _ => True
  | _ => False

def IsFailRun : SnapshotCall → Prop
  | .failRun _ _ => True
  | _ => False

theorem closeWalk_executes :
    (closeWalk runId).Only fun e => ∃ s ∈ closing runId, e = .execute s := by
  refine ⟨⟨_, .head _, rfl⟩, fun r => ?_⟩
  cases r with
  | error e => exact only_ret _
  | ok u =>
      refine ⟨⟨_, .tail _ (.head _), rfl⟩, fun r => ?_⟩
      cases r with
      | error e => exact only_ret _
      | ok u => exact (only_issue _).mpr ⟨_, .tail _ (.tail _ (.head _)), rfl⟩

theorem closingStatus_ne (completed : Bool) :
    (if completed then "completed" else "partial") ≠ "failed" ∧
      (if completed then "completed" else "partial") ≠ "running" := by
  cases completed <;> decide

/-- **The closing update settles the row, unless it fails.** -/
theorem finish_settled {totals : Totals} {completed : Bool}
    (h : Runs (finish runId totals completed) tr out)
    (hacts : Trace RunActs runs tr runs') (hrunning : Running runs runId) :
    RowSettled runs' runId out ↔ ∀ x ∈ tr, Concludes runId x.1 → ¬ Failed x := by
  have hrunning' := hrunning
  obtain ⟨row, hrow, -⟩ := hrunning'
  obtain ⟨hnotFailed, hnotRunning⟩ := closingStatus_ne completed
  simp only [finish, bind_eq, issue_bind, pure_eq, runs_call] at h
  obtain ⟨r, rest, rfl, h⟩ := h
  cases r with
  | error e =>
      obtain ⟨rfl, rfl⟩ := runs_ret.mp h
      obtain ⟨_, hact, hnil⟩ := hacts.cons_inv
      cases hnil
      refine iff_of_false ?_ fun hall => hall _ (.head _) trivial trivial
      intro hsettled
      rcases hact with rfl | ⟨-, rfl⟩
      · -- made all the same: the caller gets an error of a run that has ended well
        obtain ⟨row', hrow', hfailed, -⟩ := hsettled.failed e rfl
        rw [SnapshotCall.applyRun, JobRuns.completeJobRun_self, hrow] at hrow'
        obtain rfl := Option.some.inj hrow'
        exact hnotFailed hfailed
      · exact hsettled.notRunning hrunning
  | ok u =>
      obtain ⟨rfl, rfl⟩ := runs_ret.mp h
      obtain ⟨_, hact, hnil⟩ := hacts.cons_inv
      cases hnil
      obtain rfl | ⟨hfail, -⟩ := hact
      · refine iff_of_true ⟨nofun, ?_⟩ ?_
        · rintro ⟨row', hrow', hstatus⟩
          rw [SnapshotCall.applyRun, JobRuns.completeJobRun_self, hrow] at hrow'
          obtain rfl := Option.some.inj hrow'
          exact hnotRunning hstatus
        · intro x hx _
          obtain rfl := List.mem_singleton.mp hx
          exact id
      · exact hfail.elim

/-- The error of a walk is closed with the row. -/
theorem failed_settled {e : String} (h : Runs (conclude runId (.error e)) tr out)
    (hacts : Trace RunActs runs tr runs')
    (haccepts : ∀ x ∈ tr, IsFailRun x.1 → ¬ Failed x) (hrunning : Running runs runId) :
    RowSettled runs' runId out ∧ ∀ x ∈ tr, ¬ Concludes runId x.1 := by
  simp only [conclude, bind_eq, issue_bind, pure_eq, runs_call, runs_ret] at h
  obtain ⟨r, _, rfl, rfl, rfl⟩ := h
  obtain ⟨_, hact, hnil⟩ := hacts.cons_inv
  cases hnil
  obtain ⟨row, hrow, -⟩ := hrunning
  obtain rfl | ⟨hfail, -⟩ := hact
  · have hclosed : (SnapshotCall.failRun runId e).applyRun runs runId = some
        { row with status := "failed", finished := true, errorMessage := some e } := by
      rw [SnapshotCall.applyRun, JobRuns.markJobRunFailed_self, hrow, Option.map_some]
    refine ⟨⟨fun _ _ => ⟨_, hclosed, rfl, rfl⟩, ?_⟩, ?_⟩
    · rintro ⟨row', hrow', hstatus⟩
      obtain rfl := Option.some.inj (hclosed.symm.trans hrow')
      have hsame : "failed" = "running" := hstatus
      exact absurd hsame (by decide)
    · intro x hx hconcludes
      obtain rfl := List.mem_singleton.mp hx
      exact hconcludes
  · exact absurd hfail (haccepts _ (.head _) trivial)

/-- **An error behind a complete walk leaves the row as it is.** -/
theorem conclude_settled {result : Except String (Totals × Bool)}
    (h : Runs (conclude runId result) tr out) (hacts : Trace RunActs runs tr runs')
    (haccepts : ∀ x ∈ tr, IsFailRun x.1 → ¬ Failed x) (hrunning : Running runs runId) :
    RowSettled runs' runId out ↔ ∀ x ∈ tr, Concludes runId x.1 → ¬ Failed x := by
  rcases result with e | ⟨totals, _ | _⟩
  · obtain ⟨hsettled, hnone⟩ := failed_settled h hacts haccepts hrunning
    exact iff_of_true hsettled fun x hx hconcludes => absurd hconcludes (hnone x hx)
  · exact finish_settled h hacts hrunning
  · simp only [conclude, bind_eq, runs_bind] at h
    obtain ⟨r, closed, rest, rfl, hclosed, h⟩ := h
    obtain ⟨runs₁, hacts₁, hacts₂⟩ := hacts.of_append
    -- the statements do not touch the row
    have hcalls := closeWalk_executes.runs hclosed
    have hrunning₁ : Running runs₁ runId := by
      refine keepsStatus_trace hacts₁ (fun x hx => ?_) hrunning
      obtain ⟨s, -, hs⟩ := hcalls x hx
      rw [hs]
      trivial
    obtain ⟨⟨e, rfl⟩, x, hx, hrefused⟩ | ⟨rfl, hclosing⟩ := closeWalk_runs hclosed
    · obtain ⟨rfl, rfl⟩ := runs_ret.mp h
      cases hacts₂
      rw [List.append_nil]
      refine iff_of_false (fun hsettled => hsettled.notRunning hrunning₁) fun hall => ?_
      obtain ⟨s, hs, hcall⟩ := hcalls x hx
      obtain ⟨e, r⟩ := x
      obtain rfl : e = .execute s := hcall
      cases r with
      | error m => exact hall _ hx hs trivial
      | ok u => exact hrefused
    · rw [finish_settled h hacts₂ hrunning₁]
      constructor
      · intro hall x hx
        rcases List.mem_append.mp hx with hx | hx
        · rw [hclosing] at hx
          obtain ⟨s, -, rfl⟩ := List.mem_map.mp hx
          exact fun _ => id
        · exact hall x hx
      · exact fun hall x hx => hall x (List.mem_append_right _ hx)

/-- **The row of a run that returns** says `failed` for an error and is not left
as `running`, exactly if neither a statement behind the walk nor the closing
update fails. -/
theorem lifecycle_iff (runId : Uuid) (requestedBy : String) (limit : Option ℕ)
    (tr : List SnapshotExchange) (out : Except String ChainSnapshotSummary)
    (hrun : Runs (runChainSnapshot runId requestedBy limit) tr out)
    (runs runs' : SnapshotRuns) (hacts : Trace RunActs runs tr runs')
    (hinserted : ⟨.insertRun runId "chain_snapshot" requestedBy, .ok ()⟩ ∈ tr)
    (haccepts : ∀ x ∈ tr, IsFailRun x.1 → ¬ Failed x) :
    RowSettled runs' runId out ↔ ∀ x ∈ tr, Concludes runId x.1 → ¬ Failed x := by
  cases runChainSnapshot_runs hrun with
  | notInserted e =>
      cases List.mem_singleton.mp hinserted
  | walked walkTr rest result _ hwalk honly hrest =>
      obtain ⟨runs₁, hact, hacts₁⟩ := hacts.cons_inv
      obtain ⟨runs₂, hwalked, hconcluded⟩ := hacts₁.of_append
      have hrunning : Running runs₂ runId := keepsStatus_trace hwalked
        (fun x hx => (honly x hx).keepsStatus) (inserted_running hact)
      rw [conclude_settled hrest hconcluded (fun x hx => haccepts x
        (.tail _ (List.mem_append_right _ hx))) hrunning]
      constructor
      · intro hall x hx
        rcases List.mem_cons.mp hx with rfl | hx
        · exact fun h => h.elim
        rcases List.mem_append.mp hx with hx | hx
        · -- a walk executes upserts only
          intro hconcludes
          have hcall := honly x hx
          obtain ⟨e, r⟩ := x
          cases e with
          | execute s =>
              obtain ⟨post, rfl⟩ := hcall
              have hmem : ChainStatement.upsertChainPost post runId ∈ closing runId :=
                hconcludes
              simp [closing] at hmem
          | finishRun => exact hcall.elim
          | _ => exact hconcludes.elim
        · exact hall x hx
      · exact fun hall x hx => hall x (.tail _ (List.mem_append_right _ hx))

/-! ## Two runs that return an error -/

def noRuns : SnapshotRuns := fun _ => none

def insertedRun : SnapshotExchange :=
  ⟨.insertRun 7 "chain_snapshot" "admin", .ok ()⟩

/-- The first page does not come. -/
def noPageTrace : List SnapshotExchange := [insertedRun,
  ⟨.isCancelled, false⟩,
  ⟨.fetch pageSize none, .error "fetch_posts failed: timeout"⟩,
  ⟨.failRun 7 "fetch_posts failed: timeout", .ok ()⟩]

theorem noPage_runs : Runs (runChainSnapshot 7 "admin" none) noPageTrace
    (.error "fetch_posts failed: timeout") :=
  .call (.call (.call (.call (.ret _))))

/-- The chain has no posts, and the posts cannot be flagged. -/
def notFlaggedTrace : List SnapshotExchange := [insertedRun,
  ⟨.isCancelled, false⟩,
  ⟨.fetch pageSize none, .ok ⟨[], none⟩⟩,
  ⟨.recordProgress 7 none { pages := 1 }, .ok ()⟩,
  ⟨.execute (.markStalePosts 7), .error "connection closed"⟩]

theorem notFlagged_runs : Runs (runChainSnapshot 7 "admin" none) notFlaggedTrace
    (.error "connection closed") :=
  .call (.call (.call (.call (.call (.ret _)))))

/-- Every update may be made. -/
theorem exists_runActs (runs : SnapshotRuns) (tr : List SnapshotExchange) :
    ∃ runs', Trace RunActs runs tr runs' := by
  induction tr generalizing runs with
  | nil => exact ⟨runs, .nil runs⟩
  | cons x tr ih =>
      obtain ⟨runs', h⟩ := ih (x.1.applyRun runs)
      exact ⟨runs', .cons (.inl rfl) h⟩

theorem lifecycle_noPage : ∃ runs', Trace RunActs noRuns noPageTrace runs' ∧
    RowSettled runs' 7 (.error "fetch_posts failed: timeout") := by
  obtain ⟨runs', hacts⟩ := exists_runActs noRuns noPageTrace
  refine ⟨runs', hacts, (lifecycle_iff 7 "admin" none noPageTrace _ noPage_runs noRuns
    runs' hacts (.head _) ?_).mpr ?_⟩
  · simp [noPageTrace, insertedRun, IsFailRun, Failed]
  · simp [noPageTrace, insertedRun, Concludes, Failed]

/-- Every statement behind the error would have been accepted: none was made. -/
theorem lifecycle_left_running :
    Runs (runChainSnapshot 7 "admin" none) notFlaggedTrace (.error "connection closed") ∧
      (∀ x ∈ notFlaggedTrace, IsFailRun x.1 → ¬ Failed x) ∧
      ∃ runs', Trace RunActs noRuns notFlaggedTrace runs' ∧ Running runs' 7 ∧
        ¬ RowSettled runs' 7 (.error "connection closed") := by
  obtain ⟨runs', hacts⟩ := exists_runActs noRuns notFlaggedTrace
  obtain ⟨runs₁, hact, hrest⟩ := hacts.cons_inv
  have hrunning : Running runs' 7 :=
    keepsStatus_trace hrest (by simp [KeepsStatus]) (inserted_running hact)
  refine ⟨notFlagged_runs, ?_, runs', hacts, hrunning, fun h => h.notRunning hrunning⟩
  simp [notFlaggedTrace, insertedRun, IsFailRun]

end VideoStorage.Chain
