import VideoStorage.Db.Queries
import VideoStorage.Foundation.Program

/-!
# Mirror-job states

What a job's status says about its video. Every query of the pipeline keeps it
from every state but one: `reset_failed_to_retry` makes a failed job
`phash_computed` whether or not its video has a hash (`sound_reset_iff`).
-/

namespace VideoStorage.Db

open Foundation
open Relation (ReflTransGen)

/-! ## A job and its video -/

/-- What a status promises. -/
structure Coherent (v : VideoIndexRow) (j : MirrorJob) : Prop where
  hashed : j.status = .phashComputed ∨ j.status = .mirrored → v.phash.isSome
  mirrored : j.status = .mirrored → v.storjKey.isSome
  hetzner : v.hetznerKey.isSome
  notDone : j.status ≠ .done

/-- Every job is coherent with its video. -/
def Sound (t : VideoTables) : Prop :=
  ∀ id v j, t.video id = some v → t.job id = some j → Coherent v j

/-- Hashed and mirrored jobs have their data, and a video without a hash is in the
next hash batch's selection unless its job failed. -/
structure JobStates (t : VideoTables) : Prop where
  hashed : ∀ id v j, t.video id = some v → t.job id = some j →
    j.status = .phashComputed ∨ j.status = .mirrored → v.phash.isSome
  mirrored : ∀ id v j, t.video id = some v → t.job id = some j →
    j.status = .mirrored → v.storjKey.isSome
  selectable : ∀ id v j, t.video id = some v → t.job id = some j →
    v.phash = none → j.status ≠ .failed →
    ∃ row ∈ joinWhere phashPending t, row.videoId = id

section Queries

variable {t t' : VideoTables} {videoId key : String} {v : VideoIndexRow}
  {j : MirrorJob}

/-- Without a hash a job is pending or failed. -/
theorem Coherent.pending_of_unhashed (h : Coherent v j) (hnone : v.phash = none)
    (hfailed : j.status ≠ .failed) : j.status = .pending := by
  have hnot : ¬ (j.status = .phashComputed ∨ j.status = .mirrored) := by
    intro hs
    have hsome := h.hashed hs
    rw [hnone] at hsome
    cases hsome
  have hdone := h.notDone
  cases hs : j.status <;> simp_all

theorem Sound.jobStates (h : Sound t) : JobStates t where
  hashed id v j hv hj := (h id v j hv hj).hashed
  mirrored id v j hv hj := (h id v j hv hj).mirrored
  selectable id v j hv hj hnone hfailed := by
    have hco := h id v j hv hj
    obtain ⟨key, hkey⟩ := Option.isSome_iff_exists.mp hco.hetzner
    have hpending := hco.pending_of_unhashed hnone hfailed
    refine ⟨⟨id, key⟩, mem_joinWhere.mpr ⟨v, j, hv, hj, hkey, ?_⟩, rfl⟩
    simp [phashPending, hpending, hnone]

theorem sound_empty : Sound {} := EachJob.empty

theorem Sound.upsertStorjKey (h : Sound t) :
    Sound (upsertStorjKey videoId key t) := by
  apply EachJob.upsertVideo h
  intro v j hco
  exact ⟨hco.hashed, fun _ => rfl, hco.hetzner, hco.notDone⟩

theorem Coherent.reset (h : Coherent v j) : Coherent v j.reset := by
  unfold MirrorJob.reset
  split
  · exact ⟨by simp, by simp, h.hetzner, by simp⟩
  · exact h

theorem Sound.upsertStorjKeyWithReset (h : Sound t) :
    Sound (upsertStorjKeyWithReset videoId key t) := by
  apply EachJob.updateJob h.upsertStorjKey
  intro v j _ _ hco
  exact hco.reset

/-- A status that `statusFor` chose is true of the hash it was chosen by. -/
theorem coherent_statusFor {v : VideoIndexRow} {j : MirrorJob}
    (hkey : v.hetznerKey = some key) (hs : j.status = statusFor v.phash) :
    Coherent v j := by
  have hsome : v.hetznerKey.isSome := hkey ▸ rfl
  unfold statusFor at hs
  cases hphash : v.phash with
  | none =>
      rw [hphash] at hs
      have hpending : j.status = .pending := hs
      exact ⟨by simp [hpending], by simp [hpending], hsome, by simp [hpending]⟩
  | some p =>
      rw [hphash] at hs
      have hcomputed : j.status = .phashComputed := hs
      exact ⟨by simp [hphash], by simp [hcomputed], hsome, by simp [hcomputed]⟩

/-- The two Hetzner upserts: a job keeps its status or gets the one that fits. -/
theorem Sound.upsertHetzner (h : Sound t) {isTemp : Bool}
    {onConflict : MirrorStatus → MirrorJob → MirrorJob}
    (hconflict : ∀ s j, (onConflict s j).status = j.status ∨
      (onConflict s j).status = s) :
    Sound (upsertHetzner videoId key isTemp onConflict t) := by
  apply EachJob.upsertHetzner h
  · intro v j hco
    exact ⟨hco.hashed, hco.mirrored, rfl, hco.notDone⟩
  · intro v hkey
    exact coherent_statusFor hkey rfl
  · intro v j hkey hco
    rcases hconflict (statusFor v.phash) { j with isTemp := isTemp } with hs | hs
    · refine ⟨?_, ?_, hco.hetzner, ?_⟩
      · intro hor
        exact hco.hashed (by simpa [hs] using hor)
      · intro heq
        exact hco.mirrored (by simpa [hs] using heq)
      · intro heq
        exact hco.notDone (by simpa [hs] using heq)
    · exact coherent_statusFor hkey hs

theorem Sound.upsertHetznerKey (h : Sound t) {isTemp : Bool} :
    Sound (upsertHetznerKey videoId key isTemp t) := by
  apply h.upsertHetzner
  intro s j
  split
  · exact .inr rfl
  · exact .inl rfl

theorem Sound.upsertHetznerKeyWithReset (h : Sound t) {isTemp : Bool} :
    Sound (upsertHetznerKeyWithReset videoId key isTemp t) := by
  apply h.upsertHetzner
  intro s j
  split_ifs
  · exact .inr rfl
  · exact .inr rfl
  · exact .inl rfl

theorem Sound.updatePhashSuccess (h : Sound t) {phash kind version : String} :
    Sound (updatePhashSuccess videoId phash kind version t) := by
  apply EachJob.updateJob
  · apply EachJob.updateVideo h
    intro v j hco
    exact ⟨fun _ => rfl, hco.mirrored, hco.hetzner, hco.notDone⟩
  · intro v j hv _ hco
    split
    · rw [VideoTables.video_updateVideo, if_pos rfl] at hv
      obtain ⟨v₀, -, rfl⟩ := Option.map_eq_some_iff.mp hv
      exact ⟨fun _ => rfl, nofun, hco.hetzner, nofun⟩
    · exact hco

theorem Sound.updatePhashFailure (h : Sound t) {error : String} {maxRetries : ℤ}
    {n : ℕ} (hup : updatePhashFailure videoId error maxRetries t = .ok (n, t')) :
    Sound t' := by
  obtain ⟨j, -, rfl⟩ := updatePhashFailure_ok hup
  apply EachJob.updateJob h
  intro v j _ _ hco
  -- neither status asks for anything but the key
  split
  · exact ⟨by simp, by simp, hco.hetzner, by simp⟩
  · exact ⟨by simp, by simp, hco.hetzner, by simp⟩

theorem Sound.updateMirrorSuccess (h : Sound t) :
    Sound (updateMirrorSuccess videoId key t) := by
  apply EachJob.updateJob
  · apply EachJob.updateVideo h
    intro v j hco
    exact ⟨hco.hashed, fun _ => rfl, hco.hetzner, hco.notDone⟩
  · intro v j hv _ hco
    split
    · rename_i hs
      rw [VideoTables.video_updateVideo, if_pos rfl] at hv
      obtain ⟨v₀, -, rfl⟩ := Option.map_eq_some_iff.mp hv
      exact ⟨fun _ => hco.hashed (.inl hs), fun _ => rfl, hco.hetzner, nofun⟩
    · exact hco

theorem Sound.updateError (h : Sound t) {error : String} :
    Sound (updateError videoId error t) := by
  apply EachJob.updateJob h
  intro v j _ _ hco
  exact ⟨hco.hashed, hco.mirrored, hco.hetzner, hco.notDone⟩

/-- No failed job of a video without a hash. -/
def FailedHashed (t : VideoTables) : Prop :=
  ∀ id v j, t.video id = some v → t.job id = some j → j.status = .failed →
    v.phash.isSome

/-- A reset that meets only hashed videos keeps every job coherent. -/
theorem Sound.reset (h : Sound t) (hhashed : FailedHashed t) :
    Sound (resetFailedToRetry t).2 := by
  intro id v j hv hj
  rw [show (resetFailedToRetry t).2.job id = _ from
    VideoTables.job_updateJobs] at hj
  obtain ⟨j₀, hj₀, rfl⟩ := Option.map_eq_some_iff.mp hj
  have hco := h id v j₀ hv hj₀
  unfold MirrorJob.retry
  split
  · rename_i hfailed
    exact ⟨fun _ => hhashed id v j₀ hv hj₀ hfailed, nofun, hco.hetzner, nofun⟩
  · exact hco

/-- **The reset** keeps the invariant exactly when every failed video has its
hash. -/
theorem sound_reset_iff (h : Sound t) :
    JobStates (resetFailedToRetry t).2 ↔ FailedHashed t := by
  constructor
  · intro hstates id v j hv hj hfailed
    have hj' : (resetFailedToRetry t).2.job id = some j.retry := by
      show (t.updateJobs MirrorJob.retry).job id = _
      rw [VideoTables.job_updateJobs, hj]
      rfl
    refine hstates.hashed id v j.retry hv hj' (.inl ?_)
    unfold MirrorJob.retry
    rw [if_pos hfailed]
  · exact fun hhashed => (h.reset hhashed).jobStates

end Queries

/-! ## The jobs, one at a time -/

/-- The tables and the batch a job is working on, as far as it is not written
back. -/
structure PipelineState where
  tables : VideoTables := {}
  phashBatch : List VideoRow := []
  mirrorBatch : List VideoRow := []

namespace PipelineState

/-- No job is at work. -/
def Idle (s : PipelineState) : Prop := s.phashBatch = [] ∧ s.mirrorBatch = []

end PipelineState

/-- One query of the scans, of the jobs, or of the retry endpoint, which runs
only where `G` allows. A batch that is not finished may be given up. -/
inductive PipelineStep (G : VideoTables → Prop) (s : PipelineState) :
    PipelineState → Prop
  | storjKey (videoId key : String) (hidle : s.Idle) :
      PipelineStep G s
        { s with tables := upsertStorjKey videoId key s.tables }
  | storjKeyWithReset (videoId key : String) (hidle : s.Idle) :
      PipelineStep G s
        { s with tables := upsertStorjKeyWithReset videoId key s.tables }
  | hetznerKey (videoId key : String) (isTemp : Bool) (hidle : s.Idle) :
      PipelineStep G s
        { s with tables := upsertHetznerKey videoId key isTemp s.tables }
  | hetznerKeyWithReset (videoId key : String) (isTemp : Bool) (hidle : s.Idle) :
      PipelineStep G s
        { s with tables := upsertHetznerKeyWithReset videoId key isTemp s.tables }
  | fetchPhash (order : Shuffle VideoRow) (limit : ℤ) (rows : List VideoRow)
      (hidle : s.Idle)
      (hfetch : fetchPendingPhashBatch order limit s.tables = .ok rows) :
      PipelineStep G s { s with phashBatch := rows }
  | phashSuccess (row : VideoRow) (phash kind version : String)
      (hrow : row ∈ s.phashBatch) :
      PipelineStep G s { s with
        tables := updatePhashSuccess row.videoId phash kind version s.tables
        phashBatch := s.phashBatch.erase row }
  | phashFailure (row : VideoRow) (error : String) (maxRetries : ℤ) (n : ℕ)
      (t : VideoTables) (hrow : row ∈ s.phashBatch)
      (hup : updatePhashFailure row.videoId error maxRetries s.tables
        = .ok (n, t)) :
      PipelineStep G s
        { s with tables := t, phashBatch := s.phashBatch.erase row }
  | fetchMirror (order : Shuffle VideoRow) (limit : ℤ) (rows : List VideoRow)
      (hidle : s.Idle)
      (hfetch : fetchPendingMirrorBatch order limit s.tables = .ok rows) :
      PipelineStep G s { s with mirrorBatch := rows }
  | mirrorSuccess (row : VideoRow) (hrow : row ∈ s.mirrorBatch) :
      PipelineStep G s { s with
        tables := updateMirrorSuccess row.videoId row.hetznerKey s.tables
        mirrorBatch := s.mirrorBatch.erase row }
  | mirrorError (row : VideoRow) (error : String) (hrow : row ∈ s.mirrorBatch) :
      PipelineStep G s { s with
        tables := updateError row.videoId error s.tables
        mirrorBatch := s.mirrorBatch.erase row }
  | giveUp : PipelineStep G s { s with phashBatch := [], mirrorBatch := [] }
  | reset (hg : G s.tables) :
      PipelineStep G s { s with tables := (resetFailedToRetry s.tables).2 }

section Runs

variable {s s' : PipelineState} {id : String}

theorem Sound.step (h : Sound s.tables) (hstep : PipelineStep FailedHashed s s') :
    Sound s'.tables := by
  cases hstep with
  | storjKey videoId key _ => exact h.upsertStorjKey
  | storjKeyWithReset videoId key _ => exact h.upsertStorjKeyWithReset
  | hetznerKey videoId key isTemp _ => exact h.upsertHetznerKey
  | hetznerKeyWithReset videoId key isTemp _ => exact h.upsertHetznerKeyWithReset
  | fetchPhash order limit rows _ _ => exact h
  | phashSuccess row phash kind version _ => exact h.updatePhashSuccess
  | phashFailure row error maxRetries n t _ hup => exact h.updatePhashFailure hup
  | fetchMirror order limit rows _ _ => exact h
  | mirrorSuccess row _ => exact h.updateMirrorSuccess
  | mirrorError row error _ => exact h.updateError
  | giveUp => exact h
  | reset hg => exact h.reset hg

/-- **Job states.** In every state of a run from empty tables in which the reset
only ever meets failed videos with a hash, the statuses are true. -/
theorem job_states
    (hrun : ReflTransGen (PipelineStep FailedHashed) {} s) :
    JobStates s.tables :=
  (run_invariant (fun s : PipelineState => Sound s.tables)
    (fun _ _ h hstep => h.step hstep) hrun sound_empty).jobStates

/-- One video was scanned, and its hash batch fetched. -/
def oneFetched : PipelineState where
  tables := upsertHetznerKey "v" "u/v.mp4" false {}
  phashBatch := [⟨"v", "u/v.mp4"⟩]

theorem oneFetched_run (G : VideoTables → Prop) :
    ReflTransGen (PipelineStep G) {} oneFetched :=
  .tail (.single (.hetznerKey "v" "u/v.mp4" false ⟨rfl, rfl⟩))
    (.fetchPhash .none 2500 _ ⟨rfl, rfl⟩ rfl)

theorem job_states_hashed :
    JobStates (updatePhashSuccess "v" "0101" "phash" "legacy_hex_8x8_v0"
      oneFetched.tables) :=
  job_states ((oneFetched_run _).tail
    (.phashSuccess ⟨"v", "u/v.mp4"⟩ "0101" "phash" "legacy_hex_8x8_v0"
      List.mem_cons_self))

/-- The hash fails for the last time, and the reset makes the job
`phash_computed`. -/
theorem reset_unhashed : ∃ s, ReflTransGen (PipelineStep fun _ => True) {} s ∧
    ¬ JobStates s.tables := by
  refine ⟨_, ((oneFetched_run _).tail (.phashFailure ⟨"v", "u/v.mp4"⟩
    "download u/v.mp4: 404" 1 1 _ List.mem_cons_self rfl)).tail (.reset trivial),
    ?_⟩
  intro hstates
  have hhashed := hstates.hashed "v" { hetznerKey := some "u/v.mp4" }
    { status := .phashComputed } rfl rfl (.inl rfl)
  cases hhashed

end Runs

end VideoStorage.Db
