import VideoStorage.Db.Queries
import VideoStorage.Foundation.Trace

/-!
# Jobs that overlap

The queries of two hash runs, a mirror run and the scans, in any order. A batch
is fetched in one query and written back row by row much later, when other
queries may have moved its jobs on. The success of a hash is guarded by the
status it expects; the failure is not (`no_regress_iff`).
-/

namespace VideoStorage.Db

open Foundation

/-- Who started a hash run. -/
inductive PhashRun
  | endpoint | pipeline
  deriving DecidableEq, Repr

/-- The tables, and what each run has fetched and not written back. -/
structure OverlapState where
  tables : VideoTables := {}
  phashBatch : PhashRun → List VideoRow := fun _ => []
  mirrorBatch : List VideoRow := []

namespace OverlapState

variable (s : OverlapState)

/-- A query that leaves the batches alone. -/
def withTables (t : VideoTables) : OverlapState := { s with tables := t }

def withPhashBatch (r : PhashRun) (rows : List VideoRow) : OverlapState :=
  { s with phashBatch := Function.update s.phashBatch r rows }

def withMirrorBatch (rows : List VideoRow) : OverlapState :=
  { s with mirrorBatch := rows }

end OverlapState

/-- A query of one of the jobs. -/
inductive JobQuery
  | storjKey (videoId key : String)
  | storjKeyWithReset (videoId key : String)
  | hetznerKey (videoId key : String) (isTemp : Bool)
  | hetznerKeyWithReset (videoId key : String) (isTemp : Bool)
  | fetchPhash (r : PhashRun) (order : Shuffle VideoRow) (limit : ℤ)
  | phashSuccess (r : PhashRun) (row : VideoRow) (phash kind version : String)
  | phashFailure (r : PhashRun) (row : VideoRow) (error : String)
  /-- Cancelled, limited or failed: the rest of the batch is not written. -/
  | phashEnd (r : PhashRun)
  | fetchMirror (order : Shuffle VideoRow) (limit : ℤ)
  | mirrorSuccess (row : VideoRow)
  | mirrorError (row : VideoRow) (error : String)
  | mirrorEnd

/-- One query. A run fetches when its last batch is written; which of its rows
it writes next, and with what outcome, is open. A query that fails ends its
run and changes nothing. -/
inductive OverlapStep (maxRetries : ℤ) (s : OverlapState) :
    JobQuery → OverlapState → Prop
  | storjKey (videoId key : String) :
      OverlapStep maxRetries s (.storjKey videoId key)
        (s.withTables (upsertStorjKey videoId key s.tables))
  | storjKeyWithReset (videoId key : String) :
      OverlapStep maxRetries s (.storjKeyWithReset videoId key)
        (s.withTables (upsertStorjKeyWithReset videoId key s.tables))
  | hetznerKey (videoId key : String) (isTemp : Bool) :
      OverlapStep maxRetries s (.hetznerKey videoId key isTemp)
        (s.withTables (upsertHetznerKey videoId key isTemp s.tables))
  | hetznerKeyWithReset (videoId key : String) (isTemp : Bool) :
      OverlapStep maxRetries s (.hetznerKeyWithReset videoId key isTemp)
        (s.withTables (upsertHetznerKeyWithReset videoId key isTemp s.tables))
  | fetchPhash (r : PhashRun) (order : Shuffle VideoRow) (limit : ℤ)
      (rows : List VideoRow) (hdone : s.phashBatch r = [])
      (hfetch : fetchPendingPhashBatch order limit s.tables = .ok rows) :
      OverlapStep maxRetries s (.fetchPhash r order limit)
        (s.withPhashBatch r rows)
  | phashSuccess (r : PhashRun) (row : VideoRow) (phash kind version : String)
      (hrow : row ∈ s.phashBatch r) :
      OverlapStep maxRetries s (.phashSuccess r row phash kind version)
        ((s.withTables
          (updatePhashSuccess row.videoId phash kind version s.tables))
          |>.withPhashBatch r ((s.phashBatch r).erase row))
  | phashFailure (r : PhashRun) (row : VideoRow) (error : String) (n : ℕ)
      (t : VideoTables) (hrow : row ∈ s.phashBatch r)
      (hup : updatePhashFailure row.videoId error maxRetries s.tables
        = .ok (n, t)) :
      OverlapStep maxRetries s (.phashFailure r row error)
        ((s.withTables t).withPhashBatch r ((s.phashBatch r).erase row))
  | phashEnd (r : PhashRun) :
      OverlapStep maxRetries s (.phashEnd r) (s.withPhashBatch r [])
  | fetchMirror (order : Shuffle VideoRow) (limit : ℤ) (rows : List VideoRow)
      (hdone : s.mirrorBatch = [])
      (hfetch : fetchPendingMirrorBatch order limit s.tables = .ok rows) :
      OverlapStep maxRetries s (.fetchMirror order limit)
        (s.withMirrorBatch rows)
  | mirrorSuccess (row : VideoRow) (hrow : row ∈ s.mirrorBatch) :
      OverlapStep maxRetries s (.mirrorSuccess row)
        ((s.withTables
          (updateMirrorSuccess row.videoId row.hetznerKey s.tables))
          |>.withMirrorBatch (s.mirrorBatch.erase row))
  | mirrorError (row : VideoRow) (error : String) (hrow : row ∈ s.mirrorBatch) :
      OverlapStep maxRetries s (.mirrorError row error)
        ((s.withTables (updateError row.videoId error s.tables))
          |>.withMirrorBatch (s.mirrorBatch.erase row))
  | mirrorEnd : OverlapStep maxRetries s .mirrorEnd (s.withMirrorBatch [])

/-! ## No hash is lost -/

/-- The job is neither waiting for a hash nor given up on. -/
def MirrorJob.PastHash (j : MirrorJob) : Prop :=
  j.status ≠ .pending ∧ j.status ≠ .failed

/-- The videos with a hash in `t` have jobs past it in `t'`. -/
def NotRegressed (t t' : VideoTables) : Prop :=
  ∀ id v j, t.video id = some v → v.phash.isSome → t'.job id = some j →
    j.PastHash

/-- Every pending job with a Hetzner key is among the rows of a hash batch. -/
def PendingSelectable (t : VideoTables) : Prop :=
  ∀ id v j, t.video id = some v → t.job id = some j → j.status = .pending →
    v.hetznerKey.isSome → ∃ row ∈ joinWhere phashPending t, row.videoId = id

/-- At every moment of the run of `es`: what had a hash at any earlier moment is
past it, and what is pending can be selected. -/
def NoRegress (maxRetries : ℤ) (es : List JobQuery) : Prop :=
  ∀ es₁ es₂ s s', es₁ ++ es₂ <+: es → Trace (OverlapStep maxRetries) {} es₁ s →
    Trace (OverlapStep maxRetries) s es₂ s' →
    NotRegressed s.tables s'.tables ∧ PendingSelectable s'.tables

/-- An outcome is written in time: no failure for a video that has its hash by
now, and no success for a job that another run has failed. -/
def InTime (s : OverlapState) : JobQuery → Prop
  | .phashFailure _ row _ => ∀ v, s.tables.video row.videoId = some v →
      v.phash = none
  | .phashSuccess _ row _ _ _ => ∀ j, s.tables.job row.videoId = some j →
      j.status ≠ .failed
  | _ => True

section Steps

variable {maxRetries : ℤ} {s s' : OverlapState} {q : JobQuery}
  {t t' : VideoTables} {videoId key : String}

/-- A video with a hash has a job that is past it. -/
def Settled (v : VideoIndexRow) (j : MirrorJob) : Prop :=
  v.phash.isSome → j.PastHash

theorem settled_iff : EachJob Settled t ↔ NotRegressed t t := by
  constructor
  · intro h id v j hv hphash hj
    exact h id v j hv hj hphash
  · intro h id v j hv hj hphash
    exact h id v j hv hphash hj

/-- A pending job that is settled has a video without a hash. -/
theorem pendingSelectable_of_settled (h : EachJob Settled t) :
    PendingSelectable t := by
  intro id v j hv hj hpending hkey
  obtain ⟨key, hkey⟩ := Option.isSome_iff_exists.mp hkey
  have hnone : v.phash = none := by
    by_contra hsome
    have hpast := h id v j hv hj (Option.isSome_iff_ne_none.mpr hsome)
    exact hpast.1 hpending
  refine ⟨⟨id, key⟩, mem_joinWhere.mpr ⟨v, j, hv, hj, hkey, ?_⟩, rfl⟩
  simp [phashPending, hpending, hnone]

/-! ### What one query does to a settled job -/

theorem settled_storjKey (h : EachJob Settled t) :
    EachJob Settled (upsertStorjKey videoId key t) := by
  apply EachJob.upsertVideo h
  intro v j hsettled
  exact hsettled

theorem settled_storjKeyWithReset (h : EachJob Settled t) :
    EachJob Settled (upsertStorjKeyWithReset videoId key t) := by
  apply EachJob.updateJob (settled_storjKey h)
  intro v j _ _ hsettled hphash
  have hpast := hsettled hphash
  unfold MirrorJob.reset
  rw [if_neg hpast.2]
  exact hpast

/-- The status that fits a hash is past it. -/
theorem settled_statusFor {v : VideoIndexRow} {j : MirrorJob}
    (hs : j.status = statusFor v.phash) : Settled v j := by
  intro hphash
  unfold statusFor at hs
  rw [if_pos hphash] at hs
  unfold MirrorJob.PastHash
  rw [hs]
  exact ⟨by decide, by decide⟩

/-- The two Hetzner upserts, which leave a job as it is or give it the status
that fits. -/
theorem settled_upsertHetzner (h : EachJob Settled t) {isTemp : Bool}
    {onConflict : MirrorStatus → MirrorJob → MirrorJob}
    (hconflict : ∀ s j, (onConflict s j).status = j.status ∨
      (onConflict s j).status = s) :
    EachJob Settled (upsertHetzner videoId key isTemp onConflict t) := by
  apply EachJob.upsertHetzner h
  · intro v j hsettled
    exact hsettled
  · intro v _
    exact settled_statusFor rfl
  · intro v j _ hsettled
    rcases hconflict (statusFor v.phash) { j with isTemp := isTemp } with hs | hs
    · intro hphash
      have hpast := hsettled hphash
      unfold MirrorJob.PastHash at hpast ⊢
      rw [hs]
      exact hpast
    · exact settled_statusFor hs

/-- A success moves a pending job on; a failed one it leaves failed. -/
theorem settled_phashSuccess (h : EachJob Settled t)
    {phash kind version : String} :
    EachJob Settled (updatePhashSuccess videoId phash kind version t) ↔
      ∀ j, t.job videoId = some j → j.status ≠ .failed := by
  unfold updatePhashSuccess
  constructor
  · intro hafter j hj hfailed
    obtain ⟨v, hv⟩ := t.video_of_job videoId hj
    have hpast := hafter videoId { v with
      phash := some phash
      phashKind := some kind
      phashVersion := some version } j ?_ ?_ rfl
    · exact hpast.2 hfailed
    · rw [VideoTables.video_updateJob, VideoTables.video_updateVideo,
        if_pos rfl, hv]
      rfl
    · rw [VideoTables.job_updateJob, if_pos rfl, VideoTables.job_updateVideo, hj,
        Option.map_some, if_neg (by rw [hfailed]; decide)]
  · intro hnot
    apply h.of_local videoId
    · intro u hu
      rw [VideoTables.video_updateJob, VideoTables.video_updateVideo, if_neg hu,
        VideoTables.job_updateJob, if_neg hu, VideoTables.job_updateVideo]
      exact ⟨rfl, rfl⟩
    · intro v j _ hj _
      rw [VideoTables.job_updateJob, if_pos rfl,
        VideoTables.job_updateVideo] at hj
      obtain ⟨j₀, hj₀, rfl⟩ := Option.map_eq_some_iff.mp hj
      have hfailed := hnot j₀ hj₀
      -- only a pending job moves; any other keeps its status
      by_cases hpending : j₀.status = .pending
      · rw [if_pos hpending]
        exact ⟨by simp, by simp⟩
      · rw [if_neg hpending]
        exact ⟨hpending, hfailed⟩

/-- A failure makes its job pending or failed, whatever it was. -/
theorem settled_phashFailure (h : EachJob Settled t) {error : String} {n : ℕ}
    (hup : updatePhashFailure videoId error maxRetries t = .ok (n, t')) :
    EachJob Settled t' ↔ ∀ v, t.video videoId = some v → v.phash = none := by
  obtain ⟨j, hj, rfl⟩ := updatePhashFailure_ok hup
  constructor
  · intro hafter v hv
    -- the job is pending or failed now, and its video has a hash
    by_contra hphash
    have hpast := hafter videoId v _
      (by rw [VideoTables.video_updateJob, hv])
      (by rw [VideoTables.job_updateJob, if_pos rfl, hj, Option.map_some])
      (Option.isSome_iff_ne_none.mpr hphash)
    unfold MirrorJob.PastHash at hpast
    dsimp only at hpast
    split_ifs at hpast
    · exact hpast.2 rfl
    · exact hpast.1 rfl
  · intro hnone
    apply h.updateJob
    intro v j hv _ _ hphash
    rw [hnone v hv] at hphash
    cases hphash

theorem settled_mirrorSuccess (h : EachJob Settled t) :
    EachJob Settled (updateMirrorSuccess videoId key t) := by
  unfold updateMirrorSuccess
  apply EachJob.updateJob
  · apply h.updateVideo
    intro v j hsettled
    exact hsettled
  · intro v j _ _ hsettled hphash
    have hpast := hsettled hphash
    split
    · exact ⟨by simp, by simp⟩
    · exact hpast

theorem settled_error (h : EachJob Settled t) {error : String} :
    EachJob Settled (updateError videoId error t) := by
  apply h.updateJob
  intro v j _ _ hsettled
  exact hsettled

/-- **One query** keeps the jobs settled exactly when its outcome is in time. -/
theorem settled_step (h : EachJob Settled s.tables)
    (hstep : OverlapStep maxRetries s q s') :
    EachJob Settled s'.tables ↔ InTime s q := by
  have hkeeps : EachJob Settled s'.tables →
      (EachJob Settled s'.tables ↔ True) := fun hafter => iff_true_intro hafter
  cases hstep with
  | storjKey videoId key => exact hkeeps (settled_storjKey h)
  | storjKeyWithReset videoId key => exact hkeeps (settled_storjKeyWithReset h)
  | hetznerKey videoId key isTemp =>
      refine hkeeps (settled_upsertHetzner h ?_)
      intro s j
      split
      · exact .inr rfl
      · exact .inl rfl
  | hetznerKeyWithReset videoId key isTemp =>
      refine hkeeps (settled_upsertHetzner h ?_)
      intro s j
      split_ifs
      · exact .inr rfl
      · exact .inr rfl
      · exact .inl rfl
  | fetchPhash r order limit rows _ _ => exact hkeeps h
  | phashSuccess r row phash kind version _ => exact settled_phashSuccess h
  | phashFailure r row error n t _ hup => exact settled_phashFailure h hup
  | phashEnd r => exact hkeeps h
  | fetchMirror order limit rows _ _ => exact hkeeps h
  | mirrorSuccess row _ => exact hkeeps (settled_mirrorSuccess h)
  | mirrorError row error _ => exact hkeeps (settled_error h)
  | mirrorEnd => exact hkeeps h

/-! ### A stored hash stays -/

/-- What has a hash in `t` has one in `t'`. -/
def HashKept (t t' : VideoTables) : Prop :=
  ∀ id v, t.video id = some v → v.phash.isSome →
    ∃ v', t'.video id = some v' ∧ v'.phash.isSome

theorem HashKept.refl (t : VideoTables) : HashKept t t :=
  fun _ v hv hphash => ⟨v, hv, hphash⟩

theorem HashKept.trans {t'' : VideoTables} (h : HashKept t t')
    (h' : HashKept t' t'') : HashKept t t'' := by
  intro id v hv hphash
  obtain ⟨v', hv', hphash'⟩ := h id v hv hphash
  exact h' id v' hv' hphash'

/-- A query of `mirror_jobs`. -/
theorem HashKept.of_video (h : ∀ u, t'.video u = t.video u) : HashKept t t' := by
  intro id v hv hphash
  exact ⟨v, (h id).trans hv, hphash⟩

theorem hashKept_upsertVideo {new : VideoIndexRow}
    {f : VideoIndexRow → VideoIndexRow}
    (hf : ∀ v, v.phash.isSome → (f v).phash.isSome) :
    HashKept t (t.upsertVideo videoId new f) := by
  intro id v hv hphash
  by_cases hid : id = videoId
  · subst hid
    refine ⟨f v, ?_, hf v hphash⟩
    rw [VideoTables.video_upsertVideo, if_pos rfl, hv]
    rfl
  · refine ⟨v, ?_, hphash⟩
    rw [VideoTables.video_upsertVideo, if_neg hid]
    exact hv

theorem hashKept_updateVideo {f : VideoIndexRow → VideoIndexRow}
    (hf : ∀ v, v.phash.isSome → (f v).phash.isSome) :
    HashKept t (t.updateVideo videoId f) := by
  unfold VideoTables.updateVideo
  split
  · exact hashKept_upsertVideo hf
  · exact .refl t

theorem hashKept_updateJob {f : MirrorJob → MirrorJob} :
    HashKept t (t.updateJob videoId f) :=
  .of_video fun _ => VideoTables.video_updateJob

theorem hashKept_upsertHetzner {isTemp : Bool}
    {onConflict : MirrorStatus → MirrorJob → MirrorJob} :
    HashKept t (upsertHetzner videoId key isTemp onConflict t) := by
  have hkey : HashKept t (t.upsertVideo videoId { hetznerKey := some key }
      fun v => { v with hetznerKey := some key }) :=
    hashKept_upsertVideo fun v hphash => hphash
  apply hkey.trans
  apply HashKept.of_video
  intro u
  rfl

theorem hashKept_storjKey : HashKept t (upsertStorjKey videoId key t) :=
  hashKept_upsertVideo fun _ hphash => hphash

theorem hashKept_phashSuccess {phash kind version : String} :
    HashKept t (updatePhashSuccess videoId phash kind version t) := by
  apply HashKept.trans _ hashKept_updateJob
  exact hashKept_updateVideo fun v _ => rfl

theorem hashKept_mirrorSuccess :
    HashKept t (updateMirrorSuccess videoId key t) := by
  apply HashKept.trans _ hashKept_updateJob
  exact hashKept_updateVideo fun v hphash => hphash

theorem hashKept_step (hstep : OverlapStep maxRetries s q s') :
    HashKept s.tables s'.tables := by
  cases hstep with
  | storjKey videoId key => exact hashKept_storjKey
  | storjKeyWithReset videoId key =>
      exact hashKept_storjKey.trans hashKept_updateJob
  | hetznerKey videoId key isTemp => exact hashKept_upsertHetzner
  | hetznerKeyWithReset videoId key isTemp => exact hashKept_upsertHetzner
  | fetchPhash r order limit rows _ _ => exact .refl _
  | phashSuccess r row phash kind version _ => exact hashKept_phashSuccess
  | phashFailure r row error n t _ hup =>
      obtain ⟨j, -, ht⟩ := updatePhashFailure_ok hup
      show HashKept s.tables t
      rw [ht]
      exact hashKept_updateJob
  | phashEnd r => exact .refl _
  | fetchMirror order limit rows _ _ => exact .refl _
  | mirrorSuccess row _ => exact hashKept_mirrorSuccess
  | mirrorError row error _ => exact hashKept_updateJob
  | mirrorEnd => exact .refl _

end Steps

/-! ## Runs -/

theorem hashKept_run {maxRetries : ℤ} {es : List JobQuery} {s s' : OverlapState}
    (hrun : Trace (OverlapStep maxRetries) s es s') :
    HashKept s.tables s'.tables := by
  induction hrun with
  | nil s => exact .refl _
  | cons hab _ ih => exact (hashKept_step hab).trans ih

/-- **No regress.** A run keeps every hashed video past its hash, and every
pending job selectable, exactly when each outcome is written in time. -/
theorem no_regress_iff (maxRetries : ℤ) (es : List JobQuery) :
    NoRegress maxRetries es ↔
      StepsMeet (OverlapStep maxRetries) {} es InTime := by
  have hsettled : Throughout (OverlapStep maxRetries) {} es
      (fun s => EachJob Settled s.tables) ↔
      StepsMeet (OverlapStep maxRetries) {} es InTime :=
    throughout_iff EachJob.empty fun a e b ha hab => settled_step ha hab
  rw [← hsettled]
  constructor
  · intro h es₁ s hprefix hrun
    have hnow := h es₁ [] s s (by rwa [List.append_nil]) hrun (.nil s)
    exact settled_iff.mpr hnow.1
  · intro h es₁ es₂ s s' hprefix hrun hrun'
    have hafter : EachJob Settled s'.tables :=
      h (es₁ ++ es₂) s' hprefix (hrun.append hrun')
    have hkept : HashKept s.tables s'.tables := hashKept_run hrun'
    refine ⟨?_, pendingSelectable_of_settled hafter⟩
    -- the hash is still there, so the job of now is past it
    intro id v j hv hphash hj
    obtain ⟨v', hv', hphash'⟩ := hkept id v hv hphash
    exact hafter id v' j hv' hj hphash'

/-! ## A slow failure -/

/-- A scan finds the video, both runs fetch it, and the endpoint's run stores its
hash before the pipeline's fails. -/
def slowFailure : List JobQuery :=
  [.hetznerKey "v" "u/v.mp4" false, .fetchPhash .endpoint .none 2500,
    .fetchPhash .pipeline .none 2500,
    .phashSuccess .endpoint ⟨"v", "u/v.mp4"⟩ "0101" "phash" "legacy_hex_8x8_v0",
    .phashFailure .pipeline ⟨"v", "u/v.mp4"⟩ "download u/v.mp4: timeout"]

/-- The video has its hash, its job is pending, and no batch will hold it. -/
theorem slow_failure_regresses : ¬ NoRegress 5 slowFailure := by
  have hrun : Trace (OverlapStep 5) {} slowFailure _ :=
    .cons (.hetznerKey "v" "u/v.mp4" false) <|
    .cons (.fetchPhash .endpoint .none 2500 _ rfl rfl) <|
    .cons (.fetchPhash .pipeline .none 2500 _ rfl rfl) <|
    .cons (.phashSuccess .endpoint _ _ _ _ List.mem_cons_self) <|
    .cons (.phashFailure .pipeline _ _ 1 _ List.mem_cons_self rfl) <|
    .nil _
  intro h
  have hpast := (h slowFailure [] _ _ (List.prefix_refl _) hrun
    (.nil _)).1 "v"
    { hetznerKey := some "u/v.mp4"
      phash := some "0101"
      phashKind := some "phash"
      phashVersion := some "legacy_hex_8x8_v0" }
    { retryCount := 1, errorMessage := some "download u/v.mp4: timeout" }
    rfl rfl rfl
  exact hpast.1 rfl

end VideoStorage.Db
