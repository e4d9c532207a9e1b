import VideoStorage.Db.Queries
import VideoStorage.Foundation.Conditions

/-!
# Audit counts

`get_audit_stats` counts over `video_index LEFT JOIN mirror_jobs`. A video that
only the Storj scan has found has no job: its job's columns are null, and a
condition on them is null as well. What each count is the number of is given by
`countWhere_leftJoin`, over the states the pipeline reaches (`Reachable`).
-/

namespace VideoStorage.Db

open Foundation
open Relation (ReflTransGen)

/-! ## Job 4: cleanup -/

def updateCleanupDone (videoId : String) (t : VideoTables) : VideoTables :=
  (t.updateVideo videoId fun v => { v with hetznerKey := none }).updateJob videoId
    fun j => { j with isTemp := false, status := .done, errorMessage := none }

/-- One query of the scans, of the jobs or of the retry endpoint. -/
inductive TableStep (t : VideoTables) : VideoTables → Prop
  | storjKey (videoId key : String) : TableStep t (upsertStorjKey videoId key t)
  | storjKeyWithReset (videoId key : String) :
      TableStep t (upsertStorjKeyWithReset videoId key t)
  | hetznerKey (videoId key : String) (isTemp : Bool) :
      TableStep t (upsertHetznerKey videoId key isTemp t)
  | hetznerKeyWithReset (videoId key : String) (isTemp : Bool) :
      TableStep t (upsertHetznerKeyWithReset videoId key isTemp t)
  | phashSuccess (videoId phash kind version : String) :
      TableStep t (updatePhashSuccess videoId phash kind version t)
  | phashFailure (videoId error : String) (maxRetries : ℤ) (n : ℕ) (t' : VideoTables)
      (h : updatePhashFailure videoId error maxRetries t = .ok (n, t')) :
      TableStep t t'
  | mirrorSuccess (videoId key : String) :
      TableStep t (updateMirrorSuccess videoId key t)
  | mirrorError (videoId error : String) : TableStep t (updateError videoId error t)
  | cleanupDone (videoId : String) : TableStep t (updateCleanupDone videoId t)
  | reset : TableStep t (resetFailedToRetry t).2

def Reachable (t : VideoTables) : Prop := ReflTransGen TableStep {} t

/-! ## The query -/

abbrev JoinedRow : Type := VideoIndexRow × Option MirrorJob

/-- `video_index LEFT JOIN mirror_jobs`. -/
def leftJoin (t : VideoTables) : List JoinedRow :=
  t.videoIndex.entries.map fun e => (e.2, t.job e.1)

namespace JoinedRow

variable (r : JoinedRow)

def status : Option MirrorStatus := r.2.map (·.status)

def isTemp : Option Bool := r.2.map (·.isTemp)

def errorMessage : Option String := r.2.bind (·.errorMessage)

end JoinedRow

structure AuditStats where
  total : ℕ
  phashComputed : ℕ
  mirrored : ℕ
  missingStorj : ℕ
  missingHetzner : ℕ
  cleanupPending : ℕ
  failed : ℕ
  errorCount : ℕ
  /-- By status. -/
  statusBreakdown : AList (fun _ : String => ℕ)

/-- `COALESCE(mj.status, 'no_mirror_job')`. -/
def statusLabel (status : Option MirrorStatus) : String :=
  status.elim "no_mirror_job" (·.asStr)

/-- The rows of the second query, inserted one by one. -/
def statusBreakdown (rows : List JoinedRow) : AList (fun _ : String => ℕ) :=
  (groups JoinedRow.status rows).foldl
    (fun m g => m.insert (statusLabel g.1) g.2.length) ∅

def getAuditStats (t : VideoTables) : AuditStats :=
  let rows := leftJoin t
  { total := rows.length
    phashComputed := countWhere (fun r => .isNotNull r.1.phash) rows
    mirrored := countWhere (fun r => .isIn r.status [.mirrored, .done]) rows
    missingStorj := countWhere
      (fun r => .and (.isNull r.1.storjKey) (.eq r.isTemp false)) rows
    missingHetzner := countWhere
      (fun r => .and (.and (.isNull r.1.hetznerKey) (.eq r.isTemp false))
        (.ne r.status .done)) rows
    cleanupPending := countWhere
      (fun r => .and (.eq r.isTemp true) (.eq r.status .mirrored)) rows
    failed := countWhere (fun r => .eq r.status .failed) rows
    errorCount := countWhere (fun r => .isNotNull r.errorMessage) rows
    statusBreakdown := statusBreakdown rows }

/-! ## What is counted -/

/-- The videos whose row and job satisfy a condition. -/
def videosWhere (t : VideoTables) (P : VideoIndexRow → Option MirrorJob → Prop) :
    Set String :=
  {id | ∃ v, t.video id = some v ∧ P v (t.job id)}

def HasStatus (s : MirrorStatus) (j : Option MirrorJob) : Prop :=
  ∃ job, j = some job ∧ job.status = s

/-- A video without a job is not temporary. -/
def Temporary (j : Option MirrorJob) : Prop := ∃ job, j = some job ∧ job.isTemp = true

variable {t t' : VideoTables} {P : VideoIndexRow → Option MirrorJob → Prop}
  {c : JoinedRow → Cond}

theorem mem_entries {id : String} {v : VideoIndexRow} :
    ⟨id, v⟩ ∈ t.videoIndex.entries ↔ t.video id = some v := by
  show _ ↔ t.videoIndex.lookup id = some v
  rw [AList.mem_lookup_iff.symm]
  rfl

/-- **A count is the number of videos** for which its condition is true. -/
theorem countWhere_leftJoin (h : ∀ id v, t.video id = some v →
    (c (v, t.job id) = some true ↔ P v (t.job id))) :
    countWhere c (leftJoin t) = (videosWhere t P).ncard := by
  let counted := t.videoIndex.entries.filter fun e => c (e.2, t.job e.1) = some true
  have hnodup : (counted.map Sigma.fst).Nodup :=
    List.Nodup.sublist (List.filter_sublist.map Sigma.fst) t.videoIndex.nodupKeys
  have hmem : {id | id ∈ counted.map Sigma.fst} = videosWhere t P := by
    ext id
    show id ∈ counted.map Sigma.fst ↔ ∃ v, t.video id = some v ∧ P v (t.job id)
    simp only [counted, List.mem_map, List.mem_filter, decide_eq_true_eq]
    constructor
    · rintro ⟨⟨_, v⟩, ⟨hv, hc⟩, rfl⟩
      exact ⟨v, mem_entries.mp hv, (h _ v (mem_entries.mp hv)).mp hc⟩
    · rintro ⟨v, hv, hP⟩
      exact ⟨⟨id, v⟩, ⟨mem_entries.mpr hv, (h id v hv).mpr hP⟩, rfl⟩
  rw [← hmem, ncard_members hnodup, List.length_map]
  unfold countWhere leftJoin
  rw [List.countP_map, List.countP_eq_length_filter]
  rfl

theorem total_eq : (leftJoin t).length = (videosWhere t fun _ _ => True).ncard := by
  have hcount := countWhere_leftJoin (t := t) (c := fun _ => some true)
    (P := fun _ _ => True) (by simp)
  rw [← hcount]
  simp [countWhere]

/-! ## The breakdown -/

def sumOf (m : AList (fun _ : String => ℕ)) : ℕ := (m.entries.map Sigma.snd).sum

theorem sumOf_insert {m : AList (fun _ : String => ℕ)} {k : String} {n : ℕ}
    (h : k ∉ m) : sumOf (m.insert k n) = n + sumOf m := by
  unfold sumOf
  rw [AList.entries_insert_of_notMem h, List.map_cons, List.sum_cons]

/-- Under distinct labels nothing is overwritten. -/
theorem sumOf_foldl {gs : List (Option MirrorStatus × List JoinedRow)}
    {m : AList (fun _ : String => ℕ)}
    (hnodup : (gs.map fun g => statusLabel g.1).Nodup)
    (hm : ∀ g ∈ gs, statusLabel g.1 ∉ m) :
    sumOf (gs.foldl (fun m g => m.insert (statusLabel g.1) g.2.length) m) =
      sumOf m + (gs.map fun g => g.2.length).sum := by
  induction gs generalizing m with
  | nil => simp
  | cons g gs ih =>
      obtain ⟨hg, hgs⟩ := List.nodup_cons.mp hnodup
      rw [List.foldl_cons, ih hgs, sumOf_insert (hm g List.mem_cons_self),
        List.map_cons, List.sum_cons]
      · omega
      · intro g' hg' hmem
        rcases (AList.mem_insert _).mp hmem with heq | hmem
        · exact hg (List.mem_map.mpr ⟨g', hg', heq⟩)
        · exact hm g' (List.mem_cons_of_mem _ hg') hmem

theorem statusLabel_injective : Function.Injective statusLabel := by
  intro a b h
  rcases a with _ | _ | _ | _ | _ | _ <;> rcases b with _ | _ | _ | _ | _ | _ <;>
    first | rfl | exact absurd h (by decide)

theorem statusBreakdown_sum (rows : List JoinedRow) :
    sumOf (statusBreakdown rows) = rows.length := by
  have hkeys : ((groups JoinedRow.status rows).map fun g => statusLabel g.1).Nodup := by
    have hnodup : ((groups JoinedRow.status rows).map (·.1)).Nodup := by
      rw [groups_keys]
      exact List.nodup_dedup _
    have hmap := hnodup.map statusLabel_injective
    rwa [List.map_map] at hmap
  unfold statusBreakdown
  rw [sumOf_foldl hkeys (fun _ _ => AList.notMem_empty _), groups_sum]
  simp [sumOf]

/-! ## Videos without a job -/

/-- A video without a job came from the Storj scan. -/
def StorjOrJob (t : VideoTables) : Prop :=
  ∀ id v, t.video id = some v → t.job id = none → v.storjKey.isSome

theorem StorjOrJob.of_local (h : StorjOrJob t) (videoId : String)
    (hother : ∀ u, u ≠ videoId → t'.video u = t.video u ∧ t'.job u = t.job u)
    (hself : ∀ v, t'.video videoId = some v → t'.job videoId = none →
      v.storjKey.isSome) : StorjOrJob t' := by
  intro u v hv hj
  by_cases hu : u = videoId
  · subst hu
    exact hself v hv hj
  · obtain ⟨hvideo, hjob⟩ := hother u hu
    exact h u v (hvideo ▸ hv) (hjob ▸ hj)

theorem StorjOrJob.upsertStorjKey (h : StorjOrJob t) (videoId key : String) :
    StorjOrJob (upsertStorjKey videoId key t) := by
  refine h.of_local videoId ?_ ?_
  · intro u hu
    exact ⟨by rw [Db.upsertStorjKey, VideoTables.video_upsertVideo, if_neg hu], rfl⟩
  · intro v hv _
    rw [Db.upsertStorjKey, VideoTables.video_upsertVideo, if_pos rfl] at hv
    obtain rfl := Option.some.inj hv
    cases t.video videoId <;> rfl

/-- An update of a job neither makes one nor takes one away. -/
theorem StorjOrJob.updateJob (h : StorjOrJob t) (videoId : String)
    (f : MirrorJob → MirrorJob) : StorjOrJob (t.updateJob videoId f) := by
  intro u v hv hj
  rw [VideoTables.video_updateJob] at hv
  rw [VideoTables.job_updateJob] at hj
  split_ifs at hj
  · exact h u v hv (Option.map_eq_none_iff.mp hj)
  · exact h u v hv hj

/-- Nor does an update of a video that keeps the Storj key. -/
theorem StorjOrJob.updateVideo (h : StorjOrJob t) (videoId : String)
    {f : VideoIndexRow → VideoIndexRow}
    (hf : ∀ v, v.storjKey.isSome → (f v).storjKey.isSome) :
    StorjOrJob (t.updateVideo videoId f) := by
  intro u v hv hj
  rw [VideoTables.job_updateVideo] at hj
  rw [VideoTables.video_updateVideo] at hv
  split_ifs at hv
  · obtain ⟨v₀, hv₀, rfl⟩ := Option.map_eq_some_iff.mp hv
    exact hf v₀ (h u v₀ hv₀ hj)
  · exact h u v hv hj

/-- The Hetzner upserts make a job. -/
theorem StorjOrJob.upsertHetzner (h : StorjOrJob t) (videoId key : String)
    (isTemp : Bool) (onConflict : MirrorStatus → MirrorJob → MirrorJob) :
    StorjOrJob (upsertHetzner videoId key isTemp onConflict t) := by
  refine h.of_local videoId ?_ ?_
  · intro u hu
    unfold Db.upsertHetzner
    rw [VideoTables.video_upsertJob, VideoTables.video_upsertVideo, if_neg hu,
      VideoTables.job_upsertJob, if_neg hu]
    exact ⟨rfl, rfl⟩
  · intro v _ hj
    unfold Db.upsertHetzner at hj
    rw [VideoTables.job_upsertJob, if_pos rfl] at hj
    cases hj

theorem StorjOrJob.step (h : StorjOrJob t) (hstep : TableStep t t') :
    StorjOrJob t' := by
  cases hstep with
  | storjKey videoId key => exact h.upsertStorjKey videoId key
  | storjKeyWithReset videoId key =>
      exact (h.upsertStorjKey videoId key).updateJob videoId _
  | hetznerKey videoId key isTemp => exact h.upsertHetzner videoId key isTemp _
  | hetznerKeyWithReset videoId key isTemp =>
      exact h.upsertHetzner videoId key isTemp _
  | phashSuccess videoId phash kind version =>
      refine updateJob (updateVideo h videoId ?_) videoId _
      exact fun _ hv => hv
  | phashFailure videoId error maxRetries n t' hup =>
      obtain ⟨j, -, rfl⟩ := updatePhashFailure_ok hup
      exact h.updateJob videoId _
  | mirrorSuccess videoId key =>
      exact (h.updateVideo videoId fun _ _ => rfl).updateJob videoId _
  | mirrorError videoId error => exact h.updateJob videoId _
  | cleanupDone videoId =>
      refine updateJob (updateVideo h videoId ?_) videoId _
      exact fun _ hv => hv
  | reset =>
      intro u v hv hj
      have hj' : (t.updateJobs MirrorJob.retry).job u = none := hj
      rw [VideoTables.job_updateJobs] at hj'
      exact h u v hv (Option.map_eq_none_iff.mp hj')

theorem Reachable.storjOrJob (h : Reachable t) : StorjOrJob t := by
  induction h with
  | refl =>
      intro u v hv
      cases hv
  | tail _ hstep ih => exact ih.step hstep

/-! ## What the counts are -/

theorem hasStatus_iff {r : JoinedRow} {s : MirrorStatus} :
    r.status = some s ↔ HasStatus s r.2 := by
  unfold JoinedRow.status HasStatus
  rw [Option.map_eq_some_iff]

theorem mirrored_eq : (getAuditStats t).mirrored =
    (videosWhere t fun _ j => HasStatus .mirrored j ∨ HasStatus .done j).ncard := by
  refine countWhere_leftJoin fun id v _ => ?_
  simp [hasStatus_iff]

theorem failed_eq : (getAuditStats t).failed =
    (videosWhere t fun _ j => HasStatus .failed j).ncard := by
  refine countWhere_leftJoin fun id v _ => ?_
  rw [Cond.eq_eq_true, hasStatus_iff]

theorem isTemp_eq_false {v : VideoIndexRow} {j : Option MirrorJob} :
    JoinedRow.isTemp (v, j) = some false ↔ j.isSome ∧ ¬ Temporary j := by
  cases j with
  | none => simp [JoinedRow.isTemp]
  | some j => simp [JoinedRow.isTemp, Temporary]

theorem missingStorj_eq (h : StorjOrJob t) : (getAuditStats t).missingStorj =
    (videosWhere t fun v j => v.storjKey = none ∧ ¬ Temporary j).ncard := by
  refine countWhere_leftJoin fun id v hv => ?_
  rw [Cond.and_eq_true, Cond.isNull_eq_true, Cond.eq_eq_true, isTemp_eq_false]
  constructor
  · rintro ⟨hkey, -, htemp⟩
    exact ⟨hkey, htemp⟩
  · rintro ⟨hkey, htemp⟩
    refine ⟨hkey, ?_, htemp⟩
    -- without a job it would have a key
    rw [Option.isSome_iff_ne_none]
    intro hnone
    have hsome := h id v hv hnone
    rw [hkey] at hsome
    cases hsome

/-- A missing Hetzner key is counted only where there is a job. -/
theorem missingHetzner_eq : (getAuditStats t).missingHetzner =
    (videosWhere t fun v j => v.hetznerKey = none ∧ j.isSome ∧ ¬ Temporary j ∧
      ¬ HasStatus .done j).ncard := by
  refine countWhere_leftJoin fun id v _ => ?_
  rw [Cond.and_eq_true, Cond.and_eq_true, Cond.isNull_eq_true, Cond.eq_eq_true,
    Cond.ne_eq_true, isTemp_eq_false, and_assoc, and_assoc]
  cases hj : t.job id with
  | none => simp
  | some j => simp [JoinedRow.status, HasStatus]

/-- Every video without a Hetzner key has a job. -/
def KeylessHasJob (t : VideoTables) : Prop :=
  ∀ id v, t.video id = some v → v.hetznerKey = none → (t.job id).isSome

/-- The counts as the report names them. -/
structure AuditExact (t : VideoTables) (stats : AuditStats) : Prop where
  total : stats.total = (videosWhere t fun _ _ => True).ncard
  missingStorj : stats.missingStorj =
    (videosWhere t fun v j => v.storjKey = none ∧ ¬ Temporary j).ncard
  mirrored : stats.mirrored =
    (videosWhere t fun _ j => HasStatus .mirrored j ∨ HasStatus .done j).ncard
  failed : stats.failed = (videosWhere t fun _ j => HasStatus .failed j).ncard
  breakdown : sumOf stats.statusBreakdown = stats.total
  missingHetzner : KeylessHasJob t → stats.missingHetzner =
    (videosWhere t fun v j => v.hetznerKey = none ∧ ¬ Temporary j ∧
      ¬ HasStatus .done j).ncard

/-- **The audit of a reachable state.** A video that has been mirrored and cleaned
up still counts as mirrored. -/
theorem audit_exact (t : VideoTables) (h : Reachable t) :
    AuditExact t (getAuditStats t) where
  total := total_eq
  missingStorj := missingStorj_eq h.storjOrJob
  mirrored := mirrored_eq
  failed := failed_eq
  breakdown := statusBreakdown_sum _
  missingHetzner := by
    intro hjobs
    rw [missingHetzner_eq]
    congr 1
    ext id
    constructor
    · rintro ⟨v, hv, hkey, -, htemp, hdone⟩
      exact ⟨v, hv, hkey, htemp, hdone⟩
    · rintro ⟨v, hv, hkey, htemp, hdone⟩
      exact ⟨v, hv, hkey, hjobs id v hv hkey, htemp, hdone⟩

/-! ## A video without a job, and one that is done -/

/-- Storj only. -/
def scannedTables : VideoTables := upsertStorjKey "vid-1" "user/vid-1.mp4" {}

/-- A second video, mirrored; then a temporary copy of it is found and removed. -/
def cleanedTables : VideoTables :=
  updateCleanupDone "vid-2" (upsertHetznerKey "vid-2" "_pending/vid-2.mp4" true
    (updateMirrorSuccess "vid-2" "user/vid-2.mp4"
      (updatePhashSuccess "vid-2" "aabbccdd" "videohash" "v1"
        (upsertHetznerKey "vid-2" "user/vid-2.mp4" false scannedTables))))

theorem reachable_scanned : Reachable scannedTables :=
  .tail .refl (.storjKey _ _)

theorem reachable_cleaned : Reachable cleanedTables :=
  ((((reachable_scanned.tail (.hetznerKey _ _ _)).tail (.phashSuccess _ _ _ _)).tail
    (.mirrorSuccess _ _)).tail (.hetznerKey _ _ _)).tail (.cleanupDone _)

/-- A mirrored video and a temporary one, both cleaned up: they have a job and no
Hetzner key. -/
def cleanedJobs : VideoTables :=
  updateCleanupDone "vid-3" (upsertHetznerKey "vid-3" "_pending/vid-3.mp4" true
    (updateCleanupDone "vid-2" (updateMirrorSuccess "vid-2" "user/vid-2.mp4"
      (updatePhashSuccess "vid-2" "aabbccdd" "videohash" "v1"
        (upsertHetznerKey "vid-2" "user/vid-2.mp4" false {})))))

/-- Then the hash of the temporary one, which was in flight, fails. -/
def keylessTables : VideoTables :=
  cleanedJobs.updateJob "vid-3" fun j => { j with
    retryCount := 1
    status := .failed
    errorMessage := some "download failed" }

theorem reachable_cleanedJobs : Reachable cleanedJobs :=
  (((((Relation.ReflTransGen.refl.tail (.hetznerKey _ _ _)).tail
    (.phashSuccess _ _ _ _)).tail (.mirrorSuccess _ _)).tail (.cleanupDone _)).tail
      (.hetznerKey _ _ _)).tail (.cleanupDone _)

theorem reachable_keyless : Reachable keylessTables :=
  reachable_cleanedJobs.tail (.phashFailure "vid-3" "download failed" 1 1 _ rfl)

theorem audit_exact_keyless : AuditExact keylessTables (getAuditStats keylessTables) ∧
    KeylessHasJob keylessTables ∧ (getAuditStats keylessTables).mirrored = 1 ∧
    (getAuditStats keylessTables).failed = 1 ∧
    (getAuditStats keylessTables).missingStorj = 1 ∧
    (getAuditStats keylessTables).missingHetzner = 1 := by
  refine ⟨audit_exact keylessTables reachable_keyless, ?_, by decide, by decide,
    by decide, by decide⟩
  have hjobs : ∀ e ∈ keylessTables.videoIndex.entries,
      (keylessTables.job e.1).isSome := by
    decide
  exact fun id v hv _ => hjobs ⟨id, v⟩ (mem_entries.mpr hv)

/-- No job is `mirrored` and one is counted; one video has no Hetzner key, is
neither temporary nor done, and none is counted. -/
theorem audit_inexact : Reachable cleanedTables ∧
    (getAuditStats cleanedTables).mirrored ≠
      (videosWhere cleanedTables fun _ j => HasStatus .mirrored j).ncard ∧
    (getAuditStats cleanedTables).missingHetzner ≠
      (videosWhere cleanedTables fun v j => v.hetznerKey = none ∧ ¬ Temporary j ∧
        ¬ HasStatus .done j).ncard := by
  refine ⟨reachable_cleaned, ?_, ?_⟩
  · rw [← countWhere_leftJoin (c := fun r => .eq r.status .mirrored) fun id v _ => by
      rw [Cond.eq_eq_true, hasStatus_iff]]
    decide
  · rw [← countWhere_leftJoin (c := fun r => some (r.1.hetznerKey.isNone &&
      !r.2.any (·.isTemp) && !r.2.any (·.status = .done))) fun id v _ => by
        cases cleanedTables.job id with
        | none => simp [Temporary, HasStatus]
        | some j => simp [Temporary, HasStatus, and_assoc]]
    decide

end VideoStorage.Db
