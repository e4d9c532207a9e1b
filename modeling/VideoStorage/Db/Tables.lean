import Mathlib.Data.List.AList
import VideoStorage.Foundation.Sql

/-!
# `video_index` and `mirror_jobs`

The two tables of the mirror pipeline, with the foreign key from a job to its
video, and the statements its functions are made of: each with what it leaves in
either table. `created_at` and `updated_at` are read by nothing here.
-/

namespace VideoStorage.Db

open Foundation

inductive MirrorStatus
  | pending | phashComputed | mirrored | failed | done
  deriving DecidableEq, Repr

namespace MirrorStatus

def asStr : MirrorStatus → String
  | pending => "pending"
  | phashComputed => "phash_computed"
  | mirrored => "mirrored"
  | failed => "failed"
  | done => "done"

end MirrorStatus

structure VideoIndexRow where
  storjKey : Option String := none
  hetznerKey : Option String := none
  phash : Option String := none
  phashKind : Option String := none
  phashVersion : Option String := none
  deriving DecidableEq, Repr

structure MirrorJob where
  isTemp : Bool := false
  retryCount : ℕ := 0
  status : MirrorStatus := .pending
  errorMessage : Option String := none
  deriving DecidableEq, Repr

theorem empty_references : ∀ id ∈ (∅ : AList fun _ : String => MirrorJob),
    id ∈ (∅ : AList fun _ : String => VideoIndexRow) := by
  simp

/-- The tables; a job refers to a video. -/
structure VideoTables where
  videoIndex : AList (fun _ : String => VideoIndexRow) := ∅
  mirrorJobs : AList (fun _ : String => MirrorJob) := ∅
  references : ∀ id ∈ mirrorJobs, id ∈ videoIndex := by
    first | exact empty_references | simp

namespace VideoTables

variable (t : VideoTables) (videoId : String)

def video : Option VideoIndexRow := t.videoIndex.lookup videoId

def job : Option MirrorJob := t.mirrorJobs.lookup videoId

theorem video_of_job {j : MirrorJob} (h : t.job videoId = some j) :
    ∃ v, t.video videoId = some v := by
  have hmem : videoId ∈ t.mirrorJobs := by
    rw [← AList.lookup_isSome]
    show (t.job videoId).isSome
    rw [h]
    rfl
  exact Option.isSome_iff_exists.mp
    (AList.lookup_isSome.mpr (t.references _ hmem))

/-! ## Statements on one row -/

/-- `INSERT … ON CONFLICT (video_id) DO UPDATE`. -/
def upsertVideo (new : VideoIndexRow) (f : VideoIndexRow → VideoIndexRow) :
    VideoTables where
  videoIndex := t.videoIndex.insert videoId ((t.video videoId).elim new f)
  mirrorJobs := t.mirrorJobs
  references id hid := (AList.mem_insert _).mpr (.inr (t.references id hid))

/-- `UPDATE video_index … WHERE video_id = …`. -/
def updateVideo (f : VideoIndexRow → VideoIndexRow) : VideoTables :=
  match t.video videoId with
  | some v => t.upsertVideo videoId v f
  | none => t

/-- `INSERT INTO mirror_jobs … ON CONFLICT (video_id) DO UPDATE`. -/
def upsertJob (h : videoId ∈ t.videoIndex) (new : MirrorJob)
    (f : MirrorJob → MirrorJob) : VideoTables where
  videoIndex := t.videoIndex
  mirrorJobs := t.mirrorJobs.insert videoId ((t.job videoId).elim new f)
  references id hid := by
    rcases (AList.mem_insert _).mp hid with rfl | hid
    · exact h
    · exact t.references id hid

/-- `UPDATE mirror_jobs … WHERE video_id = …`. -/
def updateJob (f : MirrorJob → MirrorJob) : VideoTables :=
  if h : videoId ∈ t.mirrorJobs then
    t.upsertJob videoId (t.references _ h) {} f
  else t

/-- `UPDATE mirror_jobs`, over all rows. -/
def updateJobs (f : MirrorJob → MirrorJob) : VideoTables where
  videoIndex := t.videoIndex
  mirrorJobs :=
    ⟨t.mirrorJobs.entries.map (.map id fun _ => f),
      t.mirrorJobs.nodupKeys.map₂ fun _ => f⟩
  references videoId h := by
    refine t.references videoId ?_
    rw [← AList.lookup_isSome] at h ⊢
    unfold AList.lookup at h ⊢
    rw [List.dlookup_map₂ (f := fun _ => f)] at h
    simpa using h

variable {t videoId} {u : String} {new v : VideoIndexRow}
  {f : VideoIndexRow → VideoIndexRow} {newJob : MirrorJob}
  {g : MirrorJob → MirrorJob}

@[simp] theorem job_upsertVideo : (t.upsertVideo videoId new f).job u = t.job u :=
  rfl

theorem video_upsertVideo : (t.upsertVideo videoId new f).video u
    = if u = videoId then some ((t.video videoId).elim new f) else t.video u := by
  by_cases hu : u = videoId
  · rw [if_pos hu, hu]
    exact AList.lookup_insert _
  · rw [if_neg hu]
    exact AList.lookup_insert_ne hu

theorem mem_upsertVideo : videoId ∈ (t.upsertVideo videoId new f).videoIndex :=
  (AList.mem_insert _).mpr (.inl rfl)

@[simp] theorem job_updateVideo : (t.updateVideo videoId f).job u = t.job u := by
  unfold updateVideo
  split <;> rfl

theorem video_updateVideo : (t.updateVideo videoId f).video u
    = if u = videoId then (t.video u).map f else t.video u := by
  unfold updateVideo
  by_cases hu : u = videoId
  · rw [if_pos hu, hu]
    cases hv : t.video videoId with
    | none => exact hv
    | some v =>
        dsimp only
        rw [video_upsertVideo, if_pos rfl, hv]
        rfl
  · rw [if_neg hu]
    cases hv : t.video videoId with
    | none => rfl
    | some v =>
        dsimp only
        rw [video_upsertVideo, if_neg hu]

@[simp] theorem video_upsertJob {h : videoId ∈ t.videoIndex} :
    (t.upsertJob videoId h newJob g).video u = t.video u := rfl

theorem job_upsertJob {h : videoId ∈ t.videoIndex} :
    (t.upsertJob videoId h newJob g).job u
      = if u = videoId then some ((t.job videoId).elim newJob g) else t.job u := by
  by_cases hu : u = videoId
  · rw [if_pos hu, hu]
    exact AList.lookup_insert _
  · rw [if_neg hu]
    exact AList.lookup_insert_ne hu

@[simp] theorem video_updateJob : (t.updateJob videoId g).video u = t.video u := by
  unfold updateJob
  split <;> rfl

theorem job_updateJob : (t.updateJob videoId g).job u
    = if u = videoId then (t.job u).map g else t.job u := by
  unfold updateJob
  by_cases hmem : videoId ∈ t.mirrorJobs
  · obtain ⟨j, hj⟩ := Option.isSome_iff_exists.mp (AList.lookup_isSome.mpr hmem)
    have hjob : t.job videoId = some j := hj
    rw [dif_pos hmem, job_upsertJob, hjob]
    by_cases hu : u = videoId
    · rw [if_pos hu, if_pos hu, hu, hjob]
      rfl
    · rw [if_neg hu, if_neg hu]
  · have hjob : t.job videoId = none := AList.lookup_eq_none.mpr hmem
    rw [dif_neg hmem]
    by_cases hu : u = videoId
    · rw [if_pos hu, hu, hjob]
      rfl
    · rw [if_neg hu]

@[simp] theorem video_updateJobs : (t.updateJobs g).video u = t.video u := rfl

@[simp] theorem job_updateJobs : (t.updateJobs g).job u = (t.job u).map g :=
  List.dlookup_map₂ u

end VideoTables

/-! ## Invariants of a job and its video -/

/-- Every job is in relation `P` to its video. -/
def EachJob (P : VideoIndexRow → MirrorJob → Prop) (t : VideoTables) : Prop :=
  ∀ id v j, t.video id = some v → t.job id = some j → P v j

namespace EachJob

variable {P : VideoIndexRow → MirrorJob → Prop} {t t' : VideoTables}
  {videoId : String}

theorem empty : EachJob P {} := by
  intro id v j hv
  cases hv

/-- It is enough to look at the video a query is about. -/
theorem of_local (h : EachJob P t) (videoId : String)
    (hother : ∀ u, u ≠ videoId → t'.video u = t.video u ∧ t'.job u = t.job u)
    (hself : ∀ v j, t'.video videoId = some v → t'.job videoId = some j → P v j) :
    EachJob P t' := by
  intro u v j hv hj
  by_cases hu : u = videoId
  · subst hu
    exact hself v j hv hj
  · obtain ⟨hvideo, hjob⟩ := hother u hu
    exact h u v j (hvideo ▸ hv) (hjob ▸ hj)

theorem upsertVideo (h : EachJob P t) {new : VideoIndexRow}
    {f : VideoIndexRow → VideoIndexRow} (hf : ∀ v j, P v j → P (f v) j) :
    EachJob P (t.upsertVideo videoId new f) := by
  refine h.of_local videoId ?_ ?_
  · intro u hu
    rw [VideoTables.video_upsertVideo, if_neg hu]
    exact ⟨rfl, rfl⟩
  · intro v j hv hj
    rw [VideoTables.video_upsertVideo, if_pos rfl] at hv
    -- a job has a video, so the row was updated and not inserted
    obtain ⟨v₀, hv₀⟩ := t.video_of_job videoId hj
    rw [hv₀] at hv
    obtain rfl := Option.some.inj hv
    exact hf v₀ j (h videoId v₀ j hv₀ hj)

theorem updateVideo (h : EachJob P t) {f : VideoIndexRow → VideoIndexRow}
    (hf : ∀ v j, P v j → P (f v) j) : EachJob P (t.updateVideo videoId f) := by
  refine h.of_local videoId ?_ ?_
  · intro u hu
    rw [VideoTables.video_updateVideo, if_neg hu, VideoTables.job_updateVideo]
    exact ⟨rfl, rfl⟩
  · intro v j hv hj
    rw [VideoTables.video_updateVideo, if_pos rfl] at hv
    rw [VideoTables.job_updateVideo] at hj
    obtain ⟨v₀, hv₀, rfl⟩ := Option.map_eq_some_iff.mp hv
    exact hf v₀ j (h videoId v₀ j hv₀ hj)

theorem updateJob (h : EachJob P t) {f : MirrorJob → MirrorJob}
    (hf : ∀ v j, t.video videoId = some v → t.job videoId = some j → P v j →
      P v (f j)) : EachJob P (t.updateJob videoId f) := by
  refine h.of_local videoId ?_ ?_
  · intro u hu
    rw [VideoTables.job_updateJob, if_neg hu, VideoTables.video_updateJob]
    exact ⟨rfl, rfl⟩
  · intro v j hv hj
    rw [VideoTables.video_updateJob] at hv
    rw [VideoTables.job_updateJob, if_pos rfl] at hj
    obtain ⟨j₀, hj₀, rfl⟩ := Option.map_eq_some_iff.mp hj
    exact hf v j₀ hv hj₀ (h videoId v j₀ hv hj₀)

theorem upsertJob (h : EachJob P t) {hmem : videoId ∈ t.videoIndex}
    {new : MirrorJob} {f : MirrorJob → MirrorJob}
    (hnew : ∀ v, t.video videoId = some v → P v new)
    (hf : ∀ v j, t.video videoId = some v → t.job videoId = some j → P v j →
      P v (f j)) : EachJob P (t.upsertJob videoId hmem new f) := by
  refine h.of_local videoId ?_ ?_
  · intro u hu
    rw [VideoTables.video_upsertJob, VideoTables.job_upsertJob, if_neg hu]
    exact ⟨rfl, rfl⟩
  · intro v j hv hj
    rw [VideoTables.video_upsertJob] at hv
    rw [VideoTables.job_upsertJob, if_pos rfl] at hj
    obtain rfl := Option.some.inj hj
    cases hj₀ : t.job videoId with
    | none => exact hnew v hv
    | some j₀ => exact hf v j₀ hv hj₀ (h videoId v j₀ hv hj₀)

end EachJob

/-! ## Joins -/

structure VideoRow where
  videoId : String
  hetznerKey : String
  deriving DecidableEq, Repr

/-- `mirror_jobs JOIN video_index` under a condition and `hetzner_key IS NOT
NULL`. -/
def joinWhere (p : VideoIndexRow → MirrorJob → Bool) (t : VideoTables) :
    List VideoRow :=
  t.mirrorJobs.keys.filterMap fun id => do
    let j ← t.job id
    let v ← t.video id
    let key ← v.hetznerKey
    if p v j then some ⟨id, key⟩ else none

section Join

variable {p : VideoIndexRow → MirrorJob → Bool} {t : VideoTables} {row : VideoRow}

theorem joinRow_eq_some {id : String} :
    (do
      let j ← t.job id
      let v ← t.video id
      let key ← v.hetznerKey
      if p v j then some (⟨id, key⟩ : VideoRow) else none) = some row ↔
    row.videoId = id ∧ ∃ v j, t.video id = some v ∧ t.job id = some j ∧
      v.hetznerKey = some row.hetznerKey ∧ p v j = true := by
  simp only [Option.bind_eq_bind, Option.bind_eq_some_iff]
  constructor
  · rintro ⟨j, hj, v, hv, key, hkey, hrow⟩
    split_ifs at hrow with hp
    obtain rfl := Option.some.inj hrow
    exact ⟨rfl, v, j, hv, hj, hkey, hp⟩
  · rintro ⟨rfl, v, j, hv, hj, hkey, hp⟩
    exact ⟨j, hj, v, hv, row.hetznerKey, hkey, if_pos hp⟩

theorem mem_joinWhere : row ∈ joinWhere p t ↔
    ∃ v j, t.video row.videoId = some v ∧ t.job row.videoId = some j ∧
      v.hetznerKey = some row.hetznerKey ∧ p v j = true := by
  unfold joinWhere
  simp only [List.mem_filterMap, joinRow_eq_some]
  constructor
  · rintro ⟨id, -, rfl, h⟩
    exact h
  · rintro ⟨v, j, hv, hj, h⟩
    have hmem : row.videoId ∈ t.mirrorJobs := by
      rw [← AList.lookup_isSome]
      exact Option.isSome_iff_exists.mpr ⟨j, hj⟩
    exact ⟨row.videoId, hmem, rfl, v, j, hv, hj, h⟩

theorem joinWhere_nodup (p : VideoIndexRow → MirrorJob → Bool)
    (t : VideoTables) : (joinWhere p t).Nodup := by
  apply List.Nodup.filterMap
  · intro id id' row h h'
    exact (joinRow_eq_some.mp h).1.symm.trans (joinRow_eq_some.mp h').1
  · exact t.mirrorJobs.keys_nodup

/-- A video is joined at most once. -/
theorem joinWhere_unique {row' : VideoRow} (h : row ∈ joinWhere p t)
    (h' : row' ∈ joinWhere p t) (hid : row'.videoId = row.videoId) :
    row' = row := by
  obtain ⟨v, j, hv, -, hkey, -⟩ := mem_joinWhere.mp h
  obtain ⟨v', j', hv', -, hkey', -⟩ := mem_joinWhere.mp h'
  rw [hid, hv] at hv'
  obtain rfl := Option.some.inj hv'
  rw [hkey] at hkey'
  cases row
  cases row'
  simp_all

end Join

end VideoStorage.Db
