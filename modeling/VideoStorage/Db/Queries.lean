import VideoStorage.Db.Tables
import VideoStorage.Foundation.Fallible
import VideoStorage.Foundation.Scan

/-!
# The queries of the mirror pipeline

The scans' upserts, the two batches and what the jobs write back, one function a
query. A batch has no `ORDER BY`: which rows the database returns first is its
choice.
-/

namespace VideoStorage.Db

open Foundation

/-! ## Job 0 and 1: the scans -/

def upsertStorjKey (videoId storjKey : String) (t : VideoTables) : VideoTables :=
  t.upsertVideo videoId { storjKey := some storjKey }
    fun v => { v with storjKey := some storjKey }

/-- A failed job begins again. -/
def MirrorJob.reset (j : MirrorJob) : MirrorJob :=
  if j.status = .failed then
    { j with status := .pending, retryCount := 0, errorMessage := none }
  else j

def upsertStorjKeyWithReset (videoId storjKey : String) (t : VideoTables) :
    VideoTables :=
  (upsertStorjKey videoId storjKey t).updateJob videoId MirrorJob.reset

/-- `CASE WHEN vi.phash IS NOT NULL THEN 'phash_computed' ELSE 'pending' END`. -/
def statusFor (phash : Option String) : MirrorStatus :=
  if phash.isSome then .phashComputed else .pending

/-- The common part of the two Hetzner upserts, with what each does to a job
that is there. -/
def upsertHetzner (videoId hetznerKey : String) (isTemp : Bool)
    (onConflict : MirrorStatus → MirrorJob → MirrorJob) (t : VideoTables) :
    VideoTables :=
  let vi := t.upsertVideo videoId { hetznerKey := some hetznerKey }
    fun v => { v with hetznerKey := some hetznerKey }
  let status := statusFor ((t.video videoId).bind (·.phash))
  vi.upsertJob videoId VideoTables.mem_upsertVideo
    { isTemp := isTemp, status := status }
    fun j => onConflict status { j with isTemp := isTemp }

def upsertHetznerKey (videoId hetznerKey : String) (isTemp : Bool) :
    VideoTables → VideoTables :=
  upsertHetzner videoId hetznerKey isTemp fun status j =>
    if j.status = .pending then { j with status := status } else j

def upsertHetznerKeyWithReset (videoId hetznerKey : String) (isTemp : Bool) :
    VideoTables → VideoTables :=
  upsertHetzner videoId hetznerKey isTemp fun status j =>
    if j.status = .failed then
      { j with status := status, retryCount := 0, errorMessage := none }
    else if j.status = .pending then { j with status := status }
    else j

/-! ## Batches -/

/-- `LIMIT` over the rows in an order of the database's choice. -/
def fetchBatch (order : Shuffle VideoRow) (limit : ℤ) (rows : List VideoRow) :
    Except SqlError (List VideoRow) :=
  if 0 ≤ limit then .ok ((order.apply rows).take limit.toNat)
  else .error .negativeLimit

def phashPending (v : VideoIndexRow) (j : MirrorJob) : Bool :=
  j.status = .pending && v.phash.isNone

def fetchPendingPhashBatch (order : Shuffle VideoRow) (limit : ℤ)
    (t : VideoTables) : Except SqlError (List VideoRow) :=
  fetchBatch order limit (joinWhere phashPending t)

def mirrorPending (v : VideoIndexRow) (j : MirrorJob) : Bool :=
  j.status = .phashComputed && ! j.isTemp && v.storjKey.isNone

def fetchPendingMirrorBatch (order : Shuffle VideoRow) (limit : ℤ)
    (t : VideoTables) : Except SqlError (List VideoRow) :=
  fetchBatch order limit (joinWhere mirrorPending t)

/-! ## Job 2: hashes -/

def updatePhashSuccess (videoId phash hashKind hashVersion : String)
    (t : VideoTables) : VideoTables :=
  (t.updateVideo videoId fun v => { v with
    phash := some phash
    phashKind := some hashKind
    phashVersion := some hashVersion }).updateJob videoId fun j =>
      if j.status = .pending then
        { j with status := .phashComputed, errorMessage := none }
      else j

/-- The new count and the tables; without a job `query_one` finds no row. -/
def updatePhashFailure (videoId error : String) (maxRetries : ℤ)
    (t : VideoTables) : Except SqlError (ℕ × VideoTables) :=
  match t.job videoId with
  | none => .error (.statement .noRow)
  | some j => (succInt4 j.retryCount).map fun count =>
      (count, t.updateJob videoId fun j => { j with
        retryCount := count
        status := if maxRetries ≤ count then .failed else .pending
        errorMessage := some error })

theorem updatePhashFailure_ok {videoId error : String} {maxRetries : ℤ}
    {t t' : VideoTables} {n : ℕ}
    (h : updatePhashFailure videoId error maxRetries t = .ok (n, t')) :
    ∃ j, t.job videoId = some j ∧
      t' = t.updateJob videoId fun j => { j with
        retryCount := n
        status := if maxRetries ≤ n then .failed else .pending
        errorMessage := some error } := by
  unfold updatePhashFailure at h
  cases hj : t.job videoId with
  | none =>
      rw [hj] at h
      cases h
  | some j =>
      rw [hj] at h
      obtain ⟨count, -, hcount⟩ := map_eq_ok.mp h
      obtain ⟨rfl, rfl⟩ := Prod.mk.inj hcount
      exact ⟨j, rfl, rfl⟩

theorem updatePhashFailure_count {videoId error : String} {maxRetries : ℤ}
    {t t' : VideoTables} {n : ℕ} {j : MirrorJob}
    (h : updatePhashFailure videoId error maxRetries t = .ok (n, t'))
    (hj : t.job videoId = some j) : n = j.retryCount + 1 := by
  unfold updatePhashFailure at h
  rw [hj] at h
  obtain ⟨count, hcount, hpair⟩ := map_eq_ok.mp h
  obtain ⟨rfl, -⟩ := Prod.mk.inj hpair
  unfold succInt4 at hcount
  split_ifs at hcount
  exact (Except.ok.inj hcount).symm

/-! ## Job 3: mirroring -/

def updateMirrorSuccess (videoId storjKey : String) (t : VideoTables) :
    VideoTables :=
  (t.updateVideo videoId fun v => { v with storjKey := some storjKey }).updateJob
    videoId fun j =>
      if j.status = .phashComputed then
        { j with status := .mirrored, errorMessage := none }
      else j

def updateError (videoId error : String) (t : VideoTables) : VideoTables :=
  t.updateJob videoId fun j => { j with errorMessage := some error }

/-! ## Retrying -/

def MirrorJob.retry (j : MirrorJob) : MirrorJob :=
  if j.status = .failed then
    { j with status := .phashComputed, retryCount := 0, errorMessage := none }
  else j

/-- The number of jobs that were reset, and the tables. -/
def resetFailedToRetry (t : VideoTables) : ℕ × VideoTables :=
  (t.mirrorJobs.entries.countP (·.2.status = .failed),
    t.updateJobs MirrorJob.retry)

/-! ## What the upserts keep -/

/-- The two Hetzner upserts: what survives the new key, for a job with the status
that fits the hash and for one that is there. -/
theorem EachJob.upsertHetzner {P : VideoIndexRow → MirrorJob → Prop}
    {t : VideoTables} {videoId key : String} {isTemp : Bool}
    {onConflict : MirrorStatus → MirrorJob → MirrorJob} (h : EachJob P t)
    (hkey : ∀ v j, P v j → P { v with hetznerKey := some key } j)
    (hnew : ∀ v, v.hetznerKey = some key →
      P v { isTemp := isTemp, status := statusFor v.phash })
    (hf : ∀ v j, v.hetznerKey = some key → P v j →
      P v (onConflict (statusFor v.phash) { j with isTemp := isTemp })) :
    EachJob P (upsertHetzner videoId key isTemp onConflict t) := by
  have hrow : ∀ v, (t.upsertVideo videoId { hetznerKey := some key }
      fun v => { v with hetznerKey := some key }).video videoId = some v →
      v.phash = (t.video videoId).bind (·.phash) ∧ v.hetznerKey = some key := by
    intro v hv
    rw [VideoTables.video_upsertVideo, if_pos rfl] at hv
    obtain rfl := Option.some.inj hv
    cases t.video videoId <;> exact ⟨rfl, rfl⟩
  unfold Db.upsertHetzner
  apply EachJob.upsertJob (h.upsertVideo hkey)
  · intro v hv
    obtain ⟨hphash, hkey'⟩ := hrow v hv
    rw [← hphash]
    exact hnew v hkey'
  · intro v j hv _ hj
    obtain ⟨hphash, hkey'⟩ := hrow v hv
    rw [← hphash]
    exact hf v j hkey' hj

/-! ## What the batches hold -/

section Batch

variable {order : Shuffle VideoRow} {limit : ℤ} {rows batch : List VideoRow}

theorem fetchBatch_eq_ok :
    fetchBatch order limit rows = .ok batch ↔
      0 ≤ limit ∧ batch = (order.apply rows).take limit.toNat := by
  unfold fetchBatch
  split_ifs with h
  · simp [h, eq_comm]
  · simp [h]

theorem mem_of_mem_fetchBatch (h : fetchBatch order limit rows = .ok batch)
    {row : VideoRow} (hrow : row ∈ batch) : row ∈ rows := by
  obtain ⟨-, rfl⟩ := fetchBatch_eq_ok.mp h
  exact (order.perm rows).mem_iff.mp (List.mem_of_mem_take hrow)

theorem fetchBatch_nodup (h : fetchBatch order limit rows = .ok batch)
    (hrows : rows.Nodup) : batch.Nodup := by
  obtain ⟨-, rfl⟩ := fetchBatch_eq_ok.mp h
  exact ((order.perm rows).nodup_iff.mpr hrows).sublist (List.take_sublist _ _)

/-- A batch of a positive size is empty only when nothing is left. -/
theorem fetchBatch_eq_nil (hlimit : 0 < limit) :
    fetchBatch order limit rows = .ok [] ↔ rows = [] := by
  rw [fetchBatch_eq_ok]
  constructor
  · rintro ⟨-, h⟩
    rcases List.take_eq_nil_iff.mp h.symm with h | h
    · omega
    · have hperm := order.perm rows
      rw [h] at hperm
      exact List.nil_perm.mp hperm
  · rintro rfl
    have hnil : order.apply [] = [] := List.perm_nil.mp (order.perm [])
    rw [hnil, List.take_nil]
    exact ⟨hlimit.le, rfl⟩

end Batch

end VideoStorage.Db
