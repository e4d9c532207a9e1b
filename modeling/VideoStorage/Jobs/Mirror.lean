import VideoStorage.Jobs.Batch

/-!
# `mirror::run`

A mirrored video leaves the selection; one whose copy failed only gets an error
message and is selected again. A run therefore ends exactly when its attempts
bring as many successes as rows were pending (`run_completes_iff`).
-/

namespace VideoStorage.Jobs.Mirror

open Db Foundation

/-- What `mirror_one` answers. -/
abbrev Outcome : Type := Except String Unit

def recordMirror (row : VideoRow) (outcome : Outcome) (t : VideoTables) :
    VideoTables :=
  match outcome with
  | .ok () => updateMirrorSuccess row.videoId row.hetznerKey t
  | .error e => updateError row.videoId e t

def job : BatchJob Outcome where
  fetch := fetchPendingMirrorBatch
  record row outcome t := .ok (recordMirror row outcome t)

def run (env : BatchEnv Outcome) (t : VideoTables) (fuel : ℕ) :
    Option BatchResult :=
  runBatches job env t fuel

/-! ## What a result does to the selection -/

/-- The rows `fetch_pending_mirror_batch` selects from. -/
def pending (t : VideoTables) : List VideoRow := joinWhere mirrorPending t

section Selection

variable {t : VideoTables} {row u : VideoRow}

theorem mem_pending_success (h : row ∈ pending t) :
    u ∈ pending (updateMirrorSuccess row.videoId row.hetznerKey t) ↔
      u ≠ row ∧ u ∈ pending t := by
  unfold pending updateMirrorSuccess
  rw [mem_joinWhere, mem_joinWhere]
  by_cases hid : u.videoId = row.videoId
  · constructor
    · -- the row now has a Storj key
      rintro ⟨v, j, hv, -, -, hp⟩
      rw [VideoTables.video_updateJob, VideoTables.video_updateVideo,
        if_pos hid] at hv
      obtain ⟨v', -, rfl⟩ := Option.map_eq_some_iff.mp hv
      simp [mirrorPending] at hp
    · rintro ⟨hne, hu⟩
      exact absurd (joinWhere_unique h (mem_joinWhere.mpr hu) hid) hne
  · simp only [VideoTables.video_updateJob, VideoTables.video_updateVideo,
      VideoTables.job_updateJob, VideoTables.job_updateVideo, if_neg hid]
    constructor
    · intro hu
      exact ⟨fun heq => hid (congrArg VideoRow.videoId heq), hu⟩
    · exact fun hu => hu.2

theorem mem_pending_error {videoId e : String} :
    u ∈ pending (updateError videoId e t) ↔ u ∈ pending t := by
  unfold pending updateError
  simp only [mem_joinWhere, VideoTables.video_updateJob,
    VideoTables.job_updateJob]
  by_cases hid : u.videoId = videoId
  · simp only [if_pos hid, Option.map_eq_some_iff]
    constructor
    · rintro ⟨v, _, hv, ⟨j, hj, rfl⟩, hkey, hp⟩
      exact ⟨v, j, hv, hj, hkey, hp⟩
    · rintro ⟨v, j, hv, hj, hkey, hp⟩
      exact ⟨v, _, hv, ⟨j, hj, rfl⟩, hkey, hp⟩
  · simp only [if_neg hid]

theorem pending_nodup (t : VideoTables) : (pending t).Nodup :=
  joinWhere_nodup _ t

theorem length_pending_success (h : row ∈ pending t) :
    (pending (updateMirrorSuccess row.videoId row.hetznerKey t)).length + 1
      = (pending t).length := by
  have hperm : (pending (updateMirrorSuccess row.videoId row.hetznerKey t)).Perm
      ((pending t).erase row) := by
    rw [List.perm_ext_iff_of_nodup (pending_nodup _)
      ((pending_nodup t).erase row)]
    intro u
    rw [mem_pending_success h, (pending_nodup t).mem_erase_iff]
  have hlen := List.length_erase_of_mem h
  have hpos := List.length_pos_of_mem h
  have hsame := hperm.length_eq
  omega

theorem length_pending_error {videoId e : String} :
    (pending (updateError videoId e t)).length = (pending t).length := by
  apply List.Perm.length_eq
  rw [List.perm_ext_iff_of_nodup (pending_nodup _) (pending_nodup _)]
  exact fun u => mem_pending_error

end Selection

/-! ## Rounds -/

/-- The successes among the first `n` attempts. -/
def successes (env : BatchEnv Outcome) (n : ℕ) : ℕ :=
  (List.range n).countP fun k => (env.outcome k).isOk

section Rounds

variable {env : BatchEnv Outcome} {t : VideoTables} {s s' : BatchState}
  {rows : List VideoRow} {row : VideoRow}

theorem successes_succ (env : BatchEnv Outcome) (n : ℕ) :
    successes env (n + 1)
      = successes env n + if (env.outcome n).isOk then 1 else 0 := by
  unfold successes
  rw [List.range_succ, List.countP_append, List.countP_singleton]

theorem successes_mono {n m : ℕ} (h : n ≤ m) :
    successes env n ≤ successes env m :=
  (List.range_sublist.mpr h).countP_le

/-- One result: what was pending is still pending or has succeeded. -/
theorem recordMirror_balance (h : row ∈ pending s.tables) :
    (pending (recordMirror row (env.outcome s.grandTotal) s.tables)).length
        + successes env (s.grandTotal + 1)
      = (pending s.tables).length + successes env s.grandTotal := by
  rw [successes_succ]
  unfold recordMirror
  cases hout : env.outcome s.grandTotal with
  | ok _ =>
      have hlen := length_pending_success h
      simp only [Except.isOk, Except.toBool, if_true]
      omega
  | error e =>
      have hlen : (pending (updateError row.videoId e s.tables)).length
          = (pending s.tables).length := length_pending_error
      simp only [Except.isOk, Except.toBool, Bool.false_eq_true, if_false]
      omega

/-- A row that was not the one recorded is still pending. -/
theorem mem_pending_recordMirror {u : VideoRow} {outcome : Outcome}
    (h : row ∈ pending t) (hu : u ∈ pending t) (hne : u ≠ row) :
    u ∈ pending (recordMirror row outcome t) := by
  unfold recordMirror
  cases outcome with
  | ok _ => exact (mem_pending_success h).mpr ⟨hne, hu⟩
  | error e => exact mem_pending_error.mpr hu

theorem recordResults_balance (hlimit : env.limit = none)
    (hrows : ∀ row ∈ rows, row ∈ pending s.tables) (hnodup : rows.Nodup) :
    ∃ s', recordResults job env rows s = .ok (false, s') ∧
      s'.grandTotal = s.grandTotal + rows.length ∧
      (pending s'.tables).length + successes env s'.grandTotal
        = (pending s.tables).length + successes env s.grandTotal := by
  induction rows generalizing s with
  | nil => exact ⟨s, rfl, rfl, rfl⟩
  | cons row rows ih =>
      have hrow := hrows row List.mem_cons_self
      obtain ⟨hfresh, hnodup'⟩ := List.nodup_cons.mp hnodup
      let s₁ : BatchState := { s with
        tables := recordMirror row (env.outcome s.grandTotal) s.tables
        grandTotal := s.grandTotal + 1 }
      have hrest : ∀ u ∈ rows, u ∈ pending s₁.tables := by
        intro u hu
        refine mem_pending_recordMirror hrow
          (hrows u (List.mem_cons_of_mem _ hu)) ?_
        rintro rfl
        exact hfresh hu
      obtain ⟨s', hs', htotal, hbalance⟩ := ih hrest hnodup'
      refine ⟨s', ?_, ?_, ?_⟩
      · simp only [recordResults, job, hlimit, Option.any_none,
          Bool.false_eq_true, if_false]
        exact hs'
      · rw [htotal, List.length_cons]
        show s.grandTotal + 1 + rows.length = _
        omega
      · rw [hbalance]
        exact recordMirror_balance hrow

/-- Every row that was pending when the run began is pending or was a success. -/
def Balanced (env : BatchEnv Outcome) (t : VideoTables) (s : BatchState) : Prop :=
  (pending s.tables).length + successes env s.grandTotal = (pending t).length

theorem balanced_init (env : BatchEnv Outcome) (t : VideoTables) :
    Balanced env t { tables := t } := by
  unfold Balanced successes
  rfl

theorem batch_spec (hbatch : job.batch env s = .ok rows) :
    (∀ row ∈ rows, row ∈ pending s.tables) ∧ rows.Nodup := by
  constructor
  · intro row hrow
    exact mem_of_mem_fetchBatch hbatch hrow
  · exact fetchBatch_nodup hbatch (pending_nodup _)

theorem Balanced.page (hlimit : env.limit = none) (h : Balanced env t s)
    (hbatch : job.batch env s = .ok rows) :
    ∃ s', recordResults job env ((env.finished s.rounds).apply rows)
        { s with rounds := s.rounds + 1 } = .ok (false, s') ∧
      Balanced env t s' ∧ s'.grandTotal = s.grandTotal + rows.length := by
  obtain ⟨hrows, hnodup⟩ := batch_spec hbatch
  have hperm := (env.finished s.rounds).perm rows
  obtain ⟨s', hrec, htotal, hbalance⟩ :=
    recordResults_balance (s := { s with rounds := s.rounds + 1 }) hlimit
      (fun row hrow => hrows row (hperm.mem_iff.mp hrow))
      (hperm.nodup_iff.mpr hnodup)
  refine ⟨s', hrec, hbalance.trans h, ?_⟩
  rw [htotal, hperm.length_eq]

/-- A round that goes on attempts something, and only while rows are pending. -/
theorem Balanced.next (hlimit : env.limit = none)
    (hcancel : env.cancelled s.rounds = false) (hslots : 0 < env.concurrency)
    (h : Balanced env t s) (hstep : batchStep job env s = .inl s') :
    Balanced env t s' ∧ s.grandTotal < s'.grandTotal ∧
      0 < (pending s.tables).length := by
  have hround := batchRound_of_running job hcancel
  rw [hstep] at hround
  cases hround with
  | stuck rows _ _ hz => omega
  | next rows s' hbatch hne _ hrec =>
      obtain ⟨s₁, hrec₁, hs₁, htotal⟩ := h.page hlimit hbatch
      rw [hrec] at hrec₁
      cases hrec₁
      have hpos := List.length_pos_of_ne_nil hne
      obtain ⟨row, hrow⟩ := List.exists_mem_of_ne_nil rows hne
      refine ⟨hs₁, by omega, ?_⟩
      exact List.length_pos_of_mem ((batch_spec hbatch).1 row hrow)

/-- A run that stops found nothing pending, or could not ask. -/
theorem Balanced.stop (hlimit : env.limit = none)
    (hcancel : env.cancelled s.rounds = false) (hsize : 0 < env.pageSize)
    (h : Balanced env t s) {r : BatchResult}
    (hstep : batchStep job env s = .inr r) :
    r = .ok (.complete, s) ∧ pending s.tables = [] := by
  have hround := batchRound_of_running job hcancel
  rw [hstep] at hround
  cases hround with
  | fetchError e herr =>
      exfalso
      have hok : job.batch env s = .ok (((env.selected s.rounds).apply
          (pending s.tables)).take env.pageSize.toNat) := by
        exact fetchBatch_eq_ok.mpr ⟨hsize.le, rfl⟩
      rw [hok] at herr
      cases herr
  | complete hnil => exact ⟨rfl, (fetchBatch_eq_nil hsize).mp hnil⟩
  | recordError rows e hbatch _ hrec =>
      obtain ⟨s₁, hrec₁, -⟩ := h.page hlimit hbatch
      rw [hrec] at hrec₁
      cases hrec₁
  | limit rows s' hbatch _ hrec =>
      obtain ⟨s₁, hrec₁, -⟩ := h.page hlimit hbatch
      rw [hrec] at hrec₁
      cases hrec₁

end Rounds

/-! ## Runs -/

/-- The run comes to an empty batch. -/
def Completes (env : BatchEnv Outcome) (t : VideoTables) : Prop :=
  ∃ fuel s, run env t fuel = some (.ok (.complete, s))

section Runs

variable {env : BatchEnv Outcome} {t : VideoTables}

/-- Attempts that succeed often enough empty the selection. -/
theorem completes_of_successes (hlimit : env.limit = none)
    (hcancel : ∀ n, env.cancelled n = false) (hsize : 0 < env.pageSize)
    (hslots : 0 < env.concurrency) {n : ℕ}
    (hn : (pending t).length ≤ successes env n) : Completes env t := by
  have htotal := iterate_total (batchStep job env) (Balanced env t)
    (fun s => n - s.grandTotal) ?_ (balanced_init env t)
  · obtain ⟨r, hr⟩ := htotal
    have hdone := iterate_post (Balanced env t)
      (fun r => ∃ s, r = .ok (.complete, s))
      (fun s s' hs hstep =>
        (hs.next hlimit (hcancel _) hslots hstep).1) ?_ (balanced_init env t) hr
    · obtain ⟨s, rfl⟩ := hdone
      exact ⟨n + 1, s, hr⟩
    · intro s r hs hstep
      exact ⟨s, (hs.stop hlimit (hcancel _) hsize hstep).1⟩
  · intro s s' hs hstep
    obtain ⟨hs', hlt, hpos⟩ := hs.next hlimit (hcancel _) hslots hstep
    refine ⟨hs', ?_⟩
    -- with something pending the successes so far are short of the rows
    have hshort : s.grandTotal < n := by
      by_contra hge
      have hmono : successes env n ≤ successes env s.grandTotal :=
        successes_mono (not_lt.mp hge)
      unfold Balanced at hs
      omega
    omega

/-- A run that completes has had a success for every pending row. -/
theorem successes_of_completes (hlimit : env.limit = none)
    (hcancel : ∀ n, env.cancelled n = false) (hsize : 0 < env.pageSize)
    (hslots : 0 < env.concurrency) (h : Completes env t) :
    ∃ n, (pending t).length ≤ successes env n := by
  obtain ⟨fuel, s, hrun⟩ := h
  have hdone := iterate_post (Balanced env t)
    (fun r => ∀ s, r = .ok (.complete, s) →
      ∃ n, (pending t).length ≤ successes env n)
    (fun s s' hs hstep =>
      (hs.next hlimit (hcancel _) hslots hstep).1) ?_ (balanced_init env t) hrun
  · exact hdone s rfl
  · rintro s r hs hstep s' rfl
    have hnil := (hs.stop hlimit (hcancel _) hsize hstep).2
    refine ⟨s.grandTotal, ?_⟩
    unfold Balanced at hs
    rw [hnil] at hs
    simp only [List.length_nil] at hs
    omega

theorem completes_of_empty (hcancel : ∀ n, env.cancelled n = false)
    (h : job.batch env { tables := t } = .ok []) : Completes env t := by
  refine ⟨1, { tables := t }, iterate_stop ?_⟩
  unfold batchStep
  rw [if_neg (by rw [hcancel]; exact Bool.false_ne_true), h]

/-- A page size below zero is an error of the first query. -/
theorem not_completes_of_negative (hcancel : ∀ n, env.cancelled n = false)
    (hsize : env.pageSize < 0) : ¬ Completes env t := by
  rintro ⟨fuel, s, hrun⟩
  have herr : job.batch env { tables := t } = .error .negativeLimit :=
    if_neg (not_le.mpr hsize)
  have hstep : batchStep job env { tables := t }
      = .inr (.error .negativeLimit) := by
    unfold batchStep
    rw [if_neg (by rw [hcancel]; exact Bool.false_ne_true), herr]
  cases fuel with
  | zero => cases hrun
  | succ fuel =>
      unfold run runBatches at hrun
      rw [iterate_stop hstep] at hrun
      cases hrun

/-- Without a slot the first batch is waited for in vain. -/
theorem not_completes_of_stuck (hcancel : ∀ n, env.cancelled n = false)
    (hsize : 0 < env.pageSize) (hslots : env.concurrency = 0)
    (hpending : pending t ≠ []) : ¬ Completes env t := by
  rintro ⟨fuel, s, hrun⟩
  have hstep : batchStep job env { tables := t } = .inl { tables := t } := by
    have hround := batchRound_of_running job (s := { tables := t })
      (hcancel 0)
    generalize hr : batchStep job env { tables := t } = r at hround
    cases hround with
    | fetchError e herr =>
        have hok : job.batch env { tables := t } = .ok (((env.selected 0).apply
            (pending t)).take env.pageSize.toNat) :=
          fetchBatch_eq_ok.mpr ⟨hsize.le, rfl⟩
        rw [hok] at herr
        cases herr
    | complete hnil => exact absurd ((fetchBatch_eq_nil hsize).mp hnil) hpending
    | stuck _ _ _ _ => rfl
    | recordError _ _ _ hne _ => exact absurd hslots hne
    | limit _ _ _ hne _ => exact absurd hslots hne
    | next _ _ _ _ hne _ => exact absurd hslots hne
  have hnone := iterate_none (batchStep job env) (· = { tables := t })
    (by rintro s rfl; exact ⟨_, hstep, rfl⟩) rfl fuel
  unfold run runBatches at hrun
  rw [hnone] at hrun
  cases hrun

/-- **Termination.** A run without limit and cancellation comes to an empty batch
exactly when its pages are empty, or nothing is pending, or it works at all and
as many of its attempts succeed as rows are pending. -/
theorem run_completes_iff (hlimit : env.limit = none)
    (hcancel : ∀ n, env.cancelled n = false) :
    Completes env t ↔ env.pageSize = 0 ∨ 0 < env.pageSize ∧
      (pending t = [] ∨ 0 < env.concurrency ∧
        ∃ n, (pending t).length ≤ successes env n) := by
  rcases lt_trichotomy env.pageSize 0 with hsize | hsize | hsize
  · constructor
    · exact fun h => absurd h (not_completes_of_negative hcancel hsize)
    · rintro (h | ⟨h, -⟩) <;> omega
  · constructor
    · exact fun _ => .inl hsize
    · intro _
      refine completes_of_empty hcancel (fetchBatch_eq_ok.mpr ⟨hsize.ge, ?_⟩)
      rw [hsize]
      rfl
  · constructor
    · intro h
      refine .inr ⟨hsize, ?_⟩
      by_cases hpending : pending t = []
      · exact .inl hpending
      · have hslots : 0 < env.concurrency := by
          by_contra hzero
          exact not_completes_of_stuck hcancel hsize (by omega) hpending h
        exact .inr
          ⟨hslots, successes_of_completes hlimit hcancel hsize hslots h⟩
    · rintro (h | ⟨-, hpending | ⟨hslots, n, hn⟩⟩)
      · omega
      · exact completes_of_empty hcancel
          ((fetchBatch_eq_nil hsize).mpr hpending)
      · exact completes_of_successes hlimit hcancel hsize hslots hn

end Runs

/-! ## A copy that never succeeds -/

/-- A run at the default settings in which every attempt ends as `outcome`. -/
def always (outcome : Outcome) : BatchEnv Outcome where
  limit := none
  pageSize := 2500
  concurrency := 30
  cancelled := fun _ => false
  outcome := fun _ => outcome
  selected := fun _ => .none
  finished := fun _ => .none

/-- One video, scanned and hashed. -/
def oneHashed : VideoTables :=
  updatePhashSuccess "v" "0101" "phash" "legacy_hex_8x8_v0"
    (upsertHetznerKey "v" "u/v.mp4" false {})

theorem run_completes_always_ok : Completes (always (.ok ())) oneHashed :=
  (run_completes_iff rfl fun _ => rfl).mpr
    (.inr ⟨by decide, .inr ⟨by decide, 1, by decide⟩⟩)

/-- A video whose copy fails each time is selected again each time. -/
theorem run_never_completes :
    ¬ Completes (always (.error "download mp4 u/v.mp4: 404")) oneHashed := by
  intro h
  obtain ⟨n, hn⟩ := successes_of_completes rfl (fun _ => rfl) (by decide)
    (by decide) h
  have hzero : successes (always (.error "download mp4 u/v.mp4: 404")) n = 0 := by
    unfold successes
    rw [List.countP_eq_zero]
    exact fun _ _ => Bool.false_ne_true
  rw [hzero] at hn
  exact absurd hn (by decide)

end VideoStorage.Jobs.Mirror
