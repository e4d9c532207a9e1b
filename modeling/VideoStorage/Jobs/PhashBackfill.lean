import Mathlib.Algebra.Ring.Nat
import VideoStorage.Jobs.BatchLedger

/-!
# `phash_backfill::run`

A failed row goes back to `pending` with a higher count, until the count reaches
the threshold. Whatever the attempts bring, each of them uses up one of the
failures its row has left, so that a run ends, with every row it selected hashed
or failed for good (`run_terminates`).
-/

namespace VideoStorage.Jobs.PhashBackfill

open Db Foundation

/-- What `update_phash_success` is given of a `VideoHashResult`. -/
structure VideoHash where
  hash : String
  hashKind : String
  hashVersion : String
  deriving DecidableEq, Repr

/-- How the download and the hashing of a row ended. -/
abbrev Outcome : Type := Except String VideoHash

def recordPhash (maxRetries : ℤ) (row : VideoRow) (outcome : Outcome)
    (t : VideoTables) : Except SqlError VideoTables :=
  match outcome with
  | .ok r => .ok (updatePhashSuccess row.videoId r.hash r.hashKind r.hashVersion t)
  | .error e => (updatePhashFailure row.videoId e maxRetries t).map Prod.snd

/-- `maxRetries` is `MAX_PHASH_RETRIES`. -/
def job (maxRetries : ℤ) : BatchJob Outcome where
  fetch := fetchPendingPhashBatch
  record := recordPhash maxRetries

def run (maxRetries : ℤ) (env : BatchEnv Outcome) (t : VideoTables) (fuel : ℕ) :
    Option BatchResult :=
  runBatches (job maxRetries) env t fuel

/-- The rows `fetch_pending_phash_batch` selects from. -/
def pending (t : VideoTables) : List VideoRow := joinWhere phashPending t

theorem pending_nodup (t : VideoTables) : (pending t).Nodup :=
  joinWhere_nodup _ t

/-! ## What an attempt does -/

/-- Hashed, or failed as often as it may. -/
def Settled (maxRetries : ℤ) (t : VideoTables) (videoId : String) : Prop :=
  ∃ v j, t.video videoId = some v ∧ t.job videoId = some j ∧
    (j.status = .phashComputed ∧ v.phash.isSome ∨
      j.status = .failed ∧ maxRetries ≤ j.retryCount)

/-- The failures a job has left, the one that is never refused included. -/
def weight (maxRetries : ℤ) (t : VideoTables) (videoId : String) : ℕ :=
  (t.job videoId).elim 0 fun j => (maxRetries - j.retryCount).toNat + 1

/-- What all pending rows together have left. -/
def budget (maxRetries : ℤ) (t : VideoTables) : ℕ :=
  ((pending t).map fun row => weight maxRetries t row.videoId).sum

section Attempt

variable {maxRetries : ℤ} {t t' : VideoTables} {row u : VideoRow}
  {outcome : Outcome}

theorem Settled.not_pending (h : Settled maxRetries t row.videoId) :
    row ∉ pending t := by
  intro hrow
  obtain ⟨v, j, hv, hj, hs⟩ := h
  obtain ⟨v', j', hv', hj', -, hp⟩ := mem_joinWhere.mp hrow
  rw [hj] at hj'
  obtain rfl := Option.some.inj hj'
  rcases hs with ⟨hs, -⟩ | ⟨hs, -⟩
  · simp [phashPending, hs] at hp
  · simp [phashPending, hs] at hp

/-- One attempt: other videos are as they were; the row's is settled, or pending
below the threshold, with one failure less left. -/
structure Attempted (maxRetries : ℤ) (row : VideoRow) (t t' : VideoTables) :
    Prop where
  video : ∀ id, id ≠ row.videoId → t'.video id = t.video id
  job : ∀ id, id ≠ row.videoId → t'.job id = t.job id
  self : Settled maxRetries t' row.videoId ∨ row ∈ pending t' ∧
    weight maxRetries t' row.videoId < weight maxRetries t row.videoId ∧
    ∀ j, t'.job row.videoId = some j → j.retryCount < maxRetries

theorem attempted_success (hrow : row ∈ pending t) {phash kind version : String} :
    Attempted maxRetries row t
      (updatePhashSuccess row.videoId phash kind version t) := by
  obtain ⟨v, j, hv, hj, -, hp⟩ := mem_joinWhere.mp hrow
  have hstatus : j.status = .pending := by
    simp only [phashPending, Bool.and_eq_true, decide_eq_true_eq] at hp
    exact hp.1
  have hvideo : ∀ id, (updatePhashSuccess row.videoId phash kind version t).video id
      = if id = row.videoId then (t.video id).map fun v => { v with
          phash := some phash
          phashKind := some kind
          phashVersion := some version } else t.video id := by
    intro id
    unfold updatePhashSuccess
    rw [VideoTables.video_updateJob, VideoTables.video_updateVideo]
  have hjob : ∀ id, (updatePhashSuccess row.videoId phash kind version t).job id
      = if id = row.videoId then (t.job id).map fun j =>
          if j.status = .pending then
            { j with status := .phashComputed, errorMessage := none }
          else j else t.job id := by
    intro id
    unfold updatePhashSuccess
    rw [VideoTables.job_updateJob, VideoTables.job_updateVideo]
  constructor
  · intro id hid
    rw [hvideo, if_neg hid]
  · intro id hid
    rw [hjob, if_neg hid]
  · have hv' := hvideo row.videoId
    have hj' := hjob row.videoId
    rw [if_pos rfl, hv] at hv'
    rw [if_pos rfl, hj] at hj'
    simp only [Option.map_some, hstatus, if_true] at hv' hj'
    exact .inl ⟨_, _, hv', hj', .inl ⟨rfl, rfl⟩⟩

theorem attempted_failure (hrow : row ∈ pending t) {error : String} {n : ℕ}
    (h : updatePhashFailure row.videoId error maxRetries t = .ok (n, t')) :
    Attempted maxRetries row t t' := by
  obtain ⟨v, j, hv, hj, hkey, hp⟩ := mem_joinWhere.mp hrow
  have hn := updatePhashFailure_count h hj
  obtain ⟨-, -, rfl⟩ := updatePhashFailure_ok h
  have hvideo : ∀ (f : MirrorJob → MirrorJob) id,
      (t.updateJob row.videoId f).video id = t.video id := fun f id =>
    VideoTables.video_updateJob
  constructor
  · exact fun id _ => hvideo _ id
  · intro id hid
    rw [VideoTables.job_updateJob, if_neg hid]
  · have hjob : ∀ f : MirrorJob → MirrorJob,
        (t.updateJob row.videoId f).job row.videoId = some (f j) := by
      intro f
      rw [VideoTables.job_updateJob, if_pos rfl, hj]
      rfl
    by_cases hlast : maxRetries ≤ n
    · refine .inl ⟨v, _, (hvideo _ _).trans hv, hjob _, .inr ⟨?_, hlast⟩⟩
      rw [if_pos hlast]
    · refine .inr ⟨mem_joinWhere.mpr ⟨v, _, (hvideo _ _).trans hv, hjob _, hkey, ?_⟩,
        ?_, fun j' hj' => ?_⟩
      · simp only [phashPending, Bool.and_eq_true] at hp ⊢
        exact ⟨by simp [hlast], hp.2⟩
      · unfold weight
        rw [hjob, hj]
        simp only [Option.elim_some]
        omega
      · rw [hjob] at hj'
        obtain rfl := Option.some.inj hj'
        exact not_le.mp hlast

theorem recordPhash_attempted (hrow : row ∈ pending t)
    (h : recordPhash maxRetries row outcome t = .ok t') :
    Attempted maxRetries row t t' := by
  cases outcome with
  | ok r =>
      obtain rfl := Except.ok.inj h
      exact attempted_success hrow
  | error e =>
      obtain ⟨⟨n, t''⟩, hup, rfl⟩ := map_eq_ok.mp h
      exact attempted_failure hrow hup

/-- Another video is selectable as before. -/
theorem Attempted.mem_pending (h : Attempted maxRetries row t t')
    (hid : u.videoId ≠ row.videoId) : u ∈ pending t' ↔ u ∈ pending t := by
  unfold pending
  rw [mem_joinWhere, mem_joinWhere, h.video _ hid, h.job _ hid]

theorem Attempted.weight_eq (h : Attempted maxRetries row t t') {id : String}
    (hid : id ≠ row.videoId) : weight maxRetries t' id = weight maxRetries t id := by
  unfold weight
  rw [h.job id hid]

/-- A settled video stays so. -/
theorem Attempted.settled (h : Attempted maxRetries row t t') {id : String}
    (hid : id ≠ row.videoId) (hs : Settled maxRetries t id) :
    Settled maxRetries t' id := by
  obtain ⟨v, j, hv, hj, hcase⟩ := hs
  exact ⟨v, j, (h.video id hid).trans hv, (h.job id hid).trans hj, hcase⟩

theorem weight_pos (hrow : row ∈ pending t) : 0 < weight maxRetries t row.videoId := by
  obtain ⟨v, j, -, hj, -⟩ := mem_joinWhere.mp hrow
  unfold weight
  rw [hj]
  exact Nat.succ_pos _

theorem budget_eq_add (hrow : row ∈ pending t) :
    budget maxRetries t = weight maxRetries t row.videoId
      + (((pending t).erase row).map fun u => weight maxRetries t u.videoId).sum := by
  have hperm := (List.perm_cons_erase hrow).map fun u => weight maxRetries t u.videoId
  exact hperm.sum_nat

theorem videoId_ne_of_mem_erase (hrow : row ∈ pending t)
    (hu : u ∈ (pending t).erase row) : u.videoId ≠ row.videoId := by
  intro hid
  obtain ⟨hother, hmem⟩ := (pending_nodup t).mem_erase_iff.mp hu
  exact hother (joinWhere_unique hrow hmem hid)

theorem Attempted.mem_pending_erase (h : Attempted maxRetries row t t')
    (hid : u.videoId ≠ row.videoId) : u ∈ pending t' ↔ u ∈ (pending t).erase row := by
  rw [h.mem_pending hid, (pending_nodup t).mem_erase_iff]
  exact ⟨fun hu => ⟨fun heq => hid (heq ▸ rfl), hu⟩, fun hu => hu.2⟩

/-- What an attempt leaves to select, when its row is settled. -/
theorem Attempted.pending_perm_of_settled (h : Attempted maxRetries row t t')
    (hrow : row ∈ pending t) (hgone : ∀ u ∈ pending t', u.videoId ≠ row.videoId) :
    (pending t').Perm ((pending t).erase row) := by
  rw [List.perm_ext_iff_of_nodup (pending_nodup _) ((pending_nodup t).erase row)]
  intro u
  by_cases hid : u.videoId = row.videoId
  · exact iff_of_false (fun hu => hgone u hu hid)
      fun hu => videoId_ne_of_mem_erase hrow hu hid
  · exact h.mem_pending_erase hid

/-- What it leaves, when its row may be tried again. -/
theorem Attempted.pending_perm_of_pending (h : Attempted maxRetries row t t')
    (hrow : row ∈ pending t) (hrow' : row ∈ pending t') :
    (pending t').Perm (row :: (pending t).erase row) := by
  rw [List.perm_ext_iff_of_nodup (pending_nodup _)
    (List.nodup_cons.mpr ⟨(pending_nodup t).not_mem_erase,
      (pending_nodup t).erase row⟩)]
  intro u
  rw [List.mem_cons]
  by_cases hid : u.videoId = row.videoId
  · constructor
    · exact fun hu => .inl (joinWhere_unique hrow' hu hid)
    · rintro (rfl | hu)
      · exact hrow'
      · exact absurd hid (videoId_ne_of_mem_erase hrow hu)
  · rw [h.mem_pending_erase hid]
    exact ⟨.inr, fun hu => hu.resolve_left fun heq => hid (heq ▸ rfl)⟩

/-- **An attempt uses up budget**, whatever its outcome. -/
theorem Attempted.budget_lt (h : Attempted maxRetries row t t')
    (hrow : row ∈ pending t) : budget maxRetries t' < budget maxRetries t := by
  have hrest : ((pending t).erase row).map (fun u => weight maxRetries t' u.videoId)
      = ((pending t).erase row).map fun u => weight maxRetries t u.videoId :=
    List.map_congr_left fun u hu => h.weight_eq (videoId_ne_of_mem_erase hrow hu)
  have hbefore := @budget_eq_add maxRetries t row hrow
  have hweight := @weight_pos maxRetries t row hrow
  rcases h.self with hsettled | ⟨hrow', hlt, -⟩
  · -- the row is selectable no more
    have hgone : ∀ u ∈ pending t', u.videoId ≠ row.videoId :=
      fun u hu hid => Settled.not_pending (hid ▸ hsettled) hu
    have hperm := h.pending_perm_of_settled hrow hgone
    have hafter := (hperm.map fun u => weight maxRetries t' u.videoId).sum_nat
    rw [hrest] at hafter
    unfold budget at hbefore ⊢
    omega
  · have hperm := h.pending_perm_of_pending hrow hrow'
    have hafter := (hperm.map fun u => weight maxRetries t' u.videoId).sum_nat
    rw [List.map_cons, List.sum_cons, hrest] at hafter
    unfold budget at hbefore ⊢
    omega

/-- The counts of pending rows can be raised once more. -/
def CountsFit (t : VideoTables) : Prop :=
  ∀ row ∈ pending t, ∀ j, t.job row.videoId = some j → j.retryCount + 1 < 2 ^ 31

theorem recordPhash_isOk (hfit : CountsFit t) (hrow : row ∈ pending t)
    (outcome : Outcome) : ∃ t', recordPhash maxRetries row outcome t = .ok t' := by
  cases outcome with
  | ok r => exact ⟨_, rfl⟩
  | error e =>
      obtain ⟨v, j, -, hj, -⟩ := mem_joinWhere.mp hrow
      unfold recordPhash updatePhashFailure succInt4
      rw [hj]
      dsimp only
      rw [if_pos (hfit row hrow j hj)]
      exact ⟨_, rfl⟩

/-- A threshold in range keeps the counts in range. -/
theorem Attempted.countsFit (h : Attempted maxRetries row t t')
    (hmax : maxRetries < 2 ^ 31) (hfit : CountsFit t) : CountsFit t' := by
  intro u hu j hj
  by_cases hid : u.videoId = row.videoId
  · rcases h.self with hs | ⟨-, -, hbelow⟩
    · exact absurd hu (Settled.not_pending (hid ▸ hs))
    · have hlt := hbelow j (hid ▸ hj)
      omega
  · rw [h.job _ hid] at hj
    exact hfit u ((h.mem_pending hid).mp hu) j hj

end Attempt

/-! ## Rounds -/

/-- Attempts at rows that were pending: the others are as they were, each of them
is settled or pending, and the budget is smaller. -/
structure Worked (maxRetries : ℤ) (rows : List VideoRow) (t t' : VideoTables) :
    Prop where
  video : ∀ id, id ∉ rows.map (·.videoId) → t'.video id = t.video id
  job : ∀ id, id ∉ rows.map (·.videoId) → t'.job id = t.job id
  reached : ∀ row ∈ rows, Settled maxRetries t' row.videoId ∨ row ∈ pending t'
  budget : budget maxRetries t' + rows.length ≤ budget maxRetries t

section Rounds

variable {maxRetries : ℤ} {env : BatchEnv Outcome} {s s' : BatchState}
  {rows : List VideoRow} {row : VideoRow} {t t' t₁ : VideoTables} {full : Bool}

theorem Worked.cons (h : Attempted maxRetries row t t₁) (hrow : row ∈ pending t)
    (h₁ : Worked maxRetries rows t₁ t')
    (hfresh : row.videoId ∉ rows.map (·.videoId)) :
    Worked maxRetries (row :: rows) t t' := by
  have hvideo := h₁.video _ hfresh
  have hjob := h₁.job _ hfresh
  constructor
  · intro id hid
    rw [List.map_cons, List.mem_cons, not_or] at hid
    rw [h₁.video id hid.2, h.video id hid.1]
  · intro id hid
    rw [List.map_cons, List.mem_cons, not_or] at hid
    rw [h₁.job id hid.2, h.job id hid.1]
  · intro u hu
    rcases List.mem_cons.mp hu with rfl | hu
    · rcases h.self with ⟨v, j, hv, hj, hs⟩ | ⟨hpending, -, -⟩
      · exact .inl ⟨v, j, hvideo.trans hv, hjob.trans hj, hs⟩
      · refine .inr ?_
        unfold pending at hpending ⊢
        rw [mem_joinWhere, hvideo, hjob]
        exact mem_joinWhere.mp hpending
    · exact h₁.reached u hu
  · have hlt := h.budget_lt hrow
    have hle := h₁.budget
    rw [List.length_cons]
    omega

theorem recordResults_worked (hlimit : env.limit = none)
    (hrows : ∀ row ∈ rows, row ∈ pending s.tables) (hnodup : rows.Nodup)
    (h : recordResults (job maxRetries) env rows s = .ok (full, s')) :
    full = false ∧ Worked maxRetries rows s.tables s'.tables := by
  induction rows generalizing s with
  | nil =>
      cases h
      exact ⟨rfl, fun _ _ => rfl, fun _ _ => rfl, nofun, le_refl _⟩
  | cons row rows ih =>
      have hrow := hrows row List.mem_cons_self
      obtain ⟨hnot, hnodup⟩ := List.nodup_cons.mp hnodup
      have hne : ∀ u ∈ rows, u.videoId ≠ row.videoId := by
        intro u hu hid
        have heq := joinWhere_unique hrow (hrows u (List.mem_cons_of_mem _ hu)) hid
        exact hnot (heq ▸ hu)
      unfold recordResults at h
      cases hrec : (job maxRetries).record row (env.outcome s.grandTotal) s.tables with
      | error e =>
          rw [hrec] at h
          cases h
      | ok t =>
          rw [hrec] at h
          simp only [hlimit, Option.any_none, Bool.false_eq_true, if_false] at h
          have hattempted := recordPhash_attempted hrow hrec
          obtain ⟨hfull, hrest⟩ := ih (fun u hu => (hattempted.mem_pending (hne u hu)).mpr
            (hrows u (List.mem_cons_of_mem _ hu))) hnodup h
          refine ⟨hfull, hrest.cons hattempted hrow ?_⟩
          intro hmem
          obtain ⟨u, hu, hid⟩ := List.mem_map.mp hmem
          exact hne u hu hid

theorem recordResults_isOk (hmax : maxRetries < 2 ^ 31) (hfit : CountsFit s.tables)
    (hrows : ∀ row ∈ rows, row ∈ pending s.tables) (hnodup : rows.Nodup) :
    ∃ full s', recordResults (job maxRetries) env rows s = .ok (full, s') ∧
      CountsFit s'.tables := by
  induction rows generalizing s with
  | nil => exact ⟨false, s, rfl, hfit⟩
  | cons row rows ih =>
      have hrow := hrows row List.mem_cons_self
      obtain ⟨hnot, hnodup⟩ := List.nodup_cons.mp hnodup
      obtain ⟨t, hrec⟩ := @recordPhash_isOk maxRetries _ _ hfit hrow
        (env.outcome s.grandTotal)
      have hattempted := recordPhash_attempted hrow hrec
      have hfit' := hattempted.countsFit hmax hfit
      have hrest : ∀ u ∈ rows, u ∈ pending t := by
        intro u hu
        have hmem := hrows u (List.mem_cons_of_mem _ hu)
        refine (hattempted.mem_pending fun hid => ?_).mpr hmem
        exact hnot (joinWhere_unique hrow hmem hid ▸ hu)
      unfold recordResults
      rw [show (job maxRetries).record = recordPhash maxRetries from rfl, hrec]
      dsimp only
      split_ifs
      · exact ⟨true, _, rfl, hfit'⟩
      · exact @ih { s with tables := t, grandTotal := s.grandTotal + 1 } hfit' hrest
          hnodup

/-- The rows a run has selected so far: settled or pending; no other row was
touched. -/
structure Selected (maxRetries : ℤ) (t t' : VideoTables) (rows : List VideoRow) :
    Prop where
  video : ∀ id, id ∉ rows.map (·.videoId) → t'.video id = t.video id
  job : ∀ id, id ∉ rows.map (·.videoId) → t'.job id = t.job id
  reached : ∀ row ∈ rows, Settled maxRetries t' row.videoId ∨ row ∈ pending t'

theorem Selected.append {batch : List VideoRow} (h : Selected maxRetries t t₁ rows)
    (hbatch : ∀ row ∈ batch, row ∈ pending t₁)
    (hworked : Worked maxRetries batch t₁ t') :
    Selected maxRetries t t' (rows ++ batch) := by
  constructor
  · intro id hid
    rw [List.map_append, List.mem_append, not_or] at hid
    rw [hworked.video id hid.2, h.video id hid.1]
  · intro id hid
    rw [List.map_append, List.mem_append, not_or] at hid
    rw [hworked.job id hid.2, h.job id hid.1]
  · intro u hu
    rcases List.mem_append.mp hu with hu | hu
    · by_cases hid : u.videoId ∈ batch.map (·.videoId)
      · obtain ⟨row, hrow, heq⟩ := List.mem_map.mp hid
        rcases hworked.reached row hrow with hs | hpending
        · exact .inl (heq ▸ hs)
        · rcases h.reached u hu with hs | hu
          · exact absurd (hbatch row hrow) (Settled.not_pending (heq ▸ hs))
          · have hsame := joinWhere_unique (hbatch row hrow) hu heq.symm
            exact .inr (hsame ▸ hpending)
      · rcases h.reached u hu with ⟨v, j, hv, hj, hs⟩ | hpending
        · exact .inl ⟨v, j, (hworked.video _ hid).trans hv,
            (hworked.job _ hid).trans hj, hs⟩
        · refine .inr ?_
          unfold pending at hpending ⊢
          rw [mem_joinWhere, hworked.video _ hid, hworked.job _ hid]
          exact mem_joinWhere.mp hpending
    · exact hworked.reached u hu

theorem batch_spec {rows : List VideoRow}
    (hbatch : (job maxRetries).batch env s = .ok rows) :
    (∀ row ∈ rows, row ∈ pending s.tables) ∧ rows.Nodup := by
  constructor
  · exact fun row hrow => mem_of_mem_fetchBatch hbatch hrow
  · exact fetchBatch_nodup hbatch (pending_nodup _)

/-- **A round that goes on** lowers the budget. -/
theorem selected_next (hlimit : env.limit = none)
    (hcancel : env.cancelled s.rounds = false) (hslots : 1 ≤ env.concurrency)
    (h : Selected maxRetries t s.tables rows)
    (hstep : batchStep (job maxRetries) env s = .inl s') :
    Selected maxRetries t s'.tables
        (rows ++ (job maxRetries).fetched env s) ∧
      budget maxRetries s'.tables < budget maxRetries s.tables := by
  have hround := batchRound_of_running (job maxRetries) hcancel
  rw [hstep] at hround
  cases hround with
  | stuck _ _ _ hzero => omega
  | next batch _ hbatch hne _ hrec =>
      obtain ⟨hpending, hnodup⟩ := batch_spec hbatch
      have hperm := (env.finished s.rounds).perm batch
      have hpending' : ∀ row ∈ (env.finished s.rounds).apply batch,
          row ∈ pending s.tables := fun row hrow =>
        hpending row (hperm.mem_iff.mp hrow)
      obtain ⟨-, hworked⟩ := @recordResults_worked _ _
        { s with rounds := s.rounds + 1 } _ _ _ hlimit hpending'
        (hperm.nodup_iff.mpr hnodup) hrec
      have hids : ∀ id, id ∈ ((env.finished s.rounds).apply batch).map (·.videoId) ↔
          id ∈ batch.map (·.videoId) := fun id => (hperm.map _).mem_iff
      have hworked' : Worked maxRetries batch s.tables s'.tables := by
        refine ⟨fun id hid => hworked.video id fun hmem => hid ((hids id).mp hmem),
          fun id hid => hworked.job id fun hmem => hid ((hids id).mp hmem),
          fun row hrow => hworked.reached row (hperm.mem_iff.mpr hrow), ?_⟩
        rw [← hperm.length_eq]
        exact hworked.budget
      rw [fetched_of_batch hcancel hbatch]
      refine ⟨h.append hpending hworked', ?_⟩
      have hle := hworked'.budget
      have hpos := List.length_pos_of_ne_nil hne
      omega

/-- A round that ends the run without an error found nothing pending. -/
theorem selected_stop (hlimit : env.limit = none)
    (hcancel : env.cancelled s.rounds = false) (hsize : 1 ≤ env.pageSize)
    {e : BatchEnd} (hstep : batchStep (job maxRetries) env s = .inr (.ok (e, s'))) :
    e = .complete ∧ s' = s ∧ pending s.tables = [] ∧
      (job maxRetries).fetched env s = [] := by
  have hround := batchRound_of_running (job maxRetries) hcancel
  rw [hstep] at hround
  cases hround with
  | complete hbatch =>
      exact ⟨rfl, rfl, (fetchBatch_eq_nil hsize).mp hbatch,
        fetched_of_batch hcancel hbatch⟩
  | limit batch _ hbatch _ hrec =>
      obtain ⟨hpending, hnodup⟩ := batch_spec hbatch
      have hperm := (env.finished s.rounds).perm batch
      obtain ⟨hfull, -⟩ := @recordResults_worked _ _
        { s with rounds := s.rounds + 1 } _ _ _ hlimit
        (fun row hrow => hpending row (hperm.mem_iff.mp hrow))
        (hperm.nodup_iff.mpr hnodup) hrec
      cases hfull

end Rounds

/-! ## Runs -/

/-- No statement of the run fails: each failure ends the run with its error. -/
def NoSqlErrors (maxRetries : ℤ) (env : BatchEnv Outcome) (t : VideoTables) :
    Prop :=
  ∀ fuel e, run maxRetries env t fuel ≠ some (.error e)

/-- Counts and threshold in the range of the column: no statement fails. -/
theorem noSqlErrors {maxRetries : ℤ} {env : BatchEnv Outcome} {t : VideoTables}
    (hsize : 0 ≤ env.pageSize) (hmax : maxRetries < 2 ^ 31) (hfit : CountsFit t) :
    NoSqlErrors maxRetries env t := by
  have hbatch : ∀ s, ∃ rows, (job maxRetries).batch env s = .ok rows := fun s =>
    ⟨_, fetchBatch_eq_ok.mpr ⟨hsize, rfl⟩⟩
  have hround : ∀ s, CountsFit s.tables →
      (∀ s', batchStep (job maxRetries) env s = .inl s' → CountsFit s'.tables) ∧
      ∀ e, batchStep (job maxRetries) env s ≠ .inr (.error e) := by
    intro s hs
    cases hcancel : env.cancelled s.rounds with
    | true =>
        rw [(batchStep_cancelled hcancel).1]
        exact ⟨nofun, nofun⟩
    | false =>
        obtain ⟨rows, hrows⟩ := hbatch s
        obtain ⟨hpending, hnodup⟩ := batch_spec hrows
        have hperm := (env.finished s.rounds).perm rows
        obtain ⟨full, s₁, hrec, hfit₁⟩ := @recordResults_isOk maxRetries env
          { s with rounds := s.rounds + 1 } _ hmax hs
          (fun row hrow => hpending row (hperm.mem_iff.mp hrow))
          (hperm.nodup_iff.mpr hnodup)
        have hstep := batchRound_of_running (job maxRetries) hcancel
        constructor
        · intro s' hs'
          rw [hs'] at hstep
          cases hstep with
          | stuck _ _ _ _ => exact hs
          | next rows' _ hrows' _ _ hrec' =>
              obtain rfl := Except.ok.inj (hrows.symm.trans hrows')
              obtain ⟨-, rfl⟩ := Prod.mk.inj (Except.ok.inj (hrec.symm.trans hrec'))
              exact hfit₁
        · intro e he
          rw [he] at hstep
          cases hstep with
          | fetchError _ herr => cases hrows.symm.trans herr
          | recordError rows' _ hrows' _ hrec' =>
              obtain rfl := Except.ok.inj (hrows.symm.trans hrows')
              cases hrec.symm.trans hrec'
  intro fuel e h
  refine iterate_post (fun s : BatchState => CountsFit s.tables)
    (fun r : BatchResult => r ≠ .error e) (fun s s' hs hstep => (hround s hs).1 s' hstep)
    (fun s r hs hstep hr => (hround s hs).2 e (hr ▸ hstep)) hfit h rfl

/-- What a run that is left alone leaves behind, by the rows it selected. -/
structure Finished (maxRetries : ℤ) (t t' : VideoTables)
    (selections : List VideoRow) : Prop where
  empty : pending t' = []
  settled : ∀ row ∈ selections, Settled maxRetries t' row.videoId
  video : ∀ id, id ∉ selections.map (·.videoId) → t'.video id = t.video id
  job : ∀ id, id ∉ selections.map (·.videoId) → t'.job id = t.job id

theorem selected_init (maxRetries : ℤ) (t : VideoTables) : Selected maxRetries t t [] :=
  ⟨fun _ _ => rfl, fun _ _ => rfl, nofun⟩

/-- A run without a limit that nobody cancels ends, with an error or without. -/
theorem run_total (maxRetries : ℤ) (env : BatchEnv Outcome) (t : VideoTables)
    (hlimit : env.limit = none) (hcancel : ∀ n, env.cancelled n = false)
    (hslots : 1 ≤ env.concurrency) : ∃ fuel r, run maxRetries env t fuel = some r := by
  obtain ⟨r, hr⟩ := iterate_total (batchStep (job maxRetries) env)
    (fun s => ∃ rows, Selected maxRetries t s.tables rows)
    (fun s => budget maxRetries s.tables) (s := { tables := t })
    (fun s s' ⟨rows, hs⟩ hstep => by
      obtain ⟨hs', hlt⟩ := selected_next hlimit (hcancel _) hslots hs hstep
      exact ⟨⟨_, hs'⟩, hlt⟩) ⟨[], selected_init maxRetries t⟩
  exact ⟨budget maxRetries t + 1, r, hr⟩

/-- **Termination.** Whatever its attempts bring, a run that nothing disturbs
comes to an empty batch. Every row it selected is hashed then, or has failed as
often as it may, and the others are as they were. -/
theorem run_terminates (maxRetries : ℤ) (env : BatchEnv Outcome) (t : VideoTables)
    (hlimit : env.limit = none) (hcancel : ∀ n, env.cancelled n = false)
    (hsize : 1 ≤ env.pageSize) (hslots : 1 ≤ env.concurrency)
    (hsql : NoSqlErrors maxRetries env t) :
    ∃ fuel s, run maxRetries env t fuel = some (.ok (.complete, s)) ∧
      Finished maxRetries t s.tables ((job maxRetries).selections env t fuel) := by
  obtain ⟨fuel, r, hr⟩ := run_total maxRetries env t hlimit hcancel hslots
  cases r with
  | error e => exact absurd hr (hsql fuel e)
  | ok result =>
      obtain ⟨e, s⟩ := result
      have hpost := @visited_post _ _ (batchStep (job maxRetries) env) _
        ((job maxRetries).fetched env)
        (fun s rows => Selected maxRetries t s.tables rows)
        (fun r rows => ∀ e s, r = .ok (e, s) →
          e = .complete ∧ pending s.tables = [] ∧ Selected maxRetries t s.tables rows)
        fuel { tables := t } _ [] ?_ ?_ (selected_init maxRetries t) hr
      · obtain ⟨rfl, hempty, hselected⟩ := hpost e s rfl
        refine ⟨fuel, s, hr, hempty, fun row hrow => ?_, hselected.video, hselected.job⟩
        rcases hselected.reached row hrow with hs | hpending
        · exact hs
        · rw [hempty] at hpending
          cases hpending
      · intro s s' rows hs hstep
        exact (selected_next hlimit (hcancel _) hslots hs hstep).1
      · rintro s r rows hs hstep e s' rfl
        obtain ⟨rfl, rfl, hempty, hfetched⟩ :=
          selected_stop hlimit (hcancel _) hsize hstep
        rw [hfetched, List.append_nil]
        exact ⟨rfl, hempty, hs⟩

/-- One video, scanned. -/
def oneScanned : VideoTables := upsertHetznerKey "v" "u/v.mp4" false {}

/-- A run at the default settings in which every attempt ends as `outcome`. -/
def always (outcome : Outcome) : BatchEnv Outcome where
  limit := none
  pageSize := 2500
  concurrency := 10
  cancelled := fun _ => false
  outcome := fun _ => outcome
  selected := fun _ => .none
  finished := fun _ => .none

/-- A video whose download fails each time is given up. -/
theorem run_terminates_failing :
    ∃ fuel s, run 5 (always (.error "download u/v.mp4: 404")) oneScanned fuel
        = some (.ok (.complete, s)) ∧
      Finished 5 oneScanned s.tables ((job 5).selections
        (always (.error "download u/v.mp4: 404")) oneScanned fuel) := by
  apply run_terminates 5 _ _ rfl (fun _ => rfl) (by decide) (by decide)
  apply noSqlErrors (by decide) (by decide)
  intro row hrow j hj
  have hpending : pending oneScanned = [⟨"v", "u/v.mp4"⟩] := by decide
  rw [hpending] at hrow
  rw [List.mem_singleton.mp hrow] at hj
  cases hj
  decide

end VideoStorage.Jobs.PhashBackfill
