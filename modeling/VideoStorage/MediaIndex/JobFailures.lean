import Mathlib.Tactic.Linarith
import VideoStorage.Foundation.Sql

/-!
# `media_job_failures`

Failure rows with their back-off. `media_phash` counts the failures of a video
in a phase and doubles the delay each time; the SQL computes the doubled
interval before `LEAST` caps it, so the statement fails once the interval leaves
the range of a 64-bit count of microseconds (`recordPhash_iff`).
-/

namespace VideoStorage.MediaIndex

open Foundation

/-! ## The back-off -/

/-- `interval '5 minutes'`, in microseconds. -/
def fiveMinutes : ℤ := 5 * 60 * 1000000

/-- `interval '24 hours'`. -/
def dayMicros : ℤ := 24 * 60 * 60 * 1000000

/-- `5 min * 2^n` fits for the first 34 doublings and for no more. -/
theorem fiveMinutes_fits_iff {n : ℕ} : fiveMinutes * 2 ^ n < 2 ^ 63 ↔ n ≤ 34 := by
  constructor
  · intro h
    by_contra hn
    have hpow : (2 : ℤ) ^ 35 ≤ 2 ^ n :=
      pow_le_pow_right₀ (by decide) (by omega)
    have hle : fiveMinutes * 2 ^ 35 ≤ fiveMinutes * 2 ^ n :=
      mul_le_mul_of_nonneg_left hpow (by decide)
    have hbig : (2 : ℤ) ^ 63 ≤ fiveMinutes * 2 ^ 35 := by decide
    omega
  · intro h
    have hpow : (2 : ℤ) ^ n ≤ 2 ^ 34 := pow_le_pow_right₀ (by decide) h
    have hle : fiveMinutes * 2 ^ n ≤ fiveMinutes * 2 ^ 34 :=
      mul_le_mul_of_nonneg_left hpow (by decide)
    have hsmall : fiveMinutes * 2 ^ 34 < (2 : ℤ) ^ 63 := by decide
    omega

/-! ## Rows -/

structure MediaJobFailure where
  jobRunId : String
  jobKind : String
  itemKey : String
  videoId : String
  phase : String
  sourceRef : String
  retryCount : ℕ
  lastError : String
  nextRetryAt : Option ℤ
  status : String
  deriving DecidableEq, Repr

/-- The unique key `(job_kind, item_key, phase)`. -/
def MediaJobFailure.key (f : MediaJobFailure) : String × String × String :=
  (f.jobKind, f.itemKey, f.phase)

theorem noRows_keyed :
    ∀ f ∈ ([] : List MediaJobFailure), f.itemKey = f.videoId := by
  simp

/-- The table. Both writers set `item_key` and `video_id` to the video's id. -/
structure JobFailures where
  rows : List MediaJobFailure := []
  keyed : ∀ f ∈ rows, f.itemKey = f.videoId := by
    first | exact noRows_keyed | simp

namespace JobFailures

def find (t : JobFailures) (key : String × String × String) :
    Option MediaJobFailure :=
  t.rows.find? (·.key = key)

/-- The rows of one video, of whatever job. -/
def ofVideo (t : JobFailures) (videoId : String) : List MediaJobFailure :=
  t.rows.filter (·.videoId = videoId)

end JobFailures

/-- `INSERT … ON CONFLICT (job_kind, item_key, phase) DO UPDATE`. -/
def upsertFailure (new : MediaJobFailure)
    (onConflict : MediaJobFailure → Except SqlError MediaJobFailure) :
    List MediaJobFailure → Except SqlError (List MediaJobFailure)
  | [] => .ok [new]
  | f :: fs =>
      if f.key = new.key then (onConflict f).map (· :: fs)
      else (upsertFailure new onConflict fs).map (f :: ·)

/-- What both `ON CONFLICT` clauses take from the new row. -/
def MediaJobFailure.overwrite (new f : MediaJobFailure) : MediaJobFailure :=
  { f with
    jobRunId := new.jobRunId
    videoId := new.videoId
    sourceRef := new.sourceRef
    lastError := new.lastError
    status := new.status }

/-- `media_phash`: the delay is computed from the count before it is raised. -/
def phashConflict (now : ℤ) (new f : MediaJobFailure) :
    Except SqlError MediaJobFailure := do
  let count ← succInt4 f.retryCount
  let delay ← intervalTimesPower fiveMinutes f.retryCount
  return { new.overwrite f with
    retryCount := count
    nextRetryAt := some (now + min delay dayMicros) }

/-- The clause succeeds as long as the doubled delay is an interval. -/
theorem phashConflict_eq_ok {now : ℤ} {new f g : MediaJobFailure} :
    phashConflict now new f = .ok g ↔ f.retryCount ≤ 34 ∧
      g = { new.overwrite f with
        retryCount := f.retryCount + 1
        nextRetryAt :=
          some (now + min (fiveMinutes * 2 ^ f.retryCount) dayMicros) } := by
  simp only [phashConflict, succInt4, intervalTimesPower, fiveMinutes_fits_iff]
  by_cases hn : f.retryCount ≤ 34
  · have hint : f.retryCount + 1 < 2 ^ 31 := by omega
    rw [if_pos hint, if_pos hn]
    constructor
    · rintro ⟨⟩
      exact ⟨hn, rfl⟩
    · rintro ⟨-, rfl⟩
      rfl
  · rw [if_neg hn]
    constructor
    · intro h
      split_ifs at h <;> cases h
    · intro h
      exact absurd h.1 hn

/-- The row `media_phash::record_row_failure_txn` inserts. -/
def phashFailure (now : ℤ) (jobRunId videoId phase error : String) :
    MediaJobFailure where
  jobRunId := jobRunId
  jobKind := "media_phash"
  itemKey := videoId
  videoId := videoId
  phase := phase
  sourceRef := videoId
  retryCount := 1
  lastError := error
  nextRetryAt := some (now + fiveMinutes)
  status := "pending_retry"

/-- The row `media_imports::record_row_failure_txn` inserts, with the column
defaults: no count and no back-off. -/
def importFailure (jobRunId videoId phase error : String) : MediaJobFailure where
  jobRunId := jobRunId
  jobKind := "legacy_video_index_import"
  itemKey := videoId
  videoId := videoId
  phase := phase
  sourceRef := videoId
  retryCount := 0
  lastError := error
  nextRetryAt := none
  status := "pending_retry"

/-! ## What an upsert leaves -/

section Upsert

variable {new f : MediaJobFailure} {rows rows' : List MediaJobFailure}
  {onConflict : MediaJobFailure → Except SqlError MediaJobFailure}

/-- An `ON CONFLICT` clause that keeps the key and takes the new video. -/
def KeepsKey (new : MediaJobFailure)
    (onConflict : MediaJobFailure → Except SqlError MediaJobFailure) : Prop :=
  ∀ f g, onConflict f = .ok g → g.key = f.key ∧ g.videoId = new.videoId

/-- The rows after an upsert: the new one at the end, or the one with its key
replaced by what the clause makes of it. -/
theorem upsertFailure_cases (h : upsertFailure new onConflict rows = .ok rows') :
    (rows.find? (·.key = new.key) = none ∧ rows' = rows ++ [new]) ∨
      ∃ pre f g post, rows = pre ++ f :: post ∧ rows' = pre ++ g :: post ∧
        (∀ x ∈ pre, x.key ≠ new.key) ∧ f.key = new.key ∧ onConflict f = .ok g := by
  induction rows generalizing rows' with
  | nil =>
      cases h
      exact .inl ⟨rfl, rfl⟩
  | cons f fs ih =>
      simp only [upsertFailure] at h
      split_ifs at h with hkey
      · cases hg : onConflict f with
        | error e =>
            rw [hg] at h
            cases h
        | ok g =>
            rw [hg] at h
            cases h
            exact .inr ⟨[], f, g, fs, rfl, rfl, by simp, hkey, hg⟩
      · cases hfs : upsertFailure new onConflict fs with
        | error e =>
            rw [hfs] at h
            cases h
        | ok fs' =>
            rw [hfs] at h
            cases h
            rcases ih hfs with ⟨hnone, rfl⟩ |
              ⟨pre, f', g, post, rfl, rfl, hpre, hf', hg⟩
            · refine .inl ⟨?_, rfl⟩
              rw [List.find?_cons_of_neg (by simpa using hkey)]
              exact hnone
            · refine .inr ⟨f :: pre, f', g, post, rfl, rfl, ?_, hf', hg⟩
              intro x hx
              rcases List.mem_cons.mp hx with rfl | hx
              · exact hkey
              · exact hpre x hx

theorem upsertFailure_of_none (h : rows.find? (·.key = new.key) = none) :
    upsertFailure new onConflict rows = .ok (rows ++ [new]) := by
  induction rows with
  | nil => rfl
  | cons x xs ih =>
      have hkey : x.key ≠ new.key := by
        intro hk
        rw [List.find?_cons_of_pos (by simpa using hk)] at h
        cases h
      rw [List.find?_cons_of_neg (by simpa using hkey)] at h
      simp only [upsertFailure, if_neg hkey, ih h]
      rfl

/-- With a row of that key the upsert is the clause, and fails with it. -/
theorem upsertFailure_of_find (hf : rows.find? (·.key = new.key) = some f) :
    (∀ e, onConflict f = .error e →
      upsertFailure new onConflict rows = .error e) ∧
    (∀ g, onConflict f = .ok g → g.key = new.key →
      ∃ rows', upsertFailure new onConflict rows = .ok rows' ∧
        rows'.find? (·.key = new.key) = some g) := by
  induction rows with
  | nil => cases hf
  | cons x xs ih =>
      by_cases hkey : x.key = new.key
      · rw [List.find?_cons_of_pos (by simpa using hkey)] at hf
        obtain rfl := Option.some.inj hf
        simp only [upsertFailure, if_pos hkey]
        refine ⟨fun e he => by rw [he]; rfl, fun g hg hgk => ?_⟩
        refine ⟨g :: xs, by rw [hg]; rfl, ?_⟩
        rw [List.find?_cons_of_pos (by simpa using hgk)]
      · rw [List.find?_cons_of_neg (by simpa using hkey)] at hf
        obtain ⟨herr, hok⟩ := ih hf
        simp only [upsertFailure, if_neg hkey]
        refine ⟨fun e he => by rw [herr e he]; rfl, fun g hg hgk => ?_⟩
        obtain ⟨rows', hrows', hfind⟩ := hok g hg hgk
        refine ⟨x :: rows', by rw [hrows']; rfl, ?_⟩
        rw [List.find?_cons_of_neg (by simpa using hkey)]
        exact hfind

theorem upsertFailure_keyed (h : upsertFailure new onConflict rows = .ok rows')
    (hnew : new.itemKey = new.videoId) (hkeep : KeepsKey new onConflict)
    (hrows : ∀ f ∈ rows, f.itemKey = f.videoId) :
    ∀ f ∈ rows', f.itemKey = f.videoId := by
  rcases upsertFailure_cases h with ⟨-, rfl⟩ |
    ⟨pre, f, g, post, rfl, rfl, -, hf, hg⟩
  · intro x hx
    rcases List.mem_append.mp hx with hx | hx
    · exact hrows x hx
    · rw [List.mem_singleton.mp hx]
      exact hnew
  · obtain ⟨hgk, hgv⟩ := hkeep f g hg
    have hitem : g.itemKey = new.itemKey :=
      congrArg (fun k => k.2.1) (hgk.trans hf)
    intro x hx
    rcases List.mem_append.mp hx with hx | hx
    · exact hrows x (List.mem_append_left _ hx)
    · rcases List.mem_cons.mp hx with rfl | hx
      · rw [hitem, hnew, hgv]
      · exact hrows x (List.mem_append_right _ (List.mem_cons_of_mem _ hx))

/-- Other videos keep their rows. -/
theorem upsertFailure_ofVideo (h : upsertFailure new onConflict rows = .ok rows')
    (hnew : new.itemKey = new.videoId) (hkeep : KeepsKey new onConflict)
    (hrows : ∀ f ∈ rows, f.itemKey = f.videoId) {videoId : String}
    (hne : videoId ≠ new.videoId) :
    rows'.filter (·.videoId = videoId) = rows.filter (·.videoId = videoId) := by
  rcases upsertFailure_cases h with ⟨-, rfl⟩ |
    ⟨pre, f, g, post, rfl, rfl, -, hf, hg⟩
  · simp [hne.symm]
  · obtain ⟨-, hgv⟩ := hkeep f g hg
    have hfv : f.videoId = new.videoId := by
      have hitem : f.itemKey = new.itemKey := congrArg (fun k => k.2.1) hf
      rw [← hrows f (by simp), hitem, hnew]
    simp [hgv, hfv, hne.symm]

end Upsert

/-! ## The statements -/

/-- An `INSERT … ON CONFLICT DO UPDATE` of the table, which keeps it `keyed`. -/
structure FailureUpsert where
  new : MediaJobFailure
  onConflict : MediaJobFailure → Except SqlError MediaJobFailure
  keyed : new.itemKey = new.videoId
  keepsKey : KeepsKey new onConflict

/-- The statement of `media_phash::record_row_failure_txn`. -/
def phashUpsert (now : ℤ) (jobRunId videoId phase error : String) :
    FailureUpsert where
  new := phashFailure now jobRunId videoId phase error
  onConflict := phashConflict now (phashFailure now jobRunId videoId phase error)
  keyed := rfl
  keepsKey := by
    intro f g h
    obtain ⟨-, rfl⟩ := phashConflict_eq_ok.mp h
    exact ⟨rfl, rfl⟩

/-- The statement of `media_imports::record_row_failure_txn`: count and back-off
stay. -/
def importUpsert (jobRunId videoId phase error : String) : FailureUpsert where
  new := importFailure jobRunId videoId phase error
  onConflict f := .ok ((importFailure jobRunId videoId phase error).overwrite f)
  keyed := rfl
  keepsKey := by
    rintro f g ⟨⟩
    exact ⟨rfl, rfl⟩

namespace JobFailures

def upsert (t : JobFailures) (u : FailureUpsert) : Except SqlError JobFailures :=
  match h : upsertFailure u.new u.onConflict t.rows with
  | .ok rows => .ok ⟨rows, upsertFailure_keyed h u.keyed u.keepsKey t.keyed⟩
  | .error e => .error e

section Upsert

variable {t t' : JobFailures} {u : FailureUpsert}

theorem upsert_eq_ok : t.upsert u = .ok t' ↔
    upsertFailure u.new u.onConflict t.rows = .ok t'.rows := by
  unfold upsert
  constructor
  · intro h
    split at h
    · cases h
      assumption
    · cases h
  · intro h
    split
    · rename_i rows hrows
      rw [hrows] at h
      obtain rfl := Except.ok.inj h
      rfl
    · rename_i e he
      rw [he] at h
      cases h

theorem upsert_succeeds_iff : (∃ t', t.upsert u = .ok t') ↔
    ∀ f, t.find u.new.key = some f → ∃ g, u.onConflict f = .ok g := by
  constructor
  · rintro ⟨t', h⟩ f hf
    cases hc : u.onConflict f with
    | ok g => exact ⟨g, rfl⟩
    | error e =>
        have hup := upsert_eq_ok.mp h
        rw [(upsertFailure_of_find hf).1 e hc] at hup
        cases hup
  · intro h
    have hrows : ∃ rows, upsertFailure u.new u.onConflict t.rows = .ok rows := by
      cases hf : t.find u.new.key with
      | none => exact ⟨_, upsertFailure_of_none hf⟩
      | some f =>
          obtain ⟨g, hg⟩ := h f hf
          have hgk : g.key = u.new.key := by
            rw [(u.keepsKey f g hg).1]
            simpa using List.find?_some hf
          obtain ⟨rows, hrows, -⟩ := (upsertFailure_of_find hf).2 g hg hgk
          exact ⟨rows, hrows⟩
    obtain ⟨rows, hrows⟩ := hrows
    exact ⟨⟨rows, upsertFailure_keyed hrows u.keyed u.keepsKey t.keyed⟩,
      upsert_eq_ok.mpr hrows⟩

theorem find_upsert (h : t.upsert u = .ok t') :
    (t.find u.new.key = none ∧ t'.find u.new.key = some u.new) ∨
      ∃ f g, t.find u.new.key = some f ∧ u.onConflict f = .ok g ∧
        t'.find u.new.key = some g := by
  have hup := upsert_eq_ok.mp h
  cases hf : t.find u.new.key with
  | none =>
      refine .inl ⟨rfl, ?_⟩
      rw [upsertFailure_of_none hf] at hup
      have hrows := Except.ok.inj hup
      unfold find at hf ⊢
      rw [← hrows, List.find?_append, hf]
      simp
  | some f =>
      obtain ⟨g, hg⟩ := upsert_succeeds_iff.mp ⟨t', h⟩ f hf
      have hgk : g.key = u.new.key := by
        rw [(u.keepsKey f g hg).1]
        simpa using List.find?_some hf
      obtain ⟨rows, hrows, hfind⟩ := (upsertFailure_of_find hf).2 g hg hgk
      rw [hrows] at hup
      have heq := Except.ok.inj hup
      refine .inr ⟨f, g, rfl, hg, ?_⟩
      unfold find
      rw [← heq]
      exact hfind

/-- An upsert leaves the rows of other keys where they are. -/
theorem find_upsert_ne (h : t.upsert u = .ok t')
    {key : String × String × String} (hne : key ≠ u.new.key) :
    t'.find key = t.find key := by
  unfold find
  rcases upsertFailure_cases (upsert_eq_ok.mp h) with ⟨-, hrows⟩ |
    ⟨pre, f, g, post, hrows, hrows', -, hf, hg⟩
  · rw [hrows, List.find?_append, List.find?_cons_of_neg (by simpa using hne.symm),
      List.find?_nil, Option.or_none]
  · have hgk : g.key = u.new.key := (u.keepsKey f g hg).1.trans hf
    rw [hrows, hrows', List.find?_append, List.find?_append,
      List.find?_cons_of_neg (by simpa [hgk] using hne.symm),
      List.find?_cons_of_neg (by simpa [hf] using hne.symm)]

/-- Where a row after an upsert comes from. -/
theorem mem_upsert (h : t.upsert u = .ok t') {x : MediaJobFailure} (hx : x ∈ t'.rows) :
    x ∈ t.rows ∨ x = u.new ∨
      ∃ f ∈ t.rows, f.key = u.new.key ∧ u.onConflict f = .ok x := by
  rcases upsertFailure_cases (upsert_eq_ok.mp h) with ⟨-, hrows⟩ |
    ⟨pre, f, g, post, hrows, hrows', -, hf, hg⟩
  · rw [hrows] at hx
    rcases List.mem_append.mp hx with hx | hx
    · exact .inl hx
    · exact .inr (.inl (List.mem_singleton.mp hx))
  · rw [hrows'] at hx
    rw [hrows]
    rcases List.mem_append.mp hx with hx | hx
    · exact .inl (List.mem_append_left _ hx)
    · rcases List.mem_cons.mp hx with rfl | hx
      · exact .inr (.inr ⟨f, List.mem_append_right _ List.mem_cons_self, hf, hg⟩)
      · exact .inl (List.mem_append_right _ (List.mem_cons_of_mem _ hx))

theorem ofVideo_upsert (h : t.upsert u = .ok t') {videoId : String}
    (hne : videoId ≠ u.new.videoId) :
    t'.ofVideo videoId = t.ofVideo videoId :=
  upsertFailure_ofVideo (upsert_eq_ok.mp h) u.keyed u.keepsKey t.keyed hne

end Upsert

/-- `media_phash::record_row_failure_txn`. -/
def recordPhash (now : ℤ) (jobRunId videoId phase error : String)
    (t : JobFailures) : Except SqlError JobFailures :=
  t.upsert (phashUpsert now jobRunId videoId phase error)

/-- `media_imports::record_row_failure_txn`. -/
def recordImport (jobRunId videoId phase error : String) (t : JobFailures) :
    Except SqlError JobFailures :=
  t.upsert (importUpsert jobRunId videoId phase error)

/-- `DELETE … WHERE job_kind = $1 AND video_id = $2`. -/
def clear (jobKind videoId : String) (t : JobFailures) : JobFailures where
  rows := t.rows.filter fun f => ¬ (f.jobKind = jobKind ∧ f.videoId = videoId)
  keyed f hf := t.keyed f (List.mem_filter.mp hf).1

/-- A row is found among the rows of its video. -/
theorem find_eq_ofVideo (t : JobFailures) (jobKind videoId phase : String) :
    t.find (jobKind, videoId, phase)
      = (t.ofVideo videoId).find? (·.key = (jobKind, videoId, phase)) := by
  obtain ⟨rows, keyed⟩ := t
  unfold find ofVideo
  induction rows with
  | nil => rfl
  | cons f fs ih =>
      have hfs := ih fun g hg => keyed g (List.mem_cons_of_mem _ hg)
      by_cases hkey : f.key = (jobKind, videoId, phase)
      · have hv : f.videoId = videoId := by
          rw [← keyed f List.mem_cons_self]
          exact congrArg (fun k => k.2.1) hkey
        simp [hkey, hv]
      · by_cases hv : f.videoId = videoId
        · simpa [hkey, hv] using hfs
        · simpa [hkey, hv] using hfs

theorem ofVideo_clear (t : JobFailures) {jobKind videoId u : String}
    (hne : u ≠ videoId) : (t.clear jobKind videoId).ofVideo u = t.ofVideo u := by
  unfold clear ofVideo
  rw [List.filter_filter]
  refine List.filter_congr fun f _ => ?_
  by_cases hu : f.videoId = u
  · simp [hu, hne]
  · simp [hu]

/-- The key of a failure of `media_phash`. -/
def phashKey (videoId phase : String) : String × String × String :=
  ("media_phash", videoId, phase)

/-! ### `clear_phash_failures` -/

/-- `job_kind = 'media_phash' AND video_id = ANY($1)`. -/
def phashOf (videoIds : List String) (f : MediaJobFailure) : Bool :=
  f.jobKind = "media_phash" ∧ f.videoId ∈ videoIds

/-- `chain_repo::clear_phash_failures`, with the number of rows. -/
def clearPhashFailures (videoIds : List String) (t : JobFailures) :
    ℕ × JobFailures :=
  (t.rows.countP (phashOf videoIds), {
    rows := t.rows.filter (! phashOf videoIds ·)
    keyed := fun f hf => t.keyed f (List.mem_filter.mp hf).1 })

section ClearPhash

variable {videoIds : List String} {videoId phase : String}

theorem mem_clearPhashFailures {t : JobFailures} {f : MediaJobFailure} :
    f ∈ (clearPhashFailures videoIds t).2.rows ↔
      f ∈ t.rows ∧ ¬ (f.jobKind = "media_phash" ∧ f.videoId ∈ videoIds) := by
  unfold clearPhashFailures phashOf
  rw [List.mem_filter, Bool.not_eq_true', decide_eq_false_iff_not]

/-- Every failure is counted or kept. -/
theorem clearPhashFailures_length (videoIds : List String) (t : JobFailures) :
    (clearPhashFailures videoIds t).1 + (clearPhashFailures videoIds t).2.rows.length
      = t.rows.length := by
  unfold clearPhashFailures
  simp only [List.countP_eq_length_filter]
  have hperm := List.filter_append_perm (phashOf videoIds) t.rows
  rw [← hperm.length_eq, List.length_append]

theorem find_clearPhashFailures_mem (t : JobFailures) (h : videoId ∈ videoIds) :
    (clearPhashFailures videoIds t).2.find (phashKey videoId phase) = none := by
  refine List.find?_eq_none.mpr fun f hf => ?_
  obtain ⟨hmem, hkept⟩ := mem_clearPhashFailures.mp hf
  intro hkey
  have hfkey : f.key = phashKey videoId phase := of_decide_eq_true hkey
  have hid : f.itemKey = videoId := congrArg (fun k => k.2.1) hfkey
  refine hkept ⟨congrArg (fun k => k.1) hfkey, ?_⟩
  rw [← t.keyed f hmem, hid]
  exact h

theorem find_clearPhashFailures_ne (t : JobFailures) (h : videoId ∉ videoIds) :
    (clearPhashFailures videoIds t).2.find (phashKey videoId phase)
      = t.find (phashKey videoId phase) := by
  obtain ⟨rows, keyed⟩ := t
  show (rows.filter _).find? _ = rows.find? _
  induction rows with
  | nil => rfl
  | cons f fs ih =>
      have hfs := ih fun g hg => keyed g (List.mem_cons_of_mem _ hg)
      by_cases hkey : f.key = phashKey videoId phase
      · have hid : f.videoId = videoId := by
          rw [← keyed f List.mem_cons_self]
          exact congrArg (fun k => k.2.1) hkey
        simp [phashOf, hid, h, hkey]
      · by_cases hp : phashOf videoIds f = true
        · simpa [hp, hkey] using hfs
        · simpa [hp, hkey] using hfs

end ClearPhash

section Record

variable {now : ℤ} {jobRunId videoId phase error : String}
  {t t' : JobFailures} {f : MediaJobFailure}

/-- A failure is recorded exactly when the delay can still be doubled. -/
theorem recordPhash_succeeds_iff :
    (∃ t', t.recordPhash now jobRunId videoId phase error = .ok t') ↔
      ∀ f, t.find (phashKey videoId phase) = some f → f.retryCount ≤ 34 := by
  refine upsert_succeeds_iff.trans ?_
  constructor
  · intro h f hf
    obtain ⟨g, hg⟩ := h f hf
    exact (phashConflict_eq_ok.mp hg).1
  · intro h f hf
    exact ⟨_, phashConflict_eq_ok.mpr ⟨h f hf, rfl⟩⟩

/-- The failure after one more: counted, and due after the doubled delay. -/
def Recorded (now : ℤ) (before : Option MediaJobFailure)
    (after : MediaJobFailure) : Prop :=
  match before with
  | none =>
      after.retryCount = 1 ∧ after.nextRetryAt = some (now + fiveMinutes)
  | some f =>
      after.retryCount = f.retryCount + 1 ∧
      after.nextRetryAt =
        some (now + min (fiveMinutes * 2 ^ f.retryCount) dayMicros)

theorem find_recordPhash
    (h : t.recordPhash now jobRunId videoId phase error = .ok t') :
    ∃ g, t'.find (phashKey videoId phase) = some g ∧
      Recorded now (t.find (phashKey videoId phase)) g := by
  rcases find_upsert h with ⟨hnone, hnew⟩ | ⟨f, g, hf, hg, hfind⟩
  · refine ⟨_, hnew, ?_⟩
    rw [show t.find (phashKey videoId phase) = none from hnone]
    exact ⟨rfl, rfl⟩
  · obtain ⟨-, rfl⟩ := phashConflict_eq_ok.mp hg
    refine ⟨_, hfind, ?_⟩
    rw [show t.find (phashKey videoId phase) = some f from hf]
    exact ⟨rfl, rfl⟩

/-- **Recording one more failure** over a stored count works, with the promised
count and delay, for the first 34 counts and for no other. -/
theorem recordPhash_iff (hf : t.find (phashKey videoId phase) = some f) :
    (∃ t' g, t.recordPhash now jobRunId videoId phase error = .ok t' ∧
      t'.find (phashKey videoId phase) = some g ∧
      g.retryCount = f.retryCount + 1 ∧
      g.nextRetryAt
        = some (now + min (fiveMinutes * 2 ^ f.retryCount) dayMicros)) ↔
      f.retryCount ≤ 34 := by
  constructor
  · rintro ⟨t', -, h, -⟩
    exact recordPhash_succeeds_iff.mp ⟨t', h⟩ f hf
  · intro hn
    have hsucc : ∃ t',
        t.recordPhash now jobRunId videoId phase error = .ok t' := by
      rw [recordPhash_succeeds_iff]
      intro f' hf'
      rw [hf] at hf'
      cases hf'
      exact hn
    obtain ⟨t', h⟩ := hsucc
    obtain ⟨g, hg, hrec⟩ := find_recordPhash h
    rw [hf] at hrec
    exact ⟨t', g, h, hg, hrec⟩

end Record

end JobFailures

end VideoStorage.MediaIndex
