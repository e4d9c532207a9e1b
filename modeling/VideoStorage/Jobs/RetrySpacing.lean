import VideoStorage.Jobs.MediaPhashFailures

/-!
# `media_phash`: the attempts on a video

The runs of a fleet one after the other, seen as single attempts: each is made on
a video that has no canonical hash and is not backing off, at the clock of the
database. A failure that is recorded keeps its video away until it is due
(`Attempts.blocked`), whatever is attempted and written in between, unless
`clear_phash_failures` deletes it; how long that is depends on the failures of that
phase since the last deletion (`Attempts.failureCount`).
-/

namespace VideoStorage.Jobs.MediaPhash

open Foundation MediaIndex

/-- The key of the canonical hash of a video. -/
def hashKeyOf (videoId : String) : HashKey where
  videoId := videoId
  hashKind := hashKind
  hashVersion := hashVersion
  inputMediaVersion := inputMediaVersion

/-! ## The machine -/

inductive Outcome
  | hashed
  | failed (phase : String)
  /-- The transaction failed, and the run with it. -/
  | refused
  deriving DecidableEq, Repr

def Outcome.of {α : Type} : Except (String × String) α → Outcome
  | .ok _ => .hashed
  | .error (phase, _) => .failed phase

/-- A row handed to `persist_one`. -/
structure Attempt where
  now : ℤ
  videoId : String
  outcome : Outcome
  deriving DecidableEq, Repr

/-- An attempt that recorded one more failure of a video in a phase. -/
def Attempt.failedIn (videoId phase : String) (a : Attempt) : Bool :=
  a.videoId = videoId ∧ a.outcome = .failed phase

/-- What happens to the failures of `media_phash`. -/
inductive Event
  | attempt (a : Attempt)
  /-- `clear_phash_failures`. -/
  | clear (videoIds : List String)
  deriving DecidableEq, Repr

def Event.clears (videoId : String) : Event → Bool
  | .attempt _ => false
  | .clear videoIds => videoId ∈ videoIds

/-- The failures of a video in a phase after an event. -/
def Event.tally (videoId phase : String) (n : ℕ) : Event → ℕ
  | .attempt a => if a.failedIn videoId phase then n + 1 else n
  | .clear videoIds => if videoId ∈ videoIds then 0 else n

theorem Event.tally_attempt (videoId phase : String) (n : ℕ) (a : Attempt) :
    Event.tally videoId phase n (.attempt a)
      = n + if a.failedIn videoId phase then 1 else 0 := by
  show (if a.failedIn videoId phase then n + 1 else n) = _
  split_ifs <;> rfl

/-- The database and its clock. -/
structure Sweep where
  db : Db
  now : ℤ

/-- Why a row is attempted. -/
structure Ready (s : Sweep) (row : MissingHashRow) : Prop where
  video : (mediaIndex .none).present s.db.tables (TableKey.video row.videoId)
  noHash : s.db.tables.get (.hash (hashKeyOf row.videoId)) = none
  due : MissingHashQuery.notBackingOff s.now s.db.failures row.videoId

/-- One attempt. -/
inductive Attempting (s : Sweep) : Attempt → Sweep → Prop
  | persisted {row : MissingHashRow}
      {result : Except (String × String) VideoHashResult} {jobRunId : String}
      {db' : Db} {summary summary' : PHashSummary} (hready : Ready s row)
      (h : persistOne s.now jobRunId row result s.db summary
        = .ok (db', summary')) :
      Attempting s ⟨s.now, row.videoId, .of result⟩ { s with db := db' }
  | refused {row : MissingHashRow}
      {result : Except (String × String) VideoHashResult} {jobRunId : String}
      {summary : PHashSummary} {e : SqlError} (hready : Ready s row)
      (h : persistOne s.now jobRunId row result s.db summary = .error e) :
      Attempting s ⟨s.now, row.videoId, .refused⟩ s

/-- What the other writers of the tables do: no hash is deleted, and the failures
of `media_phash` are its own, but for `clear_phash_failures`. -/
structure Writes (db db' : Db) : Prop where
  hash : ∀ videoId, (db.tables.get (.hash (hashKeyOf videoId))).isSome →
    (db'.tables.get (.hash (hashKeyOf videoId))).isSome
  failures : ∀ videoId phase,
    db'.failures.find (JobFailures.phashKey videoId phase)
      = db.failures.find (JobFailures.phashKey videoId phase)

def Db.clearPhash (videoIds : List String) (db : Db) : Db :=
  { db with failures := (JobFailures.clearPhashFailures videoIds db.failures).2 }

/-- The events of a history, in order, between which time passes and others
write. -/
inductive Attempts : Sweep → List Event → Sweep → Prop
  | nil (s : Sweep) : Attempts s [] s
  | attempt {s s' t : Sweep} {a : Attempt} {es : List Event}
      (h : Attempting s a s') (rest : Attempts s' es t) :
      Attempts s (.attempt a :: es) t
  | clear {s t : Sweep} {es : List Event} (videoIds : List String)
      (rest : Attempts { s with db := s.db.clearPhash videoIds } es t) :
      Attempts s (.clear videoIds :: es) t
  | wait {s t : Sweep} {es : List Event} (now : ℤ) (hnow : s.now ≤ now)
      (rest : Attempts { s with now := now } es t) : Attempts s es t
  | write {s t : Sweep} {es : List Event} {db : Db} (hdb : Writes s.db db)
      (rest : Attempts { s with db := db } es t) : Attempts s es t

/-! ## One attempt -/

/-- The failures of a video in a phase since it was last hashed or cleared. -/
def Db.failureCount (db : Db) (videoId phase : String) : ℕ :=
  (db.failures.find (JobFailures.phashKey videoId phase)).elim 0 (·.retryCount)

/-- The delay after the failure that is counted after `n` others. -/
def retryDelay (n : ℕ) : ℤ := min (fiveMinutes * 2 ^ n) dayMicros

theorem fiveMinutes_le_retryDelay (n : ℕ) : fiveMinutes ≤ retryDelay n := by
  have hpow : (1 : ℤ) ≤ 2 ^ n := one_le_pow₀ (by decide)
  refine le_min ?_ (by decide)
  calc fiveMinutes = fiveMinutes * 1 := (mul_one _).symm
    _ ≤ fiveMinutes * 2 ^ n := mul_le_mul_of_nonneg_left hpow (by decide)

/-- A stored failure of `media_phash` keeps its video from being due. -/
theorem Ready.due_le {s : Sweep} {row : MissingHashRow} {phase : String}
    {f : MediaJobFailure} {due : ℤ} (h : Ready s row)
    (hf : s.db.failures.find (JobFailures.phashKey row.videoId phase) = some f)
    (hdue : f.nextRetryAt = some due) : due ≤ s.now := by
  have hready := h.due
  unfold MissingHashQuery.notBackingOff at hready
  unfold JobFailures.phashKey at hf
  rw [JobFailures.find_eq_ofVideo] at hf
  have hnot := List.all_eq_true.mp hready f (List.mem_of_find?_eq_some hf)
  simpa [hdue] using hnot

namespace Attempting

variable {s s' : Sweep} {a : Attempt}

theorem now_eq (h : Attempting s a s') : a.now = s.now ∧ s'.now = s.now := by
  cases h with
  | persisted _ _ => exact ⟨rfl, rfl⟩
  | refused _ _ => exact ⟨rfl, rfl⟩

/-- An attempt is made where there is no hash. -/
theorem noHash (h : Attempting s a s') :
    s.db.tables.get (.hash (hashKeyOf a.videoId)) = none := by
  cases h with
  | persisted hready _ => exact hready.noHash
  | refused hready _ => exact hready.noHash

/-- An attempt is made after every recorded delay. -/
theorem due_le (h : Attempting s a s') {phase : String} {f : MediaJobFailure}
    {due : ℤ} (hf : s.db.failures.find (JobFailures.phashKey a.videoId phase) = some f)
    (hdue : f.nextRetryAt = some due) : due ≤ s.now := by
  cases h with
  | persisted hready _ => exact hready.due_le hf hdue
  | refused hready _ => exact hready.due_le hf hdue

theorem sameVideo (h : Attempting s a s') {u : String} (hne : u ≠ a.videoId) :
    SameVideo s.db s'.db u := by
  cases h with
  | persisted hready h => exact persistOne_frame hready.video h hne
  | refused _ _ => exact .refl _ _

/-- A hash that is computed is stored. -/
theorem hashed (h : Attempting s a s') (ha : a.outcome = .hashed) :
    (s'.db.tables.get (.hash (hashKeyOf a.videoId))).isSome := by
  cases h with
  | refused _ _ => cases ha
  | @persisted row result jobRunId db' summary summary' hready h =>
      cases result with
      | error failure => cases ha
      | ok vhr =>
          unfold persistOne at h
          obtain ⟨⟨out, seq, l, t⟩, hrun, hret⟩ := bind_eq_ok.mp h
          cases hret
          obtain ⟨⟨up, -, hexplains⟩, -⟩ := eval_persistOneTxn (perform_eval hrun)
          obtain ⟨-, hafter⟩ := hexplains.inserted hready.noHash
          exact Option.isSome_iff_exists.mpr ⟨_, hafter⟩

/-- One more failure: recorded over the one that was there. -/
theorem failed (h : Attempting s a s') {phase : String}
    (ha : a.outcome = .failed phase) :
    ∃ err jobRunId, s.db.failures.recordPhash s.now jobRunId a.videoId phase err
        = .ok s'.db.failures ∧ s'.db.tables = s.db.tables := by
  cases h with
  | refused _ _ => cases ha
  | @persisted row result jobRunId db' summary summary' hready h =>
      cases result with
      | ok vhr => cases ha
      | error failure =>
          obtain ⟨ph, err⟩ := failure
          cases ha
          rw [persistOne_error] at h
          obtain ⟨t, hrec, ht⟩ := map_eq_ok.mp h
          cases ht
          exact ⟨err, jobRunId, hrec, rfl⟩

theorem refused_eq (h : Attempting s a s') (ha : a.outcome = .refused) : s' = s := by
  cases h with
  | refused _ _ => rfl
  | @persisted row result jobRunId db' summary summary' hready h =>
      cases result <;> cases ha

/-- The hash of no video is lost. -/
theorem hash_isSome (h : Attempting s a s') {u : String}
    (hu : (s.db.tables.get (.hash (hashKeyOf u))).isSome) :
    (s'.db.tables.get (.hash (hashKeyOf u))).isSome := by
  have hne : u ≠ a.videoId := by
    rintro rfl
    rw [h.noHash] at hu
    cases hu
  rw [(h.sameVideo hne).hash (hashKeyOf u) rfl]
  exact hu

/-- The failures that an attempt leaves: one more in its phase, or the video has
its hash. -/
theorem failureCount (h : Attempting s a s') (videoId phase : String) :
    (s'.db.tables.get (.hash (hashKeyOf videoId))).isSome ∨
      s'.db.failureCount videoId phase = s.db.failureCount videoId phase
        + if a.failedIn videoId phase then 1 else 0 := by
  by_cases hv : videoId = a.videoId
  · subst hv
    cases ha : a.outcome with
    | hashed => exact .inl (h.hashed ha)
    | refused =>
        rw [h.refused_eq ha]
        exact .inr (by simp [Attempt.failedIn, ha])
    | failed ph =>
        refine .inr ?_
        obtain ⟨err, jobRunId, hrec, -⟩ := h.failed ha
        unfold Db.failureCount
        by_cases hp : ph = phase
        · subst hp
          obtain ⟨g, hg, hgrec⟩ := JobFailures.find_recordPhash hrec
          rw [hg]
          cases hf : s.db.failures.find (JobFailures.phashKey a.videoId ph) with
          | none =>
              rw [hf] at hgrec
              simp [Attempt.failedIn, ha, hgrec.1]
          | some f =>
              rw [hf] at hgrec
              simp [Attempt.failedIn, ha, hgrec.1]
        · rw [JobFailures.find_upsert_ne hrec]
          · simp [Attempt.failedIn, ha, hp]
          · intro hkey
            have hphase : phase = ph := congrArg (fun k => k.2.2) hkey
            exact hp hphase.symm
  · refine .inr ?_
    unfold Db.failureCount
    rw [(h.sameVideo hv).find phase]
    simp [Attempt.failedIn, Ne.symm hv]

/-- When a failed video is due again. -/
theorem retryAt (h : Attempting s a s') {phase : String}
    (ha : a.outcome = .failed phase) :
    ∃ f, s'.db.failures.find (JobFailures.phashKey a.videoId phase) = some f ∧
      f.nextRetryAt
        = some (a.now + retryDelay (s.db.failureCount a.videoId phase)) := by
  obtain ⟨err, jobRunId, hrec, -⟩ := h.failed ha
  obtain ⟨g, hg, hgrec⟩ := JobFailures.find_recordPhash hrec
  refine ⟨g, hg, ?_⟩
  rw [h.now_eq.1]
  unfold Db.failureCount
  cases hf : s.db.failures.find (JobFailures.phashKey a.videoId phase) with
  | none =>
      rw [hf] at hgrec
      exact hgrec.2
  | some f =>
      rw [hf] at hgrec
      exact hgrec.2

end Attempting

/-! ## Histories -/

namespace Attempts

variable {s t u : Sweep} {a b : Attempt} {es fs pre mid post : List Event}

theorem append (h : Attempts s es t) (h' : Attempts t fs u) :
    Attempts s (es ++ fs) u := by
  induction h with
  | nil s => exact h'
  | attempt h _ ih => exact .attempt h (ih h')
  | clear videoIds _ ih => exact .clear videoIds (ih h')
  | wait now hnow _ ih => exact .wait now hnow (ih h')
  | write hdb _ ih => exact .write hdb (ih h')

/-- The database before an attempt of the history and after it. -/
theorem at_attempt (h : Attempts s (pre ++ .attempt a :: post) t) :
    ∃ u u', Attempts s pre u ∧ Attempting u a u' ∧ Attempts u' post t := by
  generalize hes : pre ++ .attempt a :: post = es at h
  induction h generalizing pre with
  | nil s => cases pre <;> cases hes
  | @attempt s s' t b es h rest ih =>
      cases pre with
      | nil =>
          cases hes
          exact ⟨s, s', .nil s, h, rest⟩
      | cons c pre =>
          cases hes
          obtain ⟨u, u', h₁, hat, h₂⟩ := ih rfl
          exact ⟨u, u', .attempt h h₁, hat, h₂⟩
  | clear videoIds _ ih =>
      cases pre with
      | nil => cases hes
      | cons c pre =>
          cases hes
          obtain ⟨u, u', h₁, hat, h₂⟩ := ih rfl
          exact ⟨u, u', .clear videoIds h₁, hat, h₂⟩
  | wait now hnow _ ih =>
      obtain ⟨u, u', h₁, hat, h₂⟩ := ih hes
      exact ⟨u, u', .wait now hnow h₁, hat, h₂⟩
  | write hdb _ ih =>
      obtain ⟨u, u', h₁, hat, h₂⟩ := ih hes
      exact ⟨u, u', .write hdb h₁, hat, h₂⟩

theorem hash_isSome (h : Attempts s es t) {videoId : String}
    (hv : (s.db.tables.get (.hash (hashKeyOf videoId))).isSome) :
    (t.db.tables.get (.hash (hashKeyOf videoId))).isSome := by
  induction h with
  | nil s => exact hv
  | attempt h _ ih => exact ih (h.hash_isSome hv)
  | clear _ _ ih => exact ih hv
  | wait now _ _ ih => exact ih hv
  | write hdb _ ih => exact ih (hdb.hash videoId hv)

/-- The stored count of a video that is still to be hashed is the number of its
failures in that phase since they were last cleared. -/
theorem failureCount (h : Attempts s es t) (videoId phase : String) :
    (t.db.tables.get (.hash (hashKeyOf videoId))).isSome ∨
      t.db.failureCount videoId phase
        = es.foldl (Event.tally videoId phase) (s.db.failureCount videoId phase) := by
  induction h with
  | nil s => exact .inr rfl
  | @attempt s s' t a es h rest ih =>
      rcases h.failureCount videoId phase with hhash | hone
      · exact .inl (rest.hash_isSome hhash)
      · refine ih.imp_right fun hcount => ?_
        rw [hcount, List.foldl_cons, hone, Event.tally_attempt]
  | @clear s t es videoIds _ ih =>
      refine ih.imp_right fun hcount => ?_
      rw [hcount, List.foldl_cons]
      congr 1
      show Option.elim ((JobFailures.clearPhashFailures videoIds
        s.db.failures).2.find _) 0 (·.retryCount) = if _ then 0 else _
      split_ifs with hv
      · rw [JobFailures.find_clearPhashFailures_mem s.db.failures hv]
        rfl
      · rw [JobFailures.find_clearPhashFailures_ne s.db.failures hv]
        rfl
  | wait now _ _ ih => exact ih
  | @write s t es db hdb _ ih =>
      unfold Db.failureCount at ih ⊢
      rw [← hdb.failures videoId phase]
      exact ih

/-- Until it is due, the recorded failure stays as it is, unless it is cleared. -/
theorem blocked (h : Attempts s es t) {videoId phase : String} {due : ℤ}
    (hclear : ∀ e ∈ es, e.clears videoId = false)
    (hs : due ≤ s.now ∨ ∃ f, s.db.failures.find
      (JobFailures.phashKey videoId phase) = some f ∧ f.nextRetryAt = some due) :
    due ≤ t.now ∨ ∃ f, t.db.failures.find
      (JobFailures.phashKey videoId phase) = some f ∧ f.nextRetryAt = some due := by
  induction h with
  | nil s => exact hs
  | @attempt s s' t a es h rest ih =>
      refine ih (fun e he => hclear e (List.mem_cons_of_mem _ he)) ?_
      rw [h.now_eq.2]
      rcases hs with hnow | ⟨f, hf, hdue⟩
      · exact .inl hnow
      · by_cases hv : videoId = a.videoId
        · -- an attempt on the video itself is only made once it is due
          subst hv
          exact .inl (h.due_le hf hdue)
        · exact .inr ⟨f, ((h.sameVideo hv).find phase).trans hf, hdue⟩
  | @clear s t es videoIds _ ih =>
      refine ih (fun e he => hclear e (List.mem_cons_of_mem _ he)) ?_
      have hv : videoId ∉ videoIds := of_decide_eq_false (hclear _ List.mem_cons_self)
      refine hs.imp_right fun ⟨f, hf, hdue⟩ => ⟨f, ?_, hdue⟩
      exact (JobFailures.find_clearPhashFailures_ne s.db.failures hv).trans hf
  | wait now hnow _ ih => exact ih hclear (hs.imp_left fun h => h.trans hnow)
  | write hdb _ ih =>
      refine ih hclear (hs.imp_right fun ⟨f, hf, hdue⟩ => ⟨f, ?_, hdue⟩)
      exact (hdb.failures videoId phase).trans hf

/-- Of a video that failed, whose failures are not cleared: it has its hash in the
end, or a failure that is due five minutes after the first at the earliest. -/
theorem backingOff (h : Attempts s es t) {videoId : String} {due : ℤ}
    (hclear : ∀ e ∈ es, e.clears videoId = false) (hdue : due ≤ s.now + fiveMinutes)
    (hs : ∃ phase f next, s.db.failures.find (JobFailures.phashKey videoId phase)
      = some f ∧ f.nextRetryAt = some next ∧ due ≤ next) :
    (t.db.tables.get (.hash (hashKeyOf videoId))).isSome ∨
      ∃ phase f next, t.db.failures.find (JobFailures.phashKey videoId phase)
        = some f ∧ f.nextRetryAt = some next ∧ due ≤ next := by
  induction h with
  | nil s => exact .inr hs
  | @attempt s s' t a es h rest ih =>
      have hlater : due ≤ s'.now + fiveMinutes := by
        rw [h.now_eq.2]
        exact hdue
      have hrest : ∀ e ∈ es, e.clears videoId = false :=
        fun e he => hclear e (List.mem_cons_of_mem _ he)
      by_cases hv : videoId = a.videoId
      · subst hv
        cases ha : a.outcome with
        | hashed => exact .inl (rest.hash_isSome (h.hashed ha))
        | refused =>
            rw [h.refused_eq ha] at ih
            exact ih hrest hdue hs
        | failed ph =>
            obtain ⟨g, hg, hgdue⟩ := h.retryAt ha
            refine ih hrest hlater ⟨ph, g, _, hg, hgdue, ?_⟩
            have hdelay :=
              fiveMinutes_le_retryDelay (s.db.failureCount a.videoId ph)
            rw [h.now_eq.1]
            omega
      · obtain ⟨phase, f, next, hf, hnext, hle⟩ := hs
        exact ih hrest hlater
          ⟨phase, f, next, ((h.sameVideo hv).find phase).trans hf, hnext, hle⟩
  | @clear s t es videoIds _ ih =>
      have hv : videoId ∉ videoIds := of_decide_eq_false (hclear _ List.mem_cons_self)
      obtain ⟨phase, f, next, hf, hnext, hle⟩ := hs
      refine ih (fun e he => hclear e (List.mem_cons_of_mem _ he)) hdue
        ⟨phase, f, next, ?_, hnext, hle⟩
      exact (JobFailures.find_clearPhashFailures_ne s.db.failures hv).trans hf
  | @wait s t es now hnow _ ih =>
      refine ih hclear ?_ hs
      show due ≤ now + fiveMinutes
      omega
  | write hdb _ ih =>
      obtain ⟨phase, f, next, hf, hnext, hle⟩ := hs
      exact ih hclear hdue ⟨phase, f, next, (hdb.failures _ _).trans hf, hnext, hle⟩

theorem now_le (h : Attempts s es t) : s.now ≤ t.now := by
  induction h with
  | nil s => exact le_refl _
  | attempt h _ ih => exact h.now_eq.2 ▸ ih
  | clear _ _ ih => exact ih
  | wait now hnow _ ih => exact hnow.trans ih
  | write _ _ ih => exact ih

/-- **Spacing.** A hashed video is not attempted again; a failed one, if its
failures are not cleared, not before the delay that its failures so far in that
phase make. -/
theorem spaced (h : Attempts s (pre ++ .attempt a :: mid ++ .attempt b :: post) t)
    (hv : b.videoId = a.videoId) :
    a.outcome ≠ .hashed ∧ ∀ phase, a.outcome = .failed phase →
      (∀ e ∈ mid, e.clears a.videoId = false) →
      a.now + retryDelay (pre.foldl (Event.tally a.videoId phase)
        (s.db.failureCount a.videoId phase)) ≤ b.now := by
  rw [List.append_assoc, List.cons_append] at h
  obtain ⟨u, u', hpre, ha, hrest⟩ := h.at_attempt
  obtain ⟨w, w', hmid, hb, -⟩ := hrest.at_attempt
  constructor
  · intro hhashed
    have hhash := hmid.hash_isSome (ha.hashed hhashed)
    rw [← hv, hb.noHash] at hhash
    cases hhash
  · intro phase hfailed hclear
    have hcount := (hpre.failureCount a.videoId phase).resolve_left (by
      rw [ha.noHash]
      exact nofun)
    obtain ⟨f, hf, hdue⟩ := ha.retryAt hfailed
    rw [hcount] at hdue
    rw [hb.now_eq.1]
    rcases hmid.blocked hclear (.inr ⟨f, hf, hdue⟩) with hnow | ⟨g, hg, hgdue⟩
    · exact hnow
    · exact hb.due_le (hv ▸ hg) hgdue

end Attempts

end VideoStorage.Jobs.MediaPhash
