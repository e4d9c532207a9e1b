import VideoStorage.Foundation.Trace

/-!
# A job and its record

A job commits its work piece by piece and keeps a record of itself somewhere else.
It opens the record, reports how far it is from time to time, and closes it, as
ended or as failed. Each of these writes may be refused, a refused one may have been
made all the same, and the job may be stopped at any point. What the record shows is
always a first part of the work, and it never goes back (`shows_mono`); a record
that is closed shows the whole (`Kept`).
-/

namespace VideoStorage.Foundation

/-! ## Records -/

inductive Standing (F ε : Type)
  | opened
  | closed (f : F)
  | failed (e : ε)
  deriving DecidableEq

/-- What is recorded of a job that commits the work `C`. -/
structure Record (C F ε : Type) where
  standing : Standing F ε := .opened
  shown : Option (List C) := none

namespace Record

variable {C F ε : Type}

def report (work : List C) (r : Record C F ε) : Record C F ε :=
  { r with shown := some work }

def close (f : F) (work : List C) (_ : Record C F ε) : Record C F ε where
  standing := .closed f
  shown := some work

def fail (e : ε) (r : Record C F ε) : Record C F ε := { r with standing := .failed e }

end Record

/-- A write of the record that is made or not. -/
def written {ρ : Type} (made : Bool) (f : ρ → ρ) (r : Option ρ) : Option ρ :=
  if made then r.map f else r

/-- This part of the work is shown. -/
def Shows {C F ε : Type} (r : Option (Record C F ε)) (work : List C) : Prop :=
  ∃ r', r = some r' ∧ r'.shown = some work

section Written

variable {C F ε ρ : Type} {made : Bool}

/-- A write leaves a record where there was one. -/
theorem isSome_written {f : ρ → ρ} {r : Option ρ} :
    (written made f r).isSome = r.isSome := by
  unfold written
  split_ifs
  · exact Option.isSome_map
  · rfl

variable {f : Record C F ε → Record C F ε} {r : Option (Record C F ε)} {work : List C}

/-- What a write shows is what was shown, or what is written. -/
theorem shows_written (h : Shows (written made f r) work) :
    Shows r work ∨ ∃ r', r = some r' ∧ (f r').shown = some work := by
  unfold written at h
  split_ifs at h
  · obtain ⟨r₁, hr₁, hwork⟩ := h
    obtain ⟨r', hr', rfl⟩ := Option.map_eq_some_iff.mp hr₁
    exact .inr ⟨r', hr', hwork⟩
  · exact .inl h

theorem Shows.written {r' : Record C F ε} (hr : r = some r') (h : r'.shown = some work)
    {work' : List C} (hf : (f r').shown = some work') (hpart : work <+: work') :
    ∃ work', Shows (written made f r) work' ∧ work <+: work' := by
  unfold Foundation.written
  split_ifs
  · exact ⟨work', ⟨f r', congrArg (Option.map f) hr, hf⟩, hpart⟩
  · exact ⟨work, ⟨r', hr, h⟩, List.prefix_refl _⟩

end Written

/-! ## Jobs -/

/-- What a job does next. -/
inductive Turn (F ε : Type)
  | work
  | report
  | close (f : F)
  | fail (e : ε)

/-- The job's own error, or whatever the closing write answers. -/
def Turn.MayFail {F ε : Type} (e : ε) : Turn F ε → Prop
  | .fail e' => e' = e
  | .close _ => True
  | .work | .report => False

/-- The body of a job: it only ever adds to its work. -/
structure JobSystem (B E C F ε : Type) where
  turn : B → Turn F ε
  work : B → List C
  step : B → E → B → Prop
  /-- Behind a report. -/
  reported : B → B
  extends_work : ∀ b e b', turn b = .work → step b e b' → work b <+: work b'
  work_reported : ∀ b, work (reported b) = work b

inductive Progress (F ε : Type)
  | starting
  | running
  /-- On the way to record an error. -/
  | failing (e : ε)
  | ended (f : F)
  | failed (e : ε) (recorded : Bool)
  | stopped

structure Job (B C F ε : Type) where
  body : B
  record : Option (Record C F ε) := none
  progress : Progress F ε := .starting

/-- With each write of the record, whether it is made. -/
inductive JobEvent (E F ε : Type)
  | opened
  | notOpened (e : ε) (made : Bool)
  | worked (e : E)
  | reported (made : Bool)
  | closed (f : F)
  | notClosed (f : F) (e : ε) (made : Bool)
  | gaveUp (e : ε)
  | markedFailed (made : Bool)
  | stopped

section Steps

variable {B E C F ε : Type}

inductive JobSystem.Step (S : JobSystem B E C F ε) (j : Job B C F ε) :
    JobEvent E F ε → Job B C F ε → Prop
  | opened (h : j.progress = .starting) :
      S.Step j .opened { j with record := some {}, progress := .running }
  /-- The job does not begin; its record may have been opened. -/
  | notOpened (e : ε) (made : Bool) (h : j.progress = .starting) :
      S.Step j (.notOpened e made)
        { j with
          record := if made then some {} else j.record
          progress := .failed e false }
  | worked {e : E} {b : B} (h : j.progress = .running) (hturn : S.turn j.body = .work)
      (hstep : S.step j.body e b) : S.Step j (.worked e) { j with body := b }
  | reported (made : Bool) (h : j.progress = .running) (hturn : S.turn j.body = .report) :
      S.Step j (.reported made)
        { j with
          body := S.reported j.body
          record := written made (.report (S.work j.body)) j.record }
  | closed {f : F} (h : j.progress = .running) (hturn : S.turn j.body = .close f) :
      S.Step j (.closed f)
        { j with
          record := j.record.map (.close f (S.work j.body))
          progress := .ended f }
  /-- The error of the closing write is recorded like one of the work. -/
  | notClosed {f : F} (e : ε) (made : Bool) (h : j.progress = .running)
      (hturn : S.turn j.body = .close f) :
      S.Step j (.notClosed f e made)
        { j with
          record := written made (.close f (S.work j.body)) j.record
          progress := .failing e }
  | gaveUp {e : ε} (h : j.progress = .running) (hturn : S.turn j.body = .fail e) :
      S.Step j (.gaveUp e) { j with progress := .failing e }
  | markedFailed {e : ε} (made : Bool) (h : j.progress = .failing e) :
      S.Step j (.markedFailed made)
        { j with
          record := written made (.fail e) j.record
          progress := .failed e made }
  | stopped : S.Step j .stopped { j with progress := .stopped }

/-- How the record stands at each point of the job. -/
def JobSystem.Fits (S : JobSystem B E C F ε) (j : Job B C F ε) : Prop :=
  match j.progress with
  | .starting => j.record = none
  | .running => ∃ r, j.record = some r ∧ r.standing = .opened
  | .failing e => (∃ r, j.record = some r) ∧ (S.turn j.body).MayFail e
  | .ended f => S.turn j.body = .close f ∧ ∃ r, j.record = some r ∧ r.standing = .closed f
  | .failed e true =>
      (∃ r, j.record = some r ∧ r.standing = .failed e) ∧ (S.turn j.body).MayFail e
  | .failed _ false | .stopped => True

/-- **What holds of a job at any time.** -/
structure JobSystem.Kept (S : JobSystem B E C F ε) (j : Job B C F ε) : Prop where
  shown : ∀ work, Shows j.record work → work <+: S.work j.body
  /-- A record that is closed shows the whole work, and nothing is left to do. -/
  closed : ∀ r f, j.record = some r → r.standing = .closed f →
    S.turn j.body = .close f ∧ r.shown = some (S.work j.body)
  fits : S.Fits j

variable {S : JobSystem B E C F ε} {j j' : Job B C F ε} {e : JobEvent E F ε}
  {es : List (JobEvent E F ε)} {work : List C}

theorem work_step (h : S.Step j e j') : S.work j.body <+: S.work j'.body := by
  cases h with
  | worked _ hturn hstep => exact S.extends_work _ _ _ hturn hstep
  | reported made _ _ => exact S.work_reported j.body ▸ List.prefix_refl _
  | _ => exact List.prefix_refl _

theorem kept_start (hrecord : j.record = none) (hprogress : j.progress = .starting) :
    S.Kept j where
  shown work h := by
    obtain ⟨r, hr, -⟩ := h
    rw [hrecord] at hr
    cases hr
  closed r f hr := by
    rw [hrecord] at hr
    cases hr
  fits := by
    unfold JobSystem.Fits
    rw [hprogress]
    exact hrecord

theorem JobSystem.Fits.running (h : S.Fits j) (hrunning : j.progress = .running) :
    ∃ r, j.record = some r ∧ r.standing = .opened := by
  unfold JobSystem.Fits at h
  rwa [hrunning] at h

theorem JobSystem.Fits.starting (h : S.Fits j) (hstarting : j.progress = .starting) :
    j.record = none := by
  unfold JobSystem.Fits at h
  rwa [hstarting] at h

/-- The step lemma of the record: what it shows is what it showed, or the whole. -/
theorem shows_step (h : S.Step j e j') (hshows : Shows j'.record work) :
    Shows j.record work ∨ work = S.work j.body := by
  cases h with
  | opened h =>
      obtain ⟨r', hr', hwork⟩ := hshows
      obtain rfl := Option.some.inj hr'
      cases hwork
  | notOpened e made h =>
      dsimp only at hshows
      split_ifs at hshows
      · obtain ⟨r', hr', hwork⟩ := hshows
        obtain rfl := Option.some.inj hr'
        cases hwork
      · exact .inl hshows
  | reported made h hturn =>
      refine (shows_written hshows).imp_right ?_
      rintro ⟨r', -, hwork⟩
      exact (Option.some.inj hwork).symm
  | closed h hturn =>
      obtain ⟨r', hr', hwork⟩ := hshows
      obtain ⟨r, -, rfl⟩ := Option.map_eq_some_iff.mp hr'
      exact .inr (Option.some.inj hwork).symm
  | notClosed e made h hturn =>
      refine (shows_written hshows).imp_right ?_
      rintro ⟨r', -, hwork⟩
      exact (Option.some.inj hwork).symm
  | markedFailed made h =>
      refine .inl ((shows_written hshows).elim id ?_)
      rintro ⟨r', hr', hwork⟩
      exact ⟨r', hr', hwork⟩
  | worked | gaveUp | stopped => exact .inl hshows

/-- A record behind a write is the one before it, or what is written. -/
theorem written_eq_some {ρ : Type} {made : Bool} {f : ρ → ρ} {r : Option ρ} {r' : ρ}
    (h : written made f r = some r') : r = some r' ∨ ∃ r₀, r = some r₀ ∧ f r₀ = r' := by
  unfold written at h
  split_ifs at h
  · exact .inr (Option.map_eq_some_iff.mp h)
  · exact .inl h

theorem exists_written {ρ : Type} {made : Bool} {f : ρ → ρ} {r : Option ρ}
    (h : ∃ r', r = some r') : ∃ r', written made f r = some r' := by
  rw [← Option.isSome_iff_exists] at h ⊢
  rwa [isSome_written]

/-- The step lemma. -/
theorem kept_step (hkept : S.Kept j) (h : S.Step j e j') : S.Kept j' := by
  have hshown : ∀ work, Shows j'.record work → work <+: S.work j'.body := by
    intro work hshows
    rcases shows_step h hshows with hbefore | rfl
    · exact (hkept.shown work hbefore).trans (work_step h)
    · exact work_step h
  -- while the job runs its record is not closed
  have hopen : j.progress = .running → ∀ r f, j.record = some r →
      r.standing ≠ .closed f := by
    intro hrunning r f hr hclosed
    obtain ⟨r', hr', hopened⟩ := hkept.fits.running hrunning
    obtain rfl := Option.some.inj (hr.symm.trans hr')
    rw [hopened] at hclosed
    cases hclosed
  cases h with
  | opened h =>
      refine ⟨hshown, fun r f hr hclosed => ?_, ⟨_, rfl, rfl⟩⟩
      obtain rfl := Option.some.inj hr
      cases hclosed
  | notOpened e made h =>
      refine ⟨hshown, fun r f hr hclosed => ?_, trivial⟩
      dsimp only at hr
      rw [hkept.fits.starting h] at hr
      split_ifs at hr
      obtain rfl := Option.some.inj hr
      cases hclosed
  | worked h hturn hstep =>
      refine ⟨hshown, fun r f hr hclosed => absurd hclosed (hopen h r f hr), ?_⟩
      unfold JobSystem.Fits
      rw [h]
      exact hkept.fits.running h
  | reported made h hturn =>
      refine ⟨hshown, fun r f hr hclosed => ?_, ?_⟩
      · rcases written_eq_some hr with hr | ⟨r₀, hr₀, rfl⟩
        · exact absurd hclosed (hopen h r f hr)
        · exact absurd hclosed (hopen h r₀ f hr₀)
      · unfold JobSystem.Fits
        rw [h]
        obtain ⟨r, hr, hopened⟩ := hkept.fits.running h
        unfold written
        dsimp only
        split_ifs
        · exact ⟨_, congrArg (Option.map _) hr, hopened⟩
        · exact ⟨r, hr, hopened⟩
  | closed h hturn =>
      refine ⟨hshown, fun r f hr hclosed => ?_, ?_⟩
      · obtain ⟨r₀, -, rfl⟩ := Option.map_eq_some_iff.mp hr
        cases hclosed
        exact ⟨hturn, rfl⟩
      · obtain ⟨r, hr, -⟩ := hkept.fits.running h
        exact ⟨hturn, _, congrArg (Option.map _) hr, rfl⟩
  | notClosed e made h hturn =>
      refine ⟨hshown, fun r f hr hclosed => ?_, ?_⟩
      · rcases written_eq_some hr with hr | ⟨r₀, -, rfl⟩
        · exact absurd hclosed (hopen h r f hr)
        · cases hclosed
          exact ⟨hturn, rfl⟩
      · obtain ⟨r, hr, -⟩ := hkept.fits.running h
        refine ⟨exists_written ⟨r, hr⟩, ?_⟩
        rw [hturn]
        trivial
  | gaveUp h hturn =>
      refine ⟨hshown, hkept.closed, ?_⟩
      obtain ⟨r, hr, -⟩ := hkept.fits.running h
      refine ⟨⟨r, hr⟩, ?_⟩
      rw [hturn]
      rfl
  | @markedFailed e made h =>
      obtain ⟨hsome, hfail⟩ : (∃ r, j.record = some r) ∧ (S.turn j.body).MayFail e := by
        have hfits := hkept.fits
        unfold JobSystem.Fits at hfits
        rwa [h] at hfits
      refine ⟨hshown, fun r f hr hclosed => ?_, ?_⟩
      · rcases written_eq_some hr with hr | ⟨r₀, -, rfl⟩
        · exact hkept.closed r f hr hclosed
        · cases hclosed
      · obtain ⟨r, hr⟩ := hsome
        cases made with
        | false => trivial
        | true => exact ⟨⟨_, congrArg (Option.map _) hr, rfl⟩, hfail⟩
  | stopped => exact ⟨hshown, hkept.closed, trivial⟩

/-- **The run lemma.** -/
theorem kept_trace (h : Trace S.Step j es j') (hkept : S.Kept j) : S.Kept j' :=
  h.invariant S.Kept (fun _ _ _ => kept_step) hkept

end Steps

end VideoStorage.Foundation
