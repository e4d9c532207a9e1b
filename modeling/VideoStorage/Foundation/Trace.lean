import Mathlib.Data.List.Induction

/-!
# Labelled runs

A run of a transition system with the events of its steps, in order. What every
step keeps, a run keeps; and a run falls into two at any of its events.
-/

namespace VideoStorage.Foundation

variable {σ L : Type*} {step : σ → L → σ → Prop}

/-- `Trace step s es t`: the events `es` lead from `s` to `t`. -/
inductive Trace (step : σ → L → σ → Prop) : σ → List L → σ → Prop
  | nil (s : σ) : Trace step s [] s
  | cons {s t u : σ} {e : L} {es : List L} (h : step s e t)
      (run : Trace step t es u) : Trace step s (e :: es) u

namespace Trace

variable {s t u : σ} {e : L} {es fs : List L}

theorem append (h : Trace step s es t) (h' : Trace step t fs u) :
    Trace step s (es ++ fs) u := by
  induction h with
  | nil s => exact h'
  | cons hstep _ ih => exact .cons hstep (ih h')

theorem of_append (h : Trace step s (es ++ fs) u) :
    ∃ t, Trace step s es t ∧ Trace step t fs u := by
  induction es generalizing s with
  | nil => exact ⟨s, .nil s, h⟩
  | cons e es ih =>
      obtain ⟨⟩ | ⟨hstep, hrun⟩ := h
      obtain ⟨t, h₁, h₂⟩ := ih hrun
      exact ⟨t, .cons hstep h₁, h₂⟩

/-- The state before an event of the run and the state after it. -/
theorem at_event (h : Trace step s (es ++ e :: fs) u) :
    ∃ a b, Trace step s es a ∧ step a e b ∧ Trace step b fs u := by
  obtain ⟨a, h₁, h₂⟩ := h.of_append
  obtain ⟨⟩ | ⟨hstep, hrun⟩ := h₂
  exact ⟨a, _, h₁, hstep, hrun⟩

theorem single (h : step s e t) : Trace step s [e] t := .cons h (.nil t)

theorem mono {step' : σ → L → σ → Prop} (h : Trace step s es t)
    (hstep : ∀ a e b, step a e b → step' a e b) : Trace step' s es t := by
  induction h with
  | nil s => exact .nil s
  | cons hab _ ih => exact .cons (hstep _ _ _ hab) ih

/-- What every step keeps holds after the run. -/
theorem invariant (Inv : σ → Prop)
    (hstep : ∀ a e b, Inv a → step a e b → Inv b) (h : Trace step s es t)
    (hs : Inv s) : Inv t := by
  induction h with
  | nil s => exact hs
  | cons hab _ ih => exact ih (hstep _ _ _ hs hab)

/-- Under an invariant, a reflexive and transitive relation that contains every
step relates the two ends. -/
theorem relates (Inv : σ → Prop) {rel : σ → σ → Prop} (hrefl : ∀ a, rel a a)
    (htrans : ∀ a b c, rel a b → rel b c → rel a c)
    (hinv : ∀ a e b, Inv a → step a e b → Inv b)
    (hstep : ∀ a e b, Inv a → step a e b → rel a b) (h : Trace step s es t)
    (hs : Inv s) : rel s t := by
  induction h with
  | nil s => exact hrefl s
  | cons hab _ ih =>
      exact htrans _ _ _ (hstep _ _ _ hs hab) (ih (hinv _ _ _ hs hab))

/-- A part of the state whose steps are those events that `part` keeps goes
through a run of its own. -/
theorem project {τ M : Type*} {step' : τ → M → τ → Prop} (proj : σ → τ)
    (part : L → Option M)
    (hnone : ∀ a e b, step a e b → part e = none → proj b = proj a)
    (hsome : ∀ a e b m, step a e b → part e = some m → step' (proj a) m (proj b))
    (h : Trace step s es t) :
    Trace step' (proj s) (es.filterMap part) (proj t) := by
  induction h with
  | nil s => exact .nil _
  | @cons a b c e es hab _ ih =>
      cases he : part e with
      | none =>
          rw [List.filterMap_cons_none he, ← hnone a e b hab he]
          exact ih
      | some m =>
          rw [List.filterMap_cons_some he]
          exact .cons (hsome a e b m hab he) ih

theorem cons_inv (h : Trace step s (e :: es) u) :
    ∃ t, step s e t ∧ Trace step t es u := by
  obtain ⟨⟩ | ⟨hstep, hrun⟩ := h
  exact ⟨_, hstep, hrun⟩

end Trace

/-! ## Every state of a run -/

/-- Every state that the events reach, on the way too, satisfies `Inv`. -/
def Throughout (step : σ → L → σ → Prop) (s : σ) (es : List L)
    (Inv : σ → Prop) : Prop :=
  ∀ es₁ a, es₁ <+: es → Trace step s es₁ a → Inv a

/-- Every step that the events make satisfies `P`, which looks at the state
before it. -/
def StepsMeet (step : σ → L → σ → Prop) (s : σ) (es : List L)
    (P : σ → L → Prop) : Prop :=
  ∀ es₁ e a b, es₁ ++ [e] <+: es → Trace step s es₁ a → step a e b → P a e

/-- The steps that meet `P`. -/
def Meeting (P : σ → L → Prop) (step : σ → L → σ → Prop) : σ → L → σ → Prop :=
  fun a e b => P a e ∧ step a e b

/-- What the steps that meet `P` keep holds throughout a run of such steps. -/
theorem Throughout.of_steps {Inv : σ → Prop} {P : σ → L → Prop} {s : σ}
    {es : List L} (hs : Inv s)
    (hinv : ∀ a e b, Inv a → P a e → step a e b → Inv b)
    (hmeet : StepsMeet step s es P) : Throughout step s es Inv := by
  intro es₁
  induction es₁ using List.reverseRecOn with
  | nil =>
      intro a _ hrun
      obtain ⟨⟩ := hrun
      exact hs
  | append_singleton es₁ e ih =>
      intro b hprefix hrun
      obtain ⟨a, hrun₁, hlast⟩ := hrun.of_append
      obtain ⟨b, hab, hnil⟩ := hlast.cons_inv
      obtain ⟨⟩ := hnil
      have ha : Inv a :=
        ih a ((List.prefix_append es₁ [e]).trans hprefix) hrun₁
      exact hinv a e b ha (hmeet es₁ e a b hprefix hrun₁ hab) hab

/-- Where a step keeps the invariant exactly under `P`, the first step outside
`P` is the one that breaks it. -/
theorem throughout_iff {Inv : σ → Prop} {P : σ → L → Prop} {s : σ} {es : List L}
    (hs : Inv s) (hstep : ∀ a e b, Inv a → step a e b → (Inv b ↔ P a e)) :
    Throughout step s es Inv ↔ StepsMeet step s es P := by
  constructor
  · intro h es₁ e a b hprefix hrun hab
    have ha : Inv a := h es₁ a ((List.prefix_append es₁ [e]).trans hprefix) hrun
    exact (hstep a e b ha hab).mp
      (h (es₁ ++ [e]) b hprefix (hrun.append (.single hab)))
  · exact .of_steps hs fun a e b ha hp hab => (hstep a e b ha hab).mpr hp

/-! ## Every step of every run -/

/-- Whatever happened since `s`, the next step satisfies `P`. -/
def Always (step : σ → L → σ → Prop) (s : σ) (P : σ → L → σ → Prop) : Prop :=
  ∀ es a e b, Trace step s es a → step a e b → P a e b

/-- What an invariant gives of a step holds of every step of every run. -/
theorem Always.of_invariant {P : σ → L → σ → Prop} (Inv : σ → Prop)
    (hs : Inv s) (hinv : ∀ a e b, Inv a → step a e b → Inv b)
    (hstep : ∀ a e b, Inv a → step a e b → P a e b) : Always step s P := by
  intro es a e b hrun hab
  have ha : Inv a := hrun.invariant Inv hinv hs
  exact hstep a e b ha hab

end VideoStorage.Foundation
