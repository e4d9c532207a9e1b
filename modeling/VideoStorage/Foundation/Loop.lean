import Mathlib.Logic.Relation
import Mathlib.Order.Basic

/-!
# Loops

`iterate step fuel s` runs a loop body that goes on with a new state or stops
with a result; a body that never comes back is one that goes on with the state
it has. The rules: what every round keeps and every stop turns into a result
(`iterate_post`), and a measure that every round lowers (`iterate_total`).
`Rounds` leads to the states at which rounds begin, and `visited` lists them.
-/

namespace VideoStorage.Foundation

variable {σ ρ : Type} {step : σ → σ ⊕ ρ}

def iterate (step : σ → σ ⊕ ρ) : ℕ → σ → Option ρ
  | 0, _ => none
  | fuel + 1, s =>
      match step s with
      | .inl s' => iterate step fuel s'
      | .inr r => some r

theorem iterate_next {fuel : ℕ} {s s' : σ} (h : step s = .inl s') :
    iterate step (fuel + 1) s = iterate step fuel s' := by
  simp only [iterate, h]

theorem iterate_stop {fuel : ℕ} {s : σ} {r : ρ} (h : step s = .inr r) :
    iterate step (fuel + 1) s = some r := by
  simp only [iterate, h]

theorem iterate_mono {n m : ℕ} {s : σ} {r : ρ} (h : iterate step n s = some r)
    (hnm : n ≤ m) : iterate step m s = some r := by
  induction n generalizing s m with
  | zero => cases h
  | succ n ih =>
      obtain ⟨m, rfl⟩ : ∃ k, m = k + 1 := ⟨m - 1, by omega⟩
      cases hs : step s with
      | inl s' =>
          rw [iterate_next hs] at h ⊢
          exact ih h (by omega)
      | inr r' =>
          rw [iterate_stop hs] at h ⊢
          exact h

/-- **Loop rule.** -/
theorem iterate_post (Inv : σ → Prop) (Post : ρ → Prop) {fuel : ℕ} {s : σ}
    {r : ρ} (hnext : ∀ s s', Inv s → step s = .inl s' → Inv s')
    (hstop : ∀ s r, Inv s → step s = .inr r → Post r) (hs : Inv s)
    (h : iterate step fuel s = some r) : Post r := by
  induction fuel generalizing s with
  | zero => cases h
  | succ fuel ih =>
      cases hstep : step s with
      | inl s' =>
          rw [iterate_next hstep] at h
          exact ih (hnext s s' hs hstep) h
      | inr r' =>
          rw [iterate_stop hstep] at h
          obtain rfl := Option.some.inj h
          exact hstop s r' hs hstep

/-- **Termination rule.** -/
theorem iterate_total (step : σ → σ ⊕ ρ) (Inv : σ → Prop) (measure : σ → ℕ) {s : σ}
    (hnext : ∀ s s', Inv s → step s = .inl s' →
      Inv s' ∧ measure s' < measure s) (hs : Inv s) :
    ∃ r, iterate step (measure s + 1) s = some r := by
  induction hm : measure s using Nat.strongRecOn generalizing s with
  | ind m ih =>
      cases hstep : step s with
      | inr r => exact ⟨r, iterate_stop hstep⟩
      | inl s' =>
          obtain ⟨hs', hlt⟩ := hnext s s' hs hstep
          obtain ⟨r, hr⟩ := ih (measure s') (hm ▸ hlt) hs' rfl
          refine ⟨r, ?_⟩
          rw [iterate_next hstep]
          exact iterate_mono hr (by omega)

/-- A loop that keeps going on has no result, whatever the fuel. -/
theorem iterate_none (step : σ → σ ⊕ ρ) (Inv : σ → Prop) {s : σ}
    (hnext : ∀ s, Inv s → ∃ s', step s = .inl s' ∧ Inv s') (hs : Inv s)
    (fuel : ℕ) : iterate step fuel s = none := by
  induction fuel generalizing s with
  | zero => rfl
  | succ fuel ih =>
      obtain ⟨s', hstep, hs'⟩ := hnext s hs
      rw [iterate_next hstep]
      exact ih hs'

/-! ## What a loop went through -/

/-- Rounds lead from one state to the other. -/
def Rounds (step : σ → σ ⊕ ρ) : σ → σ → Prop :=
  Relation.ReflTransGen fun s s' => step s = .inl s'

/-- A loop does what is left of it from any state that it comes to. -/
theorem Rounds.iterate_eq {s s' : σ} (h : Rounds step s s') :
    ∃ n, ∀ fuel, iterate step (n + fuel) s = iterate step fuel s' := by
  induction h with
  | refl => exact ⟨0, fun fuel => by rw [Nat.zero_add]⟩
  | tail _ hstep ih =>
      obtain ⟨n, hn⟩ := ih
      refine ⟨n + 1, fun fuel => ?_⟩
      rw [Nat.add_assoc, Nat.add_comm 1, hn, iterate_next hstep]

/-- **Invariant rule.** -/
theorem Rounds.invariant (Inv : σ → Prop) {s s' : σ}
    (hnext : ∀ s s', Inv s → step s = .inl s' → Inv s') (hs : Inv s)
    (h : Rounds step s s') : Inv s' := by
  induction h with
  | refl => exact hs
  | tail _ hstep ih => exact hnext _ _ ih hstep

/-- The states at which a loop began its rounds. -/
def visited (step : σ → σ ⊕ ρ) : ℕ → σ → List σ
  | 0, _ => []
  | fuel + 1, s => s :: (step s).elim (visited step fuel) fun _ => []

theorem visited_next {fuel : ℕ} {s s' : σ} (h : step s = .inl s') :
    visited step (fuel + 1) s = s :: visited step fuel s' := by
  simp only [visited, h, Sum.elim_inl]

theorem visited_stop {fuel : ℕ} {s : σ} {r : ρ} (h : step s = .inr r) :
    visited step (fuel + 1) s = [s] := by
  simp only [visited, h, Sum.elim_inr]

/-- A loop that ends begins no more rounds with more fuel. -/
theorem visited_subset {n : ℕ} {s : σ} {r : ρ} (h : iterate step n s = some r)
    (fuel : ℕ) : visited step fuel s ⊆ visited step n s := by
  induction n generalizing fuel s with
  | zero => cases h
  | succ n ih =>
      cases fuel with
      | zero => exact List.nil_subset _
      | succ fuel =>
          cases hstep : step s with
          | inl s' =>
              rw [iterate_next hstep] at h
              rw [visited_next hstep, visited_next hstep]
              exact List.cons_subset_cons _ (ih h fuel)
          | inr r' =>
              rw [visited_stop hstep, visited_stop hstep]
              exact List.Subset.refl _

/-- **Loop rule** over what the rounds produced. -/
theorem visited_post {β : Type} {f : σ → List β} (Inv : σ → List β → Prop)
    (Post : ρ → List β → Prop) {fuel : ℕ} {s : σ} {r : ρ} {acc : List β}
    (hnext : ∀ s s' acc, Inv s acc → step s = .inl s' → Inv s' (acc ++ f s))
    (hstop : ∀ s r acc, Inv s acc → step s = .inr r → Post r (acc ++ f s))
    (hs : Inv s acc) (h : iterate step fuel s = some r) :
    Post r (acc ++ (visited step fuel s).flatMap f) := by
  induction fuel generalizing s acc with
  | zero => cases h
  | succ fuel ih =>
      cases hstep : step s with
      | inl s' =>
          rw [iterate_next hstep] at h
          rw [visited_next hstep, List.flatMap_cons, ← List.append_assoc]
          exact ih (hnext s s' acc hs hstep) h
      | inr r' =>
          rw [iterate_stop hstep] at h
          obtain rfl := Option.some.inj h
          rw [visited_stop hstep, List.flatMap_singleton]
          exact hstop s r' acc hs hstep

end VideoStorage.Foundation
