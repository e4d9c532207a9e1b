import VideoStorage.Foundation.Program

/-!
# Programs on a machine

A machine answers every call from its state and moves on, so a program run on it
has one course. The course may be cut off between any two calls. `Meets` states
what holds at all of these points and what holds when the program returns; it is
proved by going through the program.
-/

namespace VideoStorage.Foundation

namespace Prog

variable {E : Type} {R : E → Type} {σ α β : Type}

/-- The answer to a call, and the state behind it. -/
abbrev Machine (E : Type) (R : E → Type) (σ : Type) : Type := (e : E) → σ → R e × σ

section Course

variable (m : Machine E R σ)

/-- What the program returns, and the state it leaves. -/
def eval : Prog E R α → σ → α × σ
  | .ret a, s => (a, s)
  | .call e k, s => (k (m e s).1).eval (m e s).2

/-- The state after the first `n` calls. -/
def cut : ℕ → Prog E R α → σ → σ
  | 0, _, s => s
  | _ + 1, .ret _, s => s
  | n + 1, .call e k, s => cut n (k (m e s).1) (m e s).2

/-- `Inv` holds before and after every call, and `Q` of what is returned. -/
def Meets (Inv : σ → Prop) (Q : α → σ → Prop) : Prog E R α → σ → Prop
  | .ret a, s => Inv s ∧ Q a s
  | .call e k, s => Inv s ∧ Meets Inv Q (k (m e s).1) (m e s).2

end Course

section Meets

variable {m : Machine E R σ} {Inv Inv' : σ → Prop} {Q Q' : α → σ → Prop}
  {S : β → σ → Prop} {p : Prog E R α} {f : α → Prog E R β} {s : σ}

theorem meets_ret {a : α} (hs : Inv s) (ha : Q a s) : (ret a : Prog E R α).Meets m Inv Q s :=
  ⟨hs, ha⟩

/-- A call whose answer is known. -/
theorem meets_call {e : E} {r : R e} {s' : σ} {k : R e → Prog E R α} (hs : Inv s)
    (he : m e s = (r, s')) (hk : (k r).Meets m Inv Q s') :
    (call e k).Meets m Inv Q s := by
  refine ⟨hs, ?_⟩
  rw [he]
  exact hk

theorem Meets.mono (h : p.Meets m Inv Q s) (hInv : ∀ s, Inv s → Inv' s)
    (hQ : ∀ a s, Inv s → Q a s → Q' a s) : p.Meets m Inv' Q' s := by
  induction p generalizing s with
  | ret a => exact ⟨hInv s h.1, hQ a s h.1 h.2⟩
  | call e k ih => exact ⟨hInv s h.1, ih _ h.2⟩

/-- What is known when the first part returns is known where the second starts. -/
theorem Meets.bind (h : p.Meets m Inv Q s)
    (hf : ∀ a s', Inv s' → Q a s' → (f a).Meets m Inv S s') :
    (p.bind f).Meets m Inv S s := by
  induction p generalizing s with
  | ret a => exact hf a s h.1 h.2
  | call e k ih => exact ⟨h.1, ih _ h.2⟩

/-- **Wherever the course is cut off**, the invariant holds. -/
theorem Meets.cut (h : p.Meets m Inv Q s) (n : ℕ) : Inv (p.cut m n s) := by
  induction p generalizing s n with
  | ret a =>
      cases n with
      | zero => exact h.1
      | succ n => exact h.1
  | call e k ih =>
      cases n with
      | zero => exact h.1
      | succ n => exact ih _ h.2 n

/-- **When the program returns**, so does the postcondition. -/
theorem Meets.eval (h : p.Meets m Inv Q s) :
    Inv (p.eval m s).2 ∧ Q (p.eval m s).1 (p.eval m s).2 := by
  induction p generalizing s with
  | ret a => exact h
  | call e k ih => exact ih _ h.2

end Meets

end Prog

end VideoStorage.Foundation
