import Mathlib.Data.List.Basic

/-!
# Interleavings

Two lists shuffled into one, each in its own order. Mapping, filtering and
cutting an interleaving gives interleavings again.
-/

namespace VideoStorage.Foundation

variable {X Y : Type*}

/-- `Interleaving xs ys zs`: `zs` is `xs` and `ys`, shuffled. -/
inductive Interleaving : List X → List X → List X → Prop
  | nil : Interleaving [] [] []
  | left {x : X} {xs ys zs : List X} (h : Interleaving xs ys zs) :
      Interleaving (x :: xs) ys (x :: zs)
  | right {y : X} {xs ys zs : List X} (h : Interleaving xs ys zs) :
      Interleaving xs (y :: ys) (y :: zs)

namespace Interleaving

variable {xs ys zs : List X} {x : X}

theorem symm (h : Interleaving xs ys zs) : Interleaving ys xs zs := by
  induction h with
  | nil => exact .nil
  | left _ ih => exact .right ih
  | right _ ih => exact .left ih

theorem mem_iff (h : Interleaving xs ys zs) : x ∈ zs ↔ x ∈ xs ∨ x ∈ ys := by
  induction h with
  | nil => simp
  | left _ ih => simp only [List.mem_cons, ih, or_assoc]
  | right _ ih => simp only [List.mem_cons, ih, or_left_comm]

theorem filterMap (f : X → Option Y) (h : Interleaving xs ys zs) :
    Interleaving (xs.filterMap f) (ys.filterMap f) (zs.filterMap f) := by
  induction h with
  | nil => exact .nil
  | @left x xs ys zs _ ih =>
      cases hx : f x with
      | none =>
          rw [List.filterMap_cons_none hx, List.filterMap_cons_none hx]
          exact ih
      | some y =>
          rw [List.filterMap_cons_some hx, List.filterMap_cons_some hx]
          exact .left ih
  | @right y xs ys zs _ ih =>
      cases hy : f y with
      | none =>
          rw [List.filterMap_cons_none hy, List.filterMap_cons_none hy]
          exact ih
      | some y' =>
          rw [List.filterMap_cons_some hy, List.filterMap_cons_some hy]
          exact .right ih

theorem sublist (h : Interleaving xs ys zs) : xs.Sublist zs := by
  induction h with
  | nil => exact .slnil
  | left _ ih => exact .cons_cons _ ih
  | right _ ih => exact .cons _ ih

/-- Cut at an element of the first list: what is done of each side. -/
theorem cut {xs' : List X} (h : Interleaving (xs ++ x :: xs') ys zs) :
    ∃ ys₁ ys₂ zs₁ zs₂, ys = ys₁ ++ ys₂ ∧ zs = zs₁ ++ x :: zs₂ ∧
      Interleaving xs ys₁ zs₁ ∧ Interleaving xs' ys₂ zs₂ := by
  generalize hl : xs ++ x :: xs' = l at h
  induction h generalizing xs with
  | nil => simp at hl
  | @left x₀ l ys zs h ih =>
      cases xs with
      | nil =>
          obtain ⟨rfl, rfl⟩ := List.cons.inj hl
          exact ⟨[], ys, [], zs, rfl, rfl, .nil, h⟩
      | cons x₁ xs =>
          obtain ⟨rfl, hrest⟩ := List.cons.inj hl
          obtain ⟨ys₁, ys₂, zs₁, zs₂, rfl, rfl, h₁, h₂⟩ := ih hrest
          exact ⟨ys₁, ys₂, x₁ :: zs₁, zs₂, rfl, rfl, .left h₁, h₂⟩
  | @right y l ys zs h ih =>
      obtain ⟨ys₁, ys₂, zs₁, zs₂, rfl, rfl, h₁, h₂⟩ := ih hl
      exact ⟨y :: ys₁, ys₂, y :: zs₁, zs₂, rfl, rfl, .right h₁, h₂⟩

theorem prependLeft (l : List X) (h : Interleaving xs ys zs) :
    Interleaving (l ++ xs) ys (l ++ zs) := by
  induction l with
  | nil => exact h
  | cons x l ih => exact .left ih

theorem prependRight (l : List X) (h : Interleaving xs ys zs) :
    Interleaving xs (l ++ ys) (l ++ zs) :=
  (h.symm.prependLeft l).symm

theorem append (xs ys : List X) : Interleaving xs ys (xs ++ ys) := by
  have h := (nil.prependRight ys).prependLeft xs
  simpa only [List.append_nil] using h

/-! ## Two events -/

/-- `x` of the one list comes before `y` of the other: what is done before `x`,
between the two and after `y`. -/
inductive Before (xs : List X) (x : X) (xs' ys : List X) (y : X)
    (ys' zs : List X) : Prop
  | mk (ys₁ ys₂ xs₁ xs₂ zs₁ zs₂ zs₃ : List X) (hys : ys = ys₁ ++ ys₂)
      (hxs : xs' = xs₁ ++ xs₂) (hzs : zs = zs₁ ++ x :: (zs₂ ++ y :: zs₃))
      (h₁ : Interleaving xs ys₁ zs₁) (h₂ : Interleaving xs₁ ys₂ zs₂)
      (h₃ : Interleaving xs₂ ys' zs₃)

/-- One of the two comes first. -/
theorem before_or {xs' ys' : List X} {y : X}
    (h : Interleaving (xs ++ x :: xs') (ys ++ y :: ys') zs) :
    Before xs x xs' ys y ys' zs ∨ Before ys y ys' xs x xs' zs := by
  obtain ⟨l₁, l₂, zs₁, zs₂, hl, rfl, h₁, h₂⟩ := h.cut
  rcases List.append_eq_append_iff.mp hl with ⟨c, rfl, hc⟩ | ⟨c, rfl, hc⟩
  · cases c with
    | nil =>
        obtain rfl : y :: ys' = l₂ := hc
        have hcut : Interleaving ([] ++ y :: ys') xs' zs₂ := h₂.symm
        obtain ⟨xs₁, xs₂, zs₃, zs₄, rfl, rfl, h₃, h₄⟩ := hcut.cut
        rw [List.append_nil] at h₁
        exact .inl (.mk ys [] xs₁ xs₂ zs₁ zs₃ zs₄ (List.append_nil _).symm rfl
          rfl h₁ h₃.symm h₄.symm)
    | cons y' c =>
        obtain ⟨rfl, rfl⟩ := List.cons.inj hc
        obtain ⟨xs₁, xs₂, zs₃, zs₄, rfl, rfl, h₃, h₄⟩ := h₁.symm.cut
        exact .inr (.mk xs₁ xs₂ c l₂ zs₃ zs₄ zs₂ rfl rfl (by simp) h₃ h₄ h₂.symm)
  · subst hc
    obtain ⟨xs₁, xs₂, zs₃, zs₄, rfl, rfl, h₃, h₄⟩ := h₂.symm.cut
    exact .inl (.mk l₁ c xs₁ xs₂ zs₁ zs₃ zs₄ rfl rfl rfl h₁ h₃.symm h₄.symm)

end Interleaving

end VideoStorage.Foundation
