import Mathlib.Data.List.ReduceOption
import Mathlib.Data.Set.Finite.Lemmas
import Mathlib.Order.Bounds.Basic
import VideoStorage.Foundation.Scan

/-!
# `MAX`

The greatest value of a column among the rows that satisfy a condition. Two
conditions have the same one exactly where the greatest value that satisfies one
of them satisfies both (`Greatest.iff_of_greatest`).
-/

namespace VideoStorage.Foundation

section Greatest

variable {α : Type} [LinearOrder α] {A B : Set α} {r : Option α}

/-- The greatest element, of a set that has elements. -/
def Greatest (A : Set α) : Option α → Prop
  | some a => IsGreatest A a
  | none => A = ∅

theorem greatest_max? (l : List α) : Greatest {a | a ∈ l} l.max? := by
  cases hmax : l.max? with
  | none =>
      rw [List.max?_eq_none_iff.mp hmax]
      exact Set.eq_empty_of_forall_notMem fun _ ha => by cases ha
  | some a =>
      obtain ⟨hmem, hle⟩ := List.max?_eq_some_iff.mp hmax
      exact ⟨hmem, fun b hb => hle b hb⟩

/-- **One greatest element for two sets**, against that of their union. -/
theorem Greatest.iff_of_greatest (hfin : (A ∪ B).Finite) (hr : Greatest A r) :
    Greatest B r ↔ ∀ a, IsGreatest (A ∪ B) a → a ∈ A ∧ a ∈ B := by
  constructor
  · intro hB a ha
    cases r with
    | none =>
        have hA : A = ∅ := hr
        have hB : B = ∅ := hB
        rw [hA, hB, Set.union_empty] at ha
        cases ha.1
    | some k =>
        have hle : a ≤ k := ha.1.elim (fun h => hr.2 h) (fun h => hB.2 h)
        have hak : a = k := le_antisymm hle (ha.2 (.inl hr.1))
        exact hak ▸ ⟨hr.1, hB.1⟩
  · intro h
    rcases Set.eq_empty_or_nonempty (A ∪ B) with hempty | hne
    · obtain ⟨hA, hB⟩ := Set.union_empty_iff.mp hempty
      cases r with
      | none => exact hB
      | some k =>
          rw [hA] at hr
          cases hr.1
    · obtain ⟨a, ha, hle⟩ := Set.exists_max_image (A ∪ B) id hfin hne
      obtain ⟨hA, hB⟩ := h a ⟨ha, hle⟩
      cases r with
      | none =>
          have hnone : A = ∅ := hr
          rw [hnone] at hA
          cases hA
      | some k =>
          have hka : k = a := le_antisymm (hle k (.inl hr.1)) (hr.2 hA)
          rw [hka]
          exact ⟨hB, fun b hb => hle b (.inr hb)⟩

end Greatest

section Column

variable {α ε : Type} [LinearOrder α] {p : α → Except ε Bool}
  {column : List (Option α)}

/-- `SELECT MAX(column) … WHERE p`, of a condition that `NULL` does not satisfy. -/
def maxWhere (p : α → Except ε Bool) (column : List (Option α)) :
    Except ε (Option α) :=
  (selectWhere p column.reduceOption).map List.max?

theorem greatest_maxWhere (h : ∀ v, ∃ b, p v = .ok b) :
    ∃ r, maxWhere p column = .ok r ∧
      Greatest {v | some v ∈ column ∧ p v = .ok true} r := by
  obtain ⟨sel, hsel⟩ := selectWhere_isOk fun v (_ : v ∈ column.reduceOption) => h v
  have hmem : {v | some v ∈ column ∧ p v = .ok true} = {v | v ∈ sel} := by
    ext v
    show some v ∈ column ∧ p v = .ok true ↔ v ∈ sel
    rw [mem_selectWhere hsel, List.reduceOption_mem_iff]
  refine ⟨sel.max?, ?_, hmem ▸ greatest_max? sel⟩
  unfold maxWhere
  rw [hsel]
  rfl

end Column

end VideoStorage.Foundation
