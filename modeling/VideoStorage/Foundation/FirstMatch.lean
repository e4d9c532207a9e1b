import Mathlib.Data.List.Basic
import Mathlib.Data.List.Count

/-!
# Ordered rules

In a list of rules the first one with a verdict decides. A part of the rules is
looked at with `filterMap`: where the others have no verdict the part decides alone,
and what is put in or taken out outside the part leaves it as it is.
-/

namespace VideoStorage.Foundation

variable {R S V : Type}

section Part

variable {part : R → Option S} {l : List R} {r : R} {s : S}

/-- Where the other rules have no verdict, the part decides. -/
theorem findSome?_part {verdict : R → Option V} {verdict' : S → Option V}
    (h : ∀ r ∈ l, verdict r = (part r).bind verdict') :
    l.findSome? verdict = (l.filterMap part).findSome? verdict' := by
  induction l with
  | nil => rfl
  | cons r l ih =>
      have hr := h r (.head l)
      have hl := ih fun x hx => h x (.tail r hx)
      cases hpart : part r with
      | none =>
          rw [hpart, Option.bind_none] at hr
          rw [List.filterMap_cons_none hpart, List.findSome?_cons, hr]
          exact hl
      | some s =>
          rw [hpart, Option.bind_some] at hr
          rw [List.filterMap_cons_some hpart, List.findSome?_cons, List.findSome?_cons,
            hr, hl]

theorem filterMap_insertIdx_none (h : part r = none) (n : ℕ) :
    (l.insertIdx n r).filterMap part = l.filterMap part := by
  induction l generalizing n with
  | nil =>
      cases n with
      | zero => exact List.filterMap_cons_none h
      | succ n => rfl
  | cons x l ih =>
      cases n with
      | zero => exact List.filterMap_cons_none h
      | succ n =>
          rw [List.insertIdx_succ_cons, List.filterMap_cons, List.filterMap_cons, ih]

variable [DecidableEq R]

theorem filterMap_erase_none (h : part r = none) :
    (l.erase r).filterMap part = l.filterMap part := by
  induction l with
  | nil => rfl
  | cons x l ih =>
      by_cases hx : x = r
      · subst hx
        rw [List.erase_cons_head, List.filterMap_cons_none h]
      · rw [List.erase_cons_tail (by simpa using hx), List.filterMap_cons,
          List.filterMap_cons, ih]

/-- What is taken out of the part is the same rule. -/
theorem filterMap_erase_some [DecidableEq S] (h : part r = some s) (hinj : ∀ x, part x = some s → x = r) :
    (l.erase r).filterMap part = (l.filterMap part).erase s := by
  induction l with
  | nil => rfl
  | cons x l ih =>
      by_cases hx : x = r
      · subst hx
        rw [List.erase_cons_head, List.filterMap_cons_some h, List.erase_cons_head]
      · rw [List.erase_cons_tail (by simpa using hx)]
        cases hpart : part x with
        | none => rw [List.filterMap_cons_none hpart, List.filterMap_cons_none hpart, ih]
        | some y =>
            have hy : y ≠ s := fun hy => hx (hinj x (hy ▸ hpart))
            rw [List.filterMap_cons_some hpart, List.filterMap_cons_some hpart,
              List.erase_cons_tail (by simpa using hy), ih]

end Part

section Verdict

variable {verdict : R → Option V} {l : List R} {last : R} {v w : V}

/-- Exceptions in front of a last rule: one that applies decides. -/
theorem findSome?_exception (h : ∀ r ∈ l, verdict r = none ∨ verdict r = some v)
    (hex : ∃ r ∈ l, verdict r = some v) : (l ++ [last]).findSome? verdict = some v := by
  rw [List.findSome?_append]
  cases hl : l.findSome? verdict with
  | none =>
      obtain ⟨r, hr, hv⟩ := hex
      rw [List.findSome?_eq_none_iff.mp hl r hr] at hv
      cases hv
  | some u =>
      obtain ⟨r, hr, hu⟩ := List.exists_of_findSome?_eq_some hl
      rcases h r hr with hnone | hsome
      · rw [hnone] at hu
        cases hu
      · rw [Option.some_or, ← hu, hsome]

/-- Where no exception applies, the last rule decides. -/
theorem findSome?_last (h : ∀ r ∈ l, verdict r = none) (hlast : verdict last = some w) :
    (l ++ [last]).findSome? verdict = some w := by
  rw [List.findSome?_append, List.findSome?_eq_none_iff.mpr h, Option.none_or,
    List.findSome?_cons, hlast]

end Verdict

section Diff

variable [DecidableEq R] {l rs : List R} {r : R}

/-- Taking out a rule that is there once leaves none. -/
theorem not_mem_diff (hr : r ∈ rs) (hcount : l.count r ≤ 1) : r ∉ l.diff rs := by
  induction rs generalizing l with
  | nil => cases hr
  | cons x rs ih =>
      rw [List.diff_cons]
      by_cases hx : r = x
      · subst hx
        intro hmem
        have hleft : r ∈ l.erase r := List.diff_subset _ _ hmem
        have hpos := List.count_pos_iff.mpr hleft
        rw [List.count_erase_self] at hpos
        omega
      · have hrest : r ∈ rs := (List.mem_cons.mp hr).resolve_left hx
        exact ih hrest (Nat.le_trans (List.erase_sublist.count_le r) hcount)

end Diff

/-- A rule put in where the first rule with a property is. -/
theorem insertIdx_findIdx {p : R → Bool} {l : List R} {n : ℕ} (h : l.findIdx? p = some n)
    (r : R) : ∃ pre x post, l = pre ++ x :: post ∧ l.insertIdx n r = pre ++ r :: x :: post ∧
      p x = true ∧ ∀ y ∈ pre, p y = false := by
  induction l generalizing n with
  | nil => cases h
  | cons x l ih =>
      rw [List.findIdx?_cons] at h
      split_ifs at h with hx
      · obtain rfl := Option.some.inj h
        exact ⟨[], x, l, rfl, rfl, hx, fun y hy => absurd hy List.not_mem_nil⟩
      · obtain ⟨n, hn, rfl⟩ := Option.map_eq_some_iff.mp h
        obtain ⟨pre, y, post, rfl, hins, hy, hpre⟩ := ih hn
        refine ⟨x :: pre, y, post, rfl, ?_, hy, ?_⟩
        · rw [List.insertIdx_succ_cons, hins]
          rfl
        · intro z hz
          rcases List.mem_cons.mp hz with rfl | hz
          · exact Bool.not_eq_true _ ▸ hx
          · exact hpre z hz

end VideoStorage.Foundation
