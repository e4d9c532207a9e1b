import Mathlib.Data.List.Basic

/-!
# Failover

One attempt after the other until one succeeds. Every attempt but the last one
made is a failure, and another followed it because there was one to follow
(`mem_dropLast_tried`).
-/

namespace VideoStorage.Foundation

variable {A ε α : Type*}

/-- The answer, if there was an attempt or an error before, and what was tried. -/
def failover (attempt : A → Except ε α) :
    List A → Option ε → Option (Except ε α) × List A
  | [], last => (last.map .error, [])
  | a :: as, _ =>
      match attempt a with
      | .ok x => (some (.ok x), [a])
      | .error e =>
          let rest := failover attempt as (some e)
          (rest.1, a :: rest.2)

section Tried

variable {attempt : A → Except ε α} {as : List A} {last : Option ε} {a b : A}

theorem failover_ok {x : α} (h : attempt a = .ok x) :
    failover attempt (a :: as) last = (some (.ok x), [a]) := by
  rw [failover, h]

theorem failover_error {e : ε} (h : attempt a = .error e) :
    failover attempt (a :: as) last = ((failover attempt as (some e)).1,
      a :: (failover attempt as (some e)).2) := by
  rw [failover, h]

theorem tried_ne_nil (h : as ≠ []) : (failover attempt as last).2 ≠ [] := by
  cases as with
  | nil => exact absurd rfl h
  | cons a as =>
      cases hattempt : attempt a with
      | ok x =>
          rw [failover_ok hattempt]
          exact List.cons_ne_nil _ _
      | error e =>
          rw [failover_error hattempt]
          exact List.cons_ne_nil _ _

/-- To split a list before an element is to split it at the head or in the
tail. -/
theorem exists_split_cons {P : List A → List A → Prop} :
    (∃ bs cs, a :: as = bs ++ b :: cs ∧ P bs cs) ↔
      (a = b ∧ P [] as) ∨ ∃ bs cs, as = bs ++ b :: cs ∧ P (a :: bs) cs := by
  constructor
  · rintro ⟨bs, cs, has, h⟩
    cases bs with
    | nil =>
        obtain ⟨rfl, rfl⟩ := List.cons.inj has
        exact .inl ⟨rfl, h⟩
    | cons c bs =>
        obtain ⟨rfl, htail⟩ := List.cons.inj has
        exact .inr ⟨bs, cs, htail, h⟩
  · rintro (⟨rfl, h⟩ | ⟨bs, cs, rfl, h⟩)
    · exact ⟨[], as, rfl, h⟩
    · exact ⟨a :: bs, cs, rfl, h⟩

/-- What another attempt followed: it failed, and so did all before it. -/
theorem mem_dropLast_tried :
    b ∈ (failover attempt as last).2.dropLast ↔
      ∃ bs cs, as = bs ++ b :: cs ∧ cs ≠ [] ∧
        ∀ c ∈ bs ++ [b], ∃ e, attempt c = .error e := by
  induction as generalizing last with
  | nil =>
      constructor
      · intro h
        cases h
      · rintro ⟨bs, cs, h, -⟩
        exact absurd h.symm (by simp)
  | cons a as ih =>
      rw [exists_split_cons]
      cases hattempt : attempt a with
      | ok x =>
          rw [failover_ok hattempt]
          -- the first attempt is in every prefix, and it did not fail
          have hfirst : ¬ ∃ e, attempt a = .error e := by
            rintro ⟨e, he⟩
            rw [hattempt] at he
            cases he
          constructor
          · intro h
            cases h
          · rintro (⟨rfl, -, hfail⟩ | ⟨bs, cs, -, -, hfail⟩)
            · exact absurd (hfail a List.mem_cons_self) hfirst
            · exact absurd (hfail a List.mem_cons_self) hfirst
      | error e =>
          rw [failover_error hattempt]
          cases as with
          | nil =>
              constructor
              · intro h
                cases h
              · rintro (⟨-, hne, -⟩ | ⟨bs, cs, has, -⟩)
                · exact absurd rfl hne
                · exact absurd has.symm (by simp)
          | cons a' as =>
              have hne : (failover attempt (a' :: as) (some e)).2 ≠ [] :=
                tried_ne_nil (List.cons_ne_nil _ _)
              rw [List.dropLast_cons_of_ne_nil hne, List.mem_cons, ih]
              apply or_congr
              · constructor
                · rintro rfl
                  refine ⟨rfl, List.cons_ne_nil _ _, ?_⟩
                  intro c hc
                  obtain rfl := List.mem_singleton.mp hc
                  exact ⟨e, hattempt⟩
                · exact fun h => h.1.symm
              · simp only [List.cons_append, List.forall_mem_cons, hattempt,
                  Except.error.injEq, exists_eq', true_and]

end Tried

/-- Where only the last of a list can, at most one does. -/
theorem countP_le_one {p : A → Bool} {as : List A}
    (h : ∀ a ∈ as.dropLast, p a = false) : as.countP p ≤ 1 := by
  rcases List.eq_nil_or_concat as with rfl | ⟨bs, b, rfl⟩
  · exact Nat.zero_le 1
  · rw [List.concat_eq_append] at h ⊢
    rw [List.dropLast_concat] at h
    have hzero : bs.countP p = 0 := by
      apply List.countP_eq_zero.mpr
      intro a ha
      rw [h a ha]
      exact Bool.false_ne_true
    rw [List.countP_append, hzero, Nat.zero_add]
    exact List.countP_le_length

end VideoStorage.Foundation
