import VideoStorage.Foundation.Program

/-!
# Bounded retries

An attempt succeeds, fails for good or fails so that it may be tried again.
`retry` makes attempts until one of the first two happens or the budget is used.
`Retried` says what a run of it looks like to an observer who sees one
observation for each attempt.
-/

namespace VideoStorage.Foundation

inductive Attempt (ε : Type) (α : Type)
  | done (a : α)
  | terminal (e : ε)
  | retryable (e : ε)

variable {E : Type} {R : E → Type} {ε α O : Type}

/-- At most `n` attempts, of which `last` is the error of the one before. The
answer is `none` if there was no attempt to report. -/
def retry (once : Prog E R (Attempt ε α)) (pause : ℕ → Prog E R Unit) :
    ℕ → Option ε → Prog E R (Option (Except ε α))
  | 0, last => .ret (last.map .error)
  | n + 1, _ => once.bind fun
      | .done a => .ret (some (.ok a))
      | .terminal e => .ret (some (.error e))
      | .retryable e => (pause n).bind fun _ => retry once pause n (some e)

/-- Attempts that were observed as the list says, and their answer. -/
inductive Retried (outcome : O → Attempt ε α) :
    ℕ → Option ε → List O → Option (Except ε α) → Prop
  | exhausted (last : Option ε) :
      Retried outcome 0 last [] (last.map .error)
  | done {n : ℕ} {last : Option ε} {o : O} {a : α} (h : outcome o = .done a) :
      Retried outcome (n + 1) last [o] (some (.ok a))
  | terminal {n : ℕ} {last : Option ε} {o : O} {e : ε}
      (h : outcome o = .terminal e) :
      Retried outcome (n + 1) last [o] (some (.error e))
  | again {n : ℕ} {last : Option ε} {o : O} {os : List O} {e : ε}
      {out : Option (Except ε α)} (h : outcome o = .retryable e)
      (hrest : Retried outcome n (some e) os out) :
      Retried outcome (n + 1) last (o :: os) out

section Runs

variable {once : Prog E R (Attempt ε α)} {pause : ℕ → Prog E R Unit}
  {outcome : O → Attempt ε α} {obs : Prog.Exchange E R → Option O}

/-- Every run of `retry` is observed so, if an attempt shows one observation and
a pause none. -/
theorem retry_runs
    (honce : ∀ tr r, Prog.Runs once tr r →
      ∃ o, tr.filterMap obs = [o] ∧ r = outcome o)
    (hpause : ∀ n tr u, Prog.Runs (pause n) tr u → tr.filterMap obs = [])
    {n : ℕ} {last : Option ε} {tr : List (Prog.Exchange E R)}
    {out : Option (Except ε α)}
    (h : Prog.Runs (retry once pause n last) tr out) :
    Retried outcome n last (tr.filterMap obs) out := by
  induction n generalizing last tr with
  | zero =>
      obtain ⟨rfl, rfl⟩ := Prog.runs_ret.mp h
      exact .exhausted last
  | succ n ih =>
      obtain ⟨r, tr₁, tr₂, rfl, hfirst, hrest⟩ := Prog.runs_bind.mp h
      obtain ⟨o, ho, rfl⟩ := honce tr₁ r hfirst
      rw [List.filterMap_append, ho]
      cases hr : outcome o with
      | done a =>
          rw [hr] at hrest
          obtain ⟨rfl, rfl⟩ := Prog.runs_ret.mp hrest
          exact .done hr
      | terminal e =>
          rw [hr] at hrest
          obtain ⟨rfl, rfl⟩ := Prog.runs_ret.mp hrest
          exact .terminal hr
      | retryable e =>
          rw [hr] at hrest
          obtain ⟨u, tr₃, tr₄, rfl, hwait, hloop⟩ := Prog.runs_bind.mp hrest
          rw [List.filterMap_append, hpause n tr₃ u hwait]
          exact .again hr (ih hloop)

end Runs

namespace Retried

variable {outcome : O → Attempt ε α} {n : ℕ} {last : Option ε} {os : List O}
  {out : Option (Except ε α)}

theorem length_le (h : Retried outcome n last os out) : os.length ≤ n := by
  induction h with
  | exhausted last => exact Nat.le_refl 0
  | done h => simp
  | terminal h => simp
  | again h hrest ih => simpa using ih

/-- There is an answer as soon as there is an attempt. -/
theorem answers (h : Retried outcome n last os out) (hn : 0 < n ∨ last.isSome) :
    ∃ r, out = some r := by
  induction h with
  | exhausted last =>
      obtain ⟨e, rfl⟩ := Option.isSome_iff_exists.mp (hn.resolve_left (by simp))
      exact ⟨.error e, rfl⟩
  | done h => exact ⟨_, rfl⟩
  | terminal h => exact ⟨_, rfl⟩
  | again h hrest ih => exact ih (.inr rfl)

/-- A success is that of the last attempt. -/
theorem of_ok {a : α} (h : Retried outcome n last os (some (.ok a))) :
    ∃ pre o, os = pre ++ [o] ∧ outcome o = .done a ∧
      ∀ x ∈ pre, ∃ e, outcome x = .retryable e := by
  generalize hout : some (Except.ok a) = out at h
  induction h with
  | exhausted last => cases last <;> cases hout
  | done h =>
      cases hout
      exact ⟨[], _, rfl, h, by simp⟩
  | terminal h => cases hout
  | @again n last o os e out h hrest ih =>
      obtain ⟨pre, x, rfl, hx, hpre⟩ := ih hout
      refine ⟨o :: pre, x, rfl, hx, ?_⟩
      intro y hy
      rcases List.mem_cons.mp hy with rfl | hy
      · exact ⟨e, h⟩
      · exact hpre y hy

/-- After an attempt: it ended the run, or it may be retried and either another
one follows or the budget is used and its error is the answer. -/
theorem at_attempt {pre post : List O} {o : O}
    (h : Retried outcome n last (pre ++ o :: post) out) :
    (post = [] ∧ ∃ a, outcome o = .done a ∧ out = some (.ok a)) ∨
    (post = [] ∧ ∃ e, outcome o = .terminal e ∧ out = some (.error e)) ∨
    ∃ e, outcome o = .retryable e ∧ (post ≠ [] ∨
      (pre.length + 1 = n ∧ out = some (.error e))) := by
  induction pre generalizing n last with
  | nil =>
      cases h with
      | done h => exact .inl ⟨rfl, _, h, rfl⟩
      | terminal h => exact .inr (.inl ⟨rfl, _, h, rfl⟩)
      | again h hrest =>
          refine .inr (.inr ⟨_, h, ?_⟩)
          cases post with
          | nil =>
              cases hrest with
              | exhausted last => exact .inr ⟨rfl, rfl⟩
          | cons o' post => exact .inl (List.cons_ne_nil o' post)
  | cons x pre ih =>
      -- an attempt that is not the last was retryable
      generalize hos : x :: pre ++ o :: post = os at h
      cases h with
      | exhausted last => cases hos
      | done h => simp at hos
      | terminal h => simp at hos
      | again h hrest =>
          obtain ⟨-, rfl⟩ := List.cons.inj hos
          rcases ih hrest with hd | ht | ⟨e, he, hnext⟩
          · exact .inl hd
          · exact .inr (.inl ht)
          · refine .inr (.inr ⟨e, he, ?_⟩)
            rcases hnext with hne | ⟨hlen, hout⟩
            · exact .inl hne
            · exact .inr ⟨by simpa using hlen, hout⟩

end Retried

end VideoStorage.Foundation
