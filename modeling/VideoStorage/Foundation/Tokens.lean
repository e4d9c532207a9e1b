import Mathlib.Algebra.Group.Nat.Defs
import Mathlib.Data.Fintype.Basic
import VideoStorage.Foundation.Trace

/-!
# Cancellation tokens that are swapped

A holder keeps the current token. A task takes it when it starts; a request puts
a fresh token in its place and cancels the old one afterwards, outside the lock.
So requests may cancel in another order than they swapped. A task's token is
cancelled exactly once the request that swapped first after it has cancelled
(`token_after_take`).
-/

namespace VideoStorage.Foundation

/-- `ι` are tasks, `ρ` requests. -/
inductive TokenEvent (ι ρ : Type)
  | take (i : ι)
  | swap (r : ρ)
  | cancel (r : ρ)
  deriving DecidableEq, Repr

/-- Tokens are numbered in the order they come into the holder. -/
structure Tokens (ι ρ : Type) where
  current : ℕ := 0
  taken : ι → Option ℕ := fun _ => none
  /-- The old token a request has in its hands. -/
  swapped : ρ → Option ℕ := fun _ => none
  cancelled : ℕ → Bool := fun _ => false

variable {ι ρ : Type}

namespace Tokens

def take [DecidableEq ι] (s : Tokens ι ρ) (i : ι) : Tokens ι ρ :=
  { s with taken := Function.update s.taken i (some s.current) }

def swap [DecidableEq ρ] (s : Tokens ι ρ) (r : ρ) : Tokens ι ρ :=
  { s with
    current := s.current + 1
    swapped := Function.update s.swapped r (some s.current) }

def cancel (s : Tokens ι ρ) (n : ℕ) : Tokens ι ρ :=
  { s with cancelled := Function.update s.cancelled n true }

end Tokens

inductive TokenStep [DecidableEq ι] [DecidableEq ρ] :
    Tokens ι ρ → TokenEvent ι ρ → Tokens ι ρ → Prop
  | take {s : Tokens ι ρ} (i : ι) (h : s.taken i = none) :
      TokenStep s (.take i) (s.take i)
  | swap {s : Tokens ι ρ} (r : ρ) (h : s.swapped r = none) :
      TokenStep s (.swap r) (s.swap r)
  | cancel {s : Tokens ι ρ} (r : ρ) (n : ℕ) (h : s.swapped r = some n) :
      TokenStep s (.cancel r) (s.cancel n)

section Operations

variable (s : Tokens ι ρ)

@[simp] theorem taken_take [DecidableEq ι] (i j : ι) :
    (s.take i).taken j = if j = i then some s.current else s.taken j :=
  Function.update_apply ..

@[simp] theorem swapped_swap [DecidableEq ρ] (r r' : ρ) :
    (s.swap r).swapped r' = if r' = r then some s.current else s.swapped r' :=
  Function.update_apply ..

@[simp] theorem cancelled_cancel (n m : ℕ) :
    (s.cancel n).cancelled m = if m = n then true else s.cancelled m :=
  Function.update_apply ..

@[simp] theorem current_swap [DecidableEq ρ] (r : ρ) :
    (s.swap r).current = s.current + 1 := rfl

end Operations

/-- Only tokens that were swapped out are in a request's hands or cancelled, and
no two requests have one. -/
structure TokenInv (s : Tokens ι ρ) : Prop where
  swapped : ∀ r n, s.swapped r = some n → n < s.current
  apart : ∀ r r' n, s.swapped r = some n → s.swapped r' = some n → r = r'
  cancelled : ∀ n, s.cancelled n = true → n < s.current

variable {s t u : Tokens ι ρ} {e : TokenEvent ι ρ} {es : List (TokenEvent ι ρ)}

theorem tokenInv_init : TokenInv ({} : Tokens ι ρ) where
  swapped _ _ h := by cases h
  apart _ _ _ h := by cases h
  cancelled _ h := by cases h

/-- What has become of the token `n` by the state after `es`: it is in the holder,
or the first swap took it out, whose request has cancelled it or not yet. -/
def TokenSince (n : ℕ) (es : List (TokenEvent ι ρ)) (s : Tokens ι ρ) : Prop :=
  (∀ r, .swap r ∉ es) ∧ s.current = n ∧ s.cancelled n = false ∨
  ∃ mid r rest, es = mid ++ .swap r :: rest ∧ (∀ r', .swap r' ∉ mid) ∧
    s.swapped r = some n ∧ n < s.current ∧
    (s.cancelled n = true ↔ .cancel r ∈ rest)

/-- It is cancelled exactly once the request that swapped first has cancelled. -/
theorem TokenSince.cancelled_iff {n : ℕ} (h : TokenSince n es s) :
    s.cancelled n = true ↔ ∃ mid r rest, es = mid ++ .swap r :: rest ∧
      (∀ r', .swap r' ∉ mid) ∧ .cancel r ∈ rest := by
  rcases h with ⟨hnone, -, hcancelled⟩ | ⟨mid, r, rest, hes, hmid, -, -, hiff⟩
  · rw [hcancelled]
    refine ⟨nofun, ?_⟩
    rintro ⟨mid, r, rest, rfl, -, -⟩
    exact absurd (by simp) (hnone r)
  · refine ⟨fun hc => ⟨mid, r, rest, hes, hmid, hiff.mp hc⟩, ?_⟩
    rintro ⟨mid', r', rest', hes', hmid', hc⟩
    -- the first swap of the events is one
    have hsplit : mid ++ .swap r :: rest = mid' ++ .swap r' :: rest' :=
      hes.symm.trans hes'
    rcases List.append_eq_append_iff.mp hsplit with
      ⟨zs, hmid'', hrest⟩ | ⟨zs, hmid'', hrest⟩
    · cases zs with
      | nil =>
          obtain ⟨hswap, rfl⟩ := List.cons.inj hrest
          cases hswap
          exact hiff.mpr hc
      | cons z zs =>
          obtain ⟨rfl, -⟩ := List.cons.inj hrest
          exact absurd (by rw [hmid'']; simp) (hmid' r)
    · cases zs with
      | nil =>
          obtain ⟨hswap, rfl⟩ := List.cons.inj hrest
          cases hswap
          exact hiff.mpr hc
      | cons z zs =>
          obtain ⟨rfl, -⟩ := List.cons.inj hrest
          exact absurd (by rw [hmid'']; simp) (hmid r')

variable [DecidableEq ι] [DecidableEq ρ]

theorem TokenInv.step (h : TokenInv s) (hstep : TokenStep s e t) : TokenInv t := by
  cases hstep with
  | take i _ => exact ⟨h.swapped, h.apart, h.cancelled⟩
  | swap r _ =>
      -- the token swapped out now is newer than those before
      refine ⟨fun r' n hn => ?_, fun r' r'' n hn hn' => ?_,
        fun n hn => Nat.lt_succ_of_lt (h.cancelled n hn)⟩
      · rw [swapped_swap] at hn
        rw [current_swap]
        split_ifs at hn
        · obtain rfl := Option.some.inj hn
          exact Nat.lt_succ_self _
        · exact Nat.lt_succ_of_lt (h.swapped r' n hn)
      · rw [swapped_swap] at hn hn'
        split_ifs at hn hn' with hr hr' hr'
        · rw [hr, hr']
        · obtain rfl := Option.some.inj hn
          exact absurd (h.swapped r'' _ hn') (Nat.lt_irrefl _)
        · obtain rfl := Option.some.inj hn'
          exact absurd (h.swapped r' _ hn) (Nat.lt_irrefl _)
        · exact h.apart r' r'' n hn hn'
  | cancel r m hr =>
      refine ⟨h.swapped, h.apart, fun n hn => ?_⟩
      rw [cancelled_cancel] at hn
      split_ifs at hn with hnm
      · rw [hnm]
        exact h.swapped r m hr
      · exact h.cancelled n hn

theorem TokenInv.run (h : TokenInv s) (hrun : Trace TokenStep s es t) :
    TokenInv t :=
  hrun.invariant TokenInv (fun _ _ _ hs hstep => hs.step hstep) h

/-- The token of a task stays the one it took. -/
theorem TokenStep.taken (hstep : TokenStep s e t) {i : ι} {n : ℕ}
    (h : s.taken i = some n) : t.taken i = some n := by
  cases hstep with
  | take j hj =>
      have hne : i ≠ j := by
        rintro rfl
        rw [hj] at h
        cases h
      rw [taken_take, if_neg hne, h]
  | swap r _ => exact h
  | cancel r m _ => exact h

theorem TokenSince.step {n : ℕ} (hinv : TokenInv s) (h : TokenSince n es s)
    (hstep : TokenStep s e t) : TokenSince n (es ++ [e]) t := by
  rcases h with ⟨hnone, hcurrent, hcancelled⟩ |
    ⟨mid, r, rest, rfl, hmid, hr, hlt, hiff⟩
  · cases hstep with
    | take i _ =>
        refine .inl ⟨fun r hr => ?_, hcurrent, hcancelled⟩
        rcases List.mem_append.mp hr with hr | hr
        · exact hnone r hr
        · cases List.mem_singleton.mp hr
    | swap r _ =>
        refine .inr ⟨es, r, [], rfl, hnone, ?_, ?_, ?_⟩
        · rw [swapped_swap, if_pos rfl, hcurrent]
        · rw [current_swap]
          omega
        · show s.cancelled n = true ↔ _
          rw [hcancelled]
          exact ⟨nofun, nofun⟩
    | cancel r m hm =>
        have hne : n ≠ m := by
          have hlt := hinv.swapped r m hm
          omega
        refine .inl ⟨fun r' hr' => ?_, hcurrent, ?_⟩
        · rcases List.mem_append.mp hr' with hr' | hr'
          · exact hnone r' hr'
          · cases List.mem_singleton.mp hr'
        · rw [cancelled_cancel, if_neg hne, hcancelled]
  · refine .inr ⟨mid, r, rest ++ [e], by simp, hmid, ?_⟩
    rw [List.mem_append, List.mem_singleton]
    cases hstep with
    | take i _ => exact ⟨hr, hlt, hiff.trans (by simp)⟩
    | swap r' hr' =>
        have hne : r ≠ r' := by
          rintro rfl
          rw [hr'] at hr
          cases hr
        refine ⟨?_, Nat.lt_succ_of_lt hlt, hiff.trans (by simp)⟩
        rw [swapped_swap, if_neg hne, hr]
    | cancel r' m hm =>
        refine ⟨hr, hlt, ?_⟩
        rw [cancelled_cancel]
        by_cases hnm : n = m
        · -- one token, so it is the same request
          subst hnm
          obtain rfl := hinv.apart r r' n hr hm
          rw [if_pos rfl]
          exact ⟨fun _ => .inr rfl, fun _ => rfl⟩
        · have hne : r ≠ r' := by
            rintro rfl
            rw [hm] at hr
            exact hnm (Option.some.inj hr).symm
          rw [if_neg hnm, hiff]
          simp [hne]

theorem TokenSince.run {n : ℕ} (hinv : TokenInv s) (hcurrent : s.current = n)
    (hcancelled : s.cancelled n = false) (hrun : Trace TokenStep s es t) :
    TokenSince n es t := by
  induction es using List.reverseRecOn generalizing t with
  | nil =>
      obtain ⟨⟩ := hrun
      exact .inl ⟨fun _ => List.not_mem_nil, hcurrent, hcancelled⟩
  | append_singleton es e ih =>
      obtain ⟨a, hrun₁, hlast⟩ := hrun.of_append
      obtain ⟨b, hab, hnil⟩ := hlast.cons_inv
      obtain ⟨⟩ := hnil
      exact (ih hrun₁).step (hinv.run hrun₁) hab

/-- **Taking the token.** From then on the task's token fares as `TokenSince`
says. -/
theorem token_after_take {i : ι} (hinv : TokenInv s)
    (htake : TokenStep s (.take i) t) (hrun : Trace TokenStep t es u) :
    ∃ n, u.taken i = some n ∧ TokenSince n es u := by
  have hinv' := hinv.step htake
  cases htake with
  | take _ _ =>
      refine ⟨s.current, ?_, TokenSince.run hinv' rfl ?_ hrun⟩
      · refine hrun.invariant (fun a => a.taken i = some s.current)
          (fun _ _ _ h hstep => hstep.taken h) ?_
        rw [taken_take, if_pos rfl]
      · show s.cancelled s.current = false
        rw [Bool.eq_false_iff]
        intro h
        exact absurd (hinv.cancelled _ h) (Nat.lt_irrefl _)

end VideoStorage.Foundation
