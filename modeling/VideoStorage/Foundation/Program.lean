import Mathlib.Logic.Relation
import Mathlib.Data.List.Basic

/-!
# Programs over an interface of calls

A handler or a transaction body is a finite tree: it returns, or it issues one
call and continues with the reply. The tree says nothing about who answers.
`Runs` lets the environment answer every call as it likes and records the
exchange, so a statement over all traces of `Runs` is a statement over every
combination of results.
-/

namespace VideoStorage.Foundation

/-- A program over the calls `E`, where call `e` is answered by an `R e`. -/
inductive Prog (E : Type) (R : E → Type) (α : Type) : Type
  | ret (a : α)
  | call (e : E) (k : R e → Prog E R α)

namespace Prog

variable {E : Type} {R : E → Type} {α β γ : Type}

def bind : Prog E R α → (α → Prog E R β) → Prog E R β
  | .ret a, f => f a
  | .call e k, f => .call e (fun r => (k r).bind f)

/-- One call, its reply returned as it is. -/
def issue (e : E) : Prog E R (R e) := .call e .ret

/-- The program, on a condition. -/
def when (b : Bool) (p : Prog E R Unit) : Prog E R Unit :=
  if b then p else .ret ()

instance : Monad (Prog E R) where
  pure := .ret
  bind := bind

@[simp] theorem pure_eq (a : α) : (pure a : Prog E R α) = .ret a := rfl

@[simp] theorem bind_eq (p : Prog E R α) (f : α → Prog E R β) :
    p >>= f = p.bind f := rfl

@[simp] theorem ret_bind (a : α) (f : α → Prog E R β) :
    (Prog.ret a : Prog E R α).bind f = f a := rfl

@[simp] theorem call_bind (e : E) (k : R e → Prog E R α) (f : α → Prog E R β) :
    (Prog.call e k).bind f = .call e (fun r => (k r).bind f) := rfl

@[simp] theorem issue_bind (e : E) (f : R e → Prog E R β) :
    (issue e : Prog E R (R e)).bind f = .call e f := rfl

theorem bind_assoc (p : Prog E R α) (f : α → Prog E R β) (g : β → Prog E R γ) :
    (p.bind f).bind g = p.bind (fun a => (f a).bind g) := by
  induction p with
  | ret a => rfl
  | call e k ih => simp only [call_bind, ih]

/-! ## Interpretation -/

section Interpret

variable {E' : Type} {R' : E' → Type} {h : (e : E) → Prog E' R' (R e)}

/-- Every call of the program answered by a program over other calls. -/
def interpret (h : (e : E) → Prog E' R' (R e)) : Prog E R α → Prog E' R' α
  | .ret a => .ret a
  | .call e k => (h e).bind fun r => (k r).interpret h

@[simp] theorem interpret_ret (a : α) :
    (Prog.ret a : Prog E R α).interpret h = .ret a := rfl

@[simp] theorem interpret_call (e : E) (k : R e → Prog E R α) :
    (Prog.call e k).interpret h = (h e).bind fun r => (k r).interpret h := rfl

@[simp] theorem interpret_bind (p : Prog E R α) (f : α → Prog E R β) :
    (p.bind f).interpret h = (p.interpret h).bind fun a => (f a).interpret h := by
  induction p with
  | ret a => rfl
  | call e k ih => simp only [call_bind, interpret_call, ih, bind_assoc]

end Interpret

/-! ## Traces -/

/-- One exchange: a call and the reply it got. -/
abbrev Exchange (E : Type) (R : E → Type) : Type := (e : E) × R e

/-- `Runs p tr a`: answered as `tr` records, `p` issues exactly the calls of
`tr`, in order, and returns `a`. -/
inductive Runs : Prog E R α → List (Exchange E R) → α → Prop
  | ret (a : α) : Runs (.ret a) [] a
  | call {e : E} {k : R e → Prog E R α} {r : R e} {tr : List (Exchange E R)}
      {a : α} (h : Runs (k r) tr a) : Runs (.call e k) (⟨e, r⟩ :: tr) a

@[simp] theorem runs_ret {a b : α} {tr : List (Exchange E R)} :
    Runs (.ret a) tr b ↔ tr = [] ∧ b = a := by
  constructor
  · rintro ⟨⟩
    exact ⟨rfl, rfl⟩
  · rintro ⟨rfl, rfl⟩
    exact .ret _

/-- A program that has returned an error does not return a value. -/
theorem not_runs_error {ε : Type} {e : ε} {a : α} {tr : List (Exchange E R)} :
    ¬ Runs (.ret (.error e) : Prog E R (Except ε α)) tr (.ok a) := by
  intro h
  cases (runs_ret.mp h).2

@[simp] theorem runs_call {e : E} {k : R e → Prog E R α} {b : α}
    {tr : List (Exchange E R)} :
    Runs (.call e k) tr b ↔ ∃ r tr', tr = ⟨e, r⟩ :: tr' ∧ Runs (k r) tr' b := by
  constructor
  · rintro ⟨⟩
    exact ⟨_, _, rfl, ‹_›⟩
  · rintro ⟨r, tr', rfl, h⟩
    exact .call h

theorem runs_bind {p : Prog E R α} {f : α → Prog E R β} {b : β} :
    ∀ {tr : List (Exchange E R)}, Runs (p.bind f) tr b ↔
      ∃ a tr₁ tr₂, tr = tr₁ ++ tr₂ ∧ Runs p tr₁ a ∧ Runs (f a) tr₂ b := by
  induction p with
  | ret a =>
      intro tr
      simp only [ret_bind, runs_ret]
      constructor
      · exact fun h => ⟨a, [], tr, rfl, ⟨rfl, rfl⟩, h⟩
      · rintro ⟨_, _, tr₂, rfl, ⟨rfl, rfl⟩, h⟩
        exact h
  | call e k ih =>
      intro tr
      simp only [call_bind, runs_call, ih]
      constructor
      · rintro ⟨r, _, rfl, a, tr₁, tr₂, rfl, h₁, h₂⟩
        exact ⟨a, ⟨e, r⟩ :: tr₁, tr₂, rfl, ⟨r, tr₁, rfl, h₁⟩, h₂⟩
      · rintro ⟨a, _, tr₂, rfl, ⟨r, tr₁, rfl, h₁⟩, h₂⟩
        exact ⟨r, tr₁ ++ tr₂, rfl, a, tr₁, tr₂, rfl, h₁, h₂⟩

/-- Programs are finite: whatever answers the calls get, the program returns. -/
theorem exists_runs (answer : (e : E) → R e) (p : Prog E R α) :
    ∃ tr a, Runs p tr a ∧ ∀ x ∈ tr, x.2 = answer x.1 := by
  induction p with
  | ret a => exact ⟨[], a, .ret a, by simp⟩
  | call e k ih =>
      obtain ⟨tr, a, h, hans⟩ := ih (answer e)
      refine ⟨⟨e, answer e⟩ :: tr, a, .call h, ?_⟩
      intro x hx
      rcases List.mem_cons.mp hx with rfl | hx
      · rfl
      · exact hans x hx

/-- What lies in the middle of a list comes before what is found later. -/
theorem mem_before {X : Type*} {as bs pre post : List X} {x y : X}
    (h : as ++ y :: bs = pre ++ x :: post) (hx : x ∉ as) (hxy : x ≠ y) :
    y ∈ pre := by
  induction as generalizing pre with
  | nil =>
      cases pre with
      | nil => exact absurd (List.cons.inj h).1.symm hxy
      | cons p ps => exact (List.cons.inj h).1 ▸ List.mem_cons_self
  | cons a as ih =>
      cases pre with
      | nil =>
          have hax : a = x := (List.cons.inj h).1
          exact absurd (hax ▸ List.mem_cons_self) hx
      | cons p ps =>
          have hrest := ih (List.cons.inj h).2
            (fun hmem => hx (List.mem_cons_of_mem a hmem))
          exact List.mem_cons_of_mem p hrest

/-- What comes before an element that the first part has not. -/
theorem prefix_before {X : Type*} {as bs pre post : List X} {x : X}
    (h : as ++ bs = pre ++ x :: post) (hx : x ∉ as) : as <+: pre := by
  rcases List.append_eq_append_iff.mp h with ⟨cs, hpre, -⟩ | ⟨cs, has, hbs⟩
  · exact ⟨cs, hpre.symm⟩
  · cases cs with
    | nil => exact ⟨[], by rw [List.append_nil, has, List.append_nil]⟩
    | cons c cs =>
        obtain ⟨rfl, -⟩ := List.cons.inj hbs
        exact absurd (has ▸ List.mem_append_right _ List.mem_cons_self) hx

/-! ## Calls of a kind -/

/-- The program issues only calls of `P`. -/
def Only (P : E → Prop) : Prog E R α → Prop
  | .ret _ => True
  | .call e k => P e ∧ ∀ r, (k r).Only P

section Only

variable {P : E → Prop} {p : Prog E R α} {f : α → Prog E R β}

@[simp] theorem only_ret (a : α) : (Prog.ret a : Prog E R α).Only P := trivial

@[simp] theorem only_issue (e : E) :
    (issue e : Prog E R (R e)).Only P ↔ P e := by
  show P e ∧ (∀ r, True) ↔ P e
  exact ⟨fun h => h.1, fun h => ⟨h, fun _ => trivial⟩⟩

theorem Only.mono {Q : E → Prop} (h : p.Only P) (hPQ : ∀ e, P e → Q e) :
    p.Only Q := by
  induction p with
  | ret a => exact only_ret a
  | call e k ih => exact ⟨hPQ e h.1, fun r => ih r (h.2 r)⟩

theorem Only.bind (h : p.Only P) (hf : ∀ a, (f a).Only P) :
    (p.bind f).Only P := by
  induction p with
  | ret a => exact hf a
  | call e k ih => exact ⟨h.1, fun r => ih r (h.2 r)⟩

theorem Only.when {p : Prog E R Unit} (h : p.Only P) (b : Bool) :
    (Prog.when b p).Only P := by
  cases b with
  | false => exact only_ret ()
  | true => exact h

theorem Only.runs (h : p.Only P) {tr : List (Exchange E R)} {a : α}
    (hrun : Runs p tr a) : ∀ x ∈ tr, P x.1 := by
  induction hrun with
  | ret a => exact fun x hx => absurd hx List.not_mem_nil
  | call hrun ih =>
      intro x hx
      rcases List.mem_cons.mp hx with rfl | hx
      · exact h.1
      · exact ih (h.2 _) x hx

end Only

/-! ## Two phases -/

/-- Whatever the replies, there are calls of `P`, and then calls of `Q`. -/
def Phased (P Q : E → Prop) (p : Prog E R α) : Prop :=
  ∀ tr a, Runs p tr a → ∃ tr₁ tr₂, tr = tr₁ ++ tr₂ ∧
    (∀ x ∈ tr₁, P x.1) ∧ ∀ x ∈ tr₂, Q x.1

section Phased

variable {P Q : E → Prop} {p : Prog E R α} {f : α → Prog E R β}

theorem Only.phased (h : p.Only Q) : p.Phased P Q :=
  fun tr _ hrun => ⟨[], tr, rfl, fun _ hx => absurd hx List.not_mem_nil, h.runs hrun⟩

theorem Phased.ret (a : α) : (Prog.ret a : Prog E R α).Phased P Q :=
  (only_ret a).phased

/-- Calls before a phased program. -/
theorem Phased.after_only (h : p.Only P) (hf : ∀ a, (f a).Phased P Q) :
    (p.bind f).Phased P Q := by
  intro tr b hrun
  obtain ⟨a, tr₀, tr', rfl, hp, hf'⟩ := runs_bind.mp hrun
  obtain ⟨tr₁, tr₂, rfl, h₁, h₂⟩ := hf a tr' b hf'
  refine ⟨tr₀ ++ tr₁, tr₂, (List.append_assoc _ _ _).symm, ?_, h₂⟩
  intro x hx
  rcases List.mem_append.mp hx with hx | hx
  · exact h.runs hp x hx
  · exact h₁ x hx

/-- Calls after a phased program. -/
theorem Phased.bind_only (h : p.Phased P Q) (hf : ∀ a, (f a).Only Q) :
    (p.bind f).Phased P Q := by
  intro tr b hrun
  obtain ⟨a, tr', tr₃, rfl, hp, hf'⟩ := runs_bind.mp hrun
  obtain ⟨tr₁, tr₂, rfl, h₁, h₂⟩ := h tr' a hp
  refine ⟨tr₁, tr₂ ++ tr₃, List.append_assoc _ _ _, h₁, ?_⟩
  intro x hx
  rcases List.mem_append.mp hx with hx | hx
  · exact h₂ x hx
  · exact (hf a).runs hf' x hx

end Phased

end Prog

/-! ## Runs of a transition system -/

section Transition

open Relation (ReflTransGen)

variable {σ : Type*} {step : σ → σ → Prop} {s t : σ}

/-- What holds at the start and is kept by every step holds after every run. -/
theorem run_invariant (Inv : σ → Prop)
    (hstep : ∀ a b, Inv a → step a b → Inv b)
    (hrun : ReflTransGen step s t) (hs : Inv s) : Inv t := by
  induction hrun with
  | refl => exact hs
  | tail _ hab ih => exact hstep _ _ ih hab

end Transition

end VideoStorage.Foundation
