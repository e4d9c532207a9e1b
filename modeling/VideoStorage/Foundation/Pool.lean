import Mathlib.Logic.Function.Basic
import VideoStorage.Foundation.Program
import VideoStorage.Foundation.Trace

/-!
# Programs side by side

A pool of programs that share a world. A program starts at any time, issues its
calls one by one and stays in the pool when it has returned; between two of its
calls others may be answered and the world may move by itself. Of each program
the pool remembers what it has exchanged so far (`Pool.Faithful`).
-/

namespace VideoStorage.Foundation

variable {E : Type} {R : E → Type} {α ι W L : Type}

namespace Prog

/-- `After p tr q`: answered as `tr` records, `p` has `q` left to do. -/
inductive After : Prog E R α → List (Exchange E R) → Prog E R α → Prop
  | nil (p : Prog E R α) : After p [] p
  | call {e : E} {k : R e → Prog E R α} {r : R e} {tr : List (Exchange E R)}
      {q : Prog E R α} (h : After (k r) tr q) :
      After (.call e k) (⟨e, r⟩ :: tr) q

namespace After

variable {p q : Prog E R α} {tr tr' : List (Exchange E R)} {a : α} {e : E}
  {k : R e → Prog E R α} {P : E → Prop}

/-- One more call. -/
theorem snoc (h : After p tr (.call e k)) (r : R e) :
    After p (tr ++ [⟨e, r⟩]) (k r) := by
  generalize hq : Prog.call e k = q at h
  induction h with
  | nil p =>
      subst hq
      exact .call (.nil _)
  | call h ih => exact .call (ih hq)

theorem runs (h : After p tr q) (h' : Runs q tr' a) : Runs p (tr ++ tr') a := by
  induction h with
  | nil p => exact h'
  | call h ih => exact .call (ih h')

/-- A program that has returned ran to its end. -/
theorem ret (h : After p tr (.ret a)) : Runs p tr a := by
  have := h.runs (.ret a)
  rwa [List.append_nil] at this

theorem only (h : After p tr q) (hp : p.Only P) : q.Only P := by
  induction h with
  | nil p => exact hp
  | call h ih => exact ih (hp.2 _)

end After

/-! ## What comes before a call -/

/-- Each call the program comes to stands in `P` to the exchanges before it,
those of `h` included. -/
def Obeys (P : List (Exchange E R) → E → Prop) :
    List (Exchange E R) → Prog E R α → Prop
  | _, .ret _ => True
  | h, .call e k => P h e ∧ ∀ r, (k r).Obeys P (h ++ [⟨e, r⟩])

section Obeys

variable {P : List (Exchange E R) → E → Prop} {h tr : List (Exchange E R)}
  {p q : Prog E R α} {β : Type} {f : α → Prog E R β}

theorem Obeys.of_only {Q : E → Prop} (hp : p.Only Q)
    (hQ : ∀ h e, Q e → P h e) : p.Obeys P h := by
  induction p generalizing h with
  | ret a => trivial
  | call e k ih => exact ⟨hQ h e hp.1, fun r => ih r (hp.2 r)⟩

theorem Obeys.bind (hp : p.Obeys P h)
    (hf : ∀ tr a, Runs p tr a → (f a).Obeys P (h ++ tr)) :
    (p.bind f).Obeys P h := by
  induction p generalizing h with
  | ret a =>
      have := hf [] a (.ret a)
      rwa [List.append_nil] at this
  | call e k ih =>
      refine ⟨hp.1, fun r => ih r (hp.2 r) fun tr a hrun => ?_⟩
      rw [List.append_assoc]
      exact hf _ a (.call hrun)

theorem After.obeys (hafter : After p tr q) (hp : p.Obeys P h) :
    q.Obeys P (h ++ tr) := by
  induction hafter generalizing h with
  | nil p => rwa [List.append_nil]
  | call _ ih =>
      have := ih (hp.2 _)
      rwa [List.append_assoc] at this

end Obeys

end Prog

open Prog

/-- A program under way: what it was started for, what it has exchanged and what
it has left. -/
structure Task (E : Type) (R : E → Type) (α ι : Type) where
  request : ι
  done : List (Exchange E R)
  rest : Prog E R α

structure Pool (E : Type) (R : E → Type) (α ι W : Type) where
  world : W
  tasks : ℕ → Option (Task E R α ι)

inductive PoolEvent (E : Type) (R : E → Type) (ι L : Type)
  | start (t : ℕ) (request : ι)
  | call (t : ℕ) (x : Exchange E R)
  | outside (l : L)

/-- The task that an event starts or moves. -/
def PoolEvent.task? : PoolEvent E R ι L → Option ℕ
  | .start t _ => some t
  | .call t _ => some t
  | .outside _ => none

/-- The programs, the answers of the world and its own moves. -/
structure PoolSystem (E : Type) (R : E → Type) (α ι W L : Type) where
  body : ι → Prog E R α
  acts : W → Exchange E R → W → Prop
  moves : W → L → W → Prop

namespace Pool

variable (S : PoolSystem E R α ι W L)

inductive Step : Pool E R α ι W → PoolEvent E R ι L → Pool E R α ι W → Prop
  | start {s : Pool E R α ι W} (t : ℕ) (request : ι) (h : s.tasks t = none) :
      Step s (.start t request) { s with
        tasks := Function.update s.tasks t
          (some ⟨request, [], S.body request⟩) }
  | call {s : Pool E R α ι W} {w : W} (t : ℕ) (task : Task E R α ι) (e : E)
      (k : R e → Prog E R α) (r : R e) (h : s.tasks t = some task)
      (hrest : task.rest = .call e k) (hact : S.acts s.world ⟨e, r⟩ w) :
      Step s (.call t ⟨e, r⟩) {
        world := w
        tasks := Function.update s.tasks t
          (some ⟨task.request, task.done ++ [⟨e, r⟩], k r⟩) }
  | outside {s : Pool E R α ι W} {w : W} (l : L) (h : S.moves s.world l w) :
      Step s (.outside l) { s with world := w }

/-- Every task has done the beginning of its program. -/
def Faithful (s : Pool E R α ι W) : Prop :=
  ∀ t task, s.tasks t = some task →
    After (S.body task.request) task.done task.rest

variable {S} {s s' : Pool E R α ι W} {e : PoolEvent E R ι L}

/-- A task after a step is a task before it, or the one that moved. -/
theorem tasks_update {tasks : ℕ → Option (Task E R α ι)} {t u : ℕ}
    {task task' : Task E R α ι}
    (h : Function.update tasks t (some task') u = some task) :
    (u = t ∧ task = task') ∨ (u ≠ t ∧ tasks u = some task) := by
  by_cases hu : u = t
  · subst hu
    rw [Function.update_self] at h
    exact .inl ⟨rfl, (Option.some.inj h).symm⟩
  · rw [Function.update_of_ne hu] at h
    exact .inr ⟨hu, h⟩

theorem Faithful.step (hs : Faithful S s) (h : Step S s e s') :
    Faithful S s' := by
  cases h with
  | start t request hfree =>
      intro u task hu
      rcases tasks_update hu with ⟨-, rfl⟩ | ⟨-, hu⟩
      · exact .nil _
      · exact hs u task hu
  | call t task e k r ht hrest hact =>
      intro u task' hu
      rcases tasks_update hu with ⟨-, rfl⟩ | ⟨-, hu⟩
      · have hafter := hs t task ht
        rw [hrest] at hafter
        exact hafter.snoc r
      · exact hs u task' hu
  | outside l hmove => exact hs

theorem Faithful.of_idle (h : s.tasks = fun _ => none) : Faithful S s := by
  intro t task ht
  rw [h] at ht
  cases ht

theorem Faithful.run {es : List (PoolEvent E R ι L)} (hs : Faithful S s)
    (h : Trace (Step S) s es s') : Faithful S s' :=
  h.invariant (Faithful S) (fun _ _ _ ha hab => ha.step hab) hs

/-! ## One task alone -/

/-- A task that goes on alone is answered by the world to its end. What it does
is `Good` if each of its calls is. -/
theorem solo (Good : Pool E R α ι W → PoolEvent E R ι L → Prop) {t : ℕ}
    {request : ι} {a : α} {p : Prog E R α} {tr : List (Exchange E R)}
    (hrun : Runs p tr a) : ∀ {s : Pool E R α ι W} {done : List (Exchange E R)}
      {w : W}, s.tasks t = some ⟨request, done, p⟩ → Trace S.acts s.world tr w →
    (∀ pre x post w q, tr = pre ++ x :: post → Trace S.acts s.world pre w →
      Good ⟨w, Function.update s.tasks t (some ⟨request, done ++ pre, q⟩)⟩
        (.call t x)) →
    Trace (fun a e b => Step S a e b ∧ Good a e) s (tr.map (.call t))
      ⟨w, Function.update s.tasks t (some ⟨request, done ++ tr, .ret a⟩)⟩ := by
  induction hrun with
  | ret a =>
      intro s done w ht hacts hgood
      cases hacts
      rw [List.append_nil, Function.update_eq_self_iff.mpr ht.symm]
      exact .nil s
  | @call e k r tr a hrun ih =>
      intro s done w ht hacts hgood
      cases hacts with
      | @cons _ w₁ _ _ _ hact hacts =>
          -- the first call is made with nothing done
          have hfirst : Good s (.call t ⟨e, r⟩) := by
            have h := hgood [] ⟨e, r⟩ tr s.world (.call e k) rfl (.nil _)
            rwa [List.append_nil, Function.update_eq_self_iff.mpr ht.symm] at h
          refine .cons ⟨.call t _ e k r ht rfl hact, hfirst⟩ ?_
          have hrest := ih (s := ⟨w₁, Function.update s.tasks t
            (some ⟨request, done ++ [⟨e, r⟩], k r⟩)⟩)
            (Function.update_self _ _ _) hacts ?_
          · simpa only [Function.update_idem, List.append_assoc,
              List.singleton_append] using hrest
          · intro pre x post w' q hsplit hpre
            have h := hgood (⟨e, r⟩ :: pre) x post w' q (by rw [hsplit]; rfl)
              (.cons hact hpre)
            simpa only [Function.update_idem, List.append_assoc,
              List.singleton_append] using h

/-- A request served from its start to its end while all others wait. -/
theorem solo_start (Good : Pool E R α ι W → PoolEvent E R ι L → Prop) {t : ℕ}
    {request : ι} {a : α} {tr : List (Exchange E R)} {w : W}
    {s : Pool E R α ι W} (hrun : Runs (S.body request) tr a)
    (hfree : s.tasks t = none) (hacts : Trace S.acts s.world tr w)
    (hstart : Good s (.start t request))
    (hgood : ∀ pre x post w q, tr = pre ++ x :: post →
      Trace S.acts s.world pre w →
      Good ⟨w, Function.update s.tasks t (some ⟨request, pre, q⟩)⟩ (.call t x)) :
    Trace (fun a e b => Step S a e b ∧ Good a e) s
      (.start t request :: tr.map (.call t))
      ⟨w, Function.update s.tasks t (some ⟨request, tr, .ret a⟩)⟩ := by
  refine .cons ⟨.start t request hfree, hstart⟩ ?_
  have hrest := solo (S := S) Good hrun (s := ⟨s.world, Function.update s.tasks t
    (some ⟨request, [], S.body request⟩)⟩) (Function.update_self _ _ _) hacts ?_
  · simpa only [Function.update_idem, List.nil_append] using hrest
  · intro pre x post w' q hsplit hpre
    simpa only [Function.update_idem, List.nil_append] using
      hgood pre x post w' q hsplit hpre

end Pool

end VideoStorage.Foundation
