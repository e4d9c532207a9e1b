import Mathlib.Data.List.Basic
import Mathlib.Logic.Function.Basic

/-!
# Flags held by tasks

A task takes its flag by compare-and-swap when it starts and clears it when it
ends, however it ends. So a flag that is set has exactly one holder, whatever
the tasks do in between (`Owned`), and the flags count what is executing as long
as every task executes what its own flag is for (`Owned.singleFlight`).
-/

namespace VideoStorage.Foundation

/-- The flags of a process, and its running tasks. -/
structure Guards (F T : Type*) where
  flags : F → Bool := fun _ => false
  tasks : List T := []

namespace Guards

variable {F T K : Type*}

/-- One running task apart from the others. -/
theorem countP_erase [DecidableEq T] {g : Guards F T} {t : T} (p : T → Bool)
    (ht : t ∈ g.tasks) :
    g.tasks.countP p = (g.tasks.erase t).countP p + if p t then 1 else 0 := by
  rw [(List.perm_cons_erase ht).countP_eq, List.countP_cons]

variable [DecidableEq F] (held : T → F)

/-- Compare-and-swap of the task's flag; the task runs if it was free. -/
def start (t : T) (g : Guards F T) : Guards F T :=
  if g.flags (held t) then g
  else
    { flags := Function.update g.flags (held t) true
      tasks := t :: g.tasks }

/-- The task ends and drops its guard. -/
def finish [DecidableEq T] (t : T) (g : Guards F T) : Guards F T where
  flags := Function.update g.flags (held t) false
  tasks := g.tasks.erase t

/-- The task goes on as `t'`, under the same guard. -/
def advance [DecidableEq T] (t t' : T) (g : Guards F T) : Guards F T :=
  { g with tasks := t' :: g.tasks.erase t }

/-! ## One holder for each flag that is set -/

def Owned (g : Guards F T) : Prop :=
  ∀ f, g.tasks.countP (fun t => held t = f) = (g.flags f).toNat

section Owned

variable {held} {g : Guards F T} {t t' : T}

theorem Owned.empty : Owned held ({} : Guards F T) := fun _ => rfl

theorem Owned.start (h : Owned held g) (t : T) :
    Owned held (g.start held t) := by
  unfold Guards.start
  split
  · exact h
  · rename_i hfree
    intro f
    rw [List.countP_cons, h f]
    by_cases hf : held t = f
    · subst hf
      simp [hfree]
    · simp [hf, Function.update_of_ne (Ne.symm hf)]

theorem Owned.finish [DecidableEq T] (h : Owned held g) (ht : t ∈ g.tasks) :
    Owned held (g.finish held t) := by
  intro f
  have hcount := h f
  rw [countP_erase _ ht] at hcount
  show (g.tasks.erase t).countP _ = (Function.update g.flags (held t) false f).toNat
  by_cases hf : held t = f
  · subst hf
    have hle := Bool.toNat_le (g.flags (held t))
    simp only [decide_true, if_true] at hcount
    rw [Function.update_self]
    show _ = 0
    omega
  · rw [Function.update_of_ne (Ne.symm hf)]
    simpa [hf] using hcount

theorem Owned.advance [DecidableEq T] (h : Owned held g) (ht : t ∈ g.tasks)
    (hheld : held t' = held t) : Owned held (g.advance t t') := by
  intro f
  have hcount := h f
  rw [countP_erase _ ht] at hcount
  show (t' :: g.tasks.erase t).countP _ = (g.flags f).toNat
  rw [List.countP_cons, hheld]
  exact hcount

theorem Owned.exists_holder (h : Owned held g) {f : F} (hf : g.flags f = true) :
    ∃ t ∈ g.tasks, held t = f := by
  have hcount := h f
  rw [hf] at hcount
  have hpos : 0 < g.tasks.countP (fun t => held t = f) := by
    rw [hcount]
    exact Nat.one_pos
  obtain ⟨t, ht, hheld⟩ := List.countP_pos_iff.mp hpos
  exact ⟨t, ht, of_decide_eq_true hheld⟩

end Owned

/-! ## What is executing -/

variable [DecidableEq K] (executes : T → Option K) (flag : K → F)

def running (k : K) (g : Guards F T) : ℕ :=
  g.tasks.countP fun t => executes t = some k

/-- At most one instance of each kind is executing, and its flag is set exactly
while one is. -/
def SingleFlight (g : Guards F T) : Prop :=
  ∀ k, g.running executes k ≤ 1 ∧
    (g.flags (flag k) = true ↔ 0 < g.running executes k)

/-- The task executes what its flag is for, and nothing else. -/
def Proper (t : T) : Prop := ∀ k, executes t = some k ↔ held t = flag k

section SingleFlight

variable {held executes flag} {g : Guards F T} {t : T} {k : K}

theorem Owned.singleFlight (h : Owned held g)
    (hproper : ∀ t ∈ g.tasks, Proper held executes flag t) :
    SingleFlight executes flag g := by
  intro k
  have hrunning : g.running executes k = (g.flags (flag k)).toNat := by
    rw [← h (flag k)]
    apply List.countP_congr
    intro t ht
    simpa using hproper t ht k
  rw [hrunning]
  cases g.flags (flag k) <;> simp

/-- A task that executes a kind without its flag: either the flag is not set, or
its holder executes the kind too. -/
theorem Owned.not_singleFlight [DecidableEq T] (h : Owned held g) (ht : t ∈ g.tasks)
    (hexec : executes t = some k) (hheld : held t ≠ flag k)
    (hholder : ∀ t', held t' = flag k → executes t' = some k) :
    ¬ SingleFlight executes flag g := by
  intro hsingle
  obtain ⟨hle, hflag⟩ := hsingle k
  have hpos : 0 < g.running executes k :=
    List.countP_pos_iff.mpr ⟨t, ht, by simpa using hexec⟩
  obtain ⟨t', ht', hheld'⟩ := h.exists_holder (hflag.mpr hpos)
  have hne : t' ≠ t := by
    rintro rfl
    exact hheld hheld'
  have hother : 0 < (g.tasks.erase t).countP fun t => executes t = some k := by
    apply List.countP_pos_iff.mpr
    exact ⟨t', (List.mem_erase_of_ne hne).mpr ht',
      by simpa using hholder t' hheld'⟩
  unfold running at hle
  rw [countP_erase _ ht, if_pos (by simpa using hexec)] at hle
  omega

end SingleFlight

end Guards

end VideoStorage.Foundation
