import Mathlib.Data.Finset.Insert
import Mathlib.Data.Finset.Erase
import Mathlib.Data.List.Basic

/-!
# Object stores

What there is under which key, and how that changes by deletions and puts. A history
that puts nothing until it has deleted everything is easily read.
-/

namespace VideoStorage.Foundation

variable {K : Type*} [DecidableEq K]

inductive StoreEvent (K : Type*)
  | deleted (key : K)
  | put (key : K)
  | other
  deriving DecidableEq

namespace StoreEvent

/-- The keys after an event. -/
def apply (objects : Finset K) : StoreEvent K → Finset K
  | deleted key => objects.erase key
  | put key => insert key objects
  | other => objects

/-- The keys after events, the first one first. -/
def after (objects : Finset K) (es : List (StoreEvent K)) : Finset K :=
  es.foldl apply objects

variable {objects : Finset K} {key : K} {e : StoreEvent K} {es fs : List (StoreEvent K)}

@[simp] theorem after_nil : after objects [] = objects := rfl

@[simp] theorem after_cons : after objects (e :: es) = after (e.apply objects) es := rfl

theorem after_append : after objects (es ++ fs) = after (after objects es) fs :=
  List.foldl_append

theorem mem_after_of_no_put (h : ∀ k, put k ∉ es) :
    key ∈ after objects es ↔ key ∈ objects ∧ deleted key ∉ es := by
  induction es generalizing objects with
  | nil => simp
  | cons e es ih =>
      have hes : ∀ k, put k ∉ es := fun k hk => h k (List.mem_cons_of_mem _ hk)
      rw [after_cons, ih hes]
      cases e with
      | deleted k => by_cases hk : key = k <;> simp [apply, hk]
      | put k => exact absurd List.mem_cons_self (h k)
      | other => simp [apply]

theorem mem_after_of_no_deletion (h : ∀ k, deleted k ∉ es) :
    key ∈ after objects es ↔ key ∈ objects ∨ put key ∈ es := by
  induction es generalizing objects with
  | nil => simp
  | cons e es ih =>
      have hes : ∀ k, deleted k ∉ es := fun k hk => h k (List.mem_cons_of_mem _ hk)
      rw [after_cons, ih hes]
      cases e with
      | deleted k => exact absurd List.mem_cons_self (h k)
      | put k => by_cases hk : key = k <;> simp [apply, hk]
      | other => simp [apply]

/-- **Deletions before puts.** -/
theorem mem_after_append (hes : ∀ k, put k ∉ es) (hfs : ∀ k, deleted k ∉ fs) :
    key ∈ after objects (es ++ fs) ↔
      (key ∈ objects ∧ deleted key ∉ es ++ fs) ∨ put key ∈ es ++ fs := by
  rw [after_append, mem_after_of_no_deletion hfs, mem_after_of_no_put hes]
  simp [hes, hfs]

end StoreEvent

end VideoStorage.Foundation
