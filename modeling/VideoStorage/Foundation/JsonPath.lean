import VideoStorage.Foundation.Json

/-!
# Places in a JSON value

A path goes down by member names and indices. Two values have the same structure
when every path finds the same in both: the same leaf, an object or an array.
Doubles count as equal, since a reader of decimals need not be exact.
-/

namespace VideoStorage.Foundation

namespace Json

inductive Step
  | key (k : String)
  | index (i : ℕ)
  deriving DecidableEq, Repr

def child : Json → Step → Option Json
  | .obj ms, .key k => find k ms
  | .arr xs, .index i => xs[i]?
  | _, _ => none

def descend (v : Json) : List Step → Option Json
  | [] => some v
  | s :: p => (child v s).bind fun w => descend w p

/-- What a value is, apart from what is below it. -/
inductive Head
  | null
  | bool (b : Bool)
  | int (n : ℤ)
  | float
  | str (s : String)
  | arr
  | obj
  deriving DecidableEq, Repr

def head : Json → Head
  | .null => .null
  | .bool b => .bool b
  | .num (.int n) => .int n
  | .num (.float _) => .float
  | .str s => .str s
  | .arr _ => .arr
  | .obj _ => .obj

def SameStructure (v w : Json) : Prop :=
  ∀ p, (descend v p).map head = (descend w p).map head

section Paths

variable {v w x : Json} {s : Step} {p q : List Step} {k t : String}

@[simp] theorem descend_nil : descend v [] = some v := rfl

theorem descend_cons : descend v (s :: p) = (child v s).bind fun w => descend w p := rfl

theorem find_eq_none {ms : List (String × Json)} :
    find k ms = none ↔ k ∉ ms.map Prod.fst := by
  induction ms with
  | nil => simp [find]
  | cons m ms ih =>
      obtain ⟨k', x⟩ := m
      rw [List.map_cons, List.mem_cons, not_or, ← ih, find]
      by_cases hk : k = k'
      · simp [hk]
      · simp [hk]

/-- Nothing is below a text. -/
theorem descend_str (h : descend (.str t) p = some x) : p = [] ∧ x = .str t := by
  cases p with
  | nil => exact ⟨rfl, (Option.some.inj h).symm⟩
  | cons s p => cases s <;> cases h

theorem head_eq_str : head v = .str t ↔ v = .str t := by
  cases v with
  | num n => cases n <;> simp [head]
  | str s => simp [head]
  | null => simp [head]
  | bool b => simp [head]
  | arr xs => simp [head]
  | obj ms => simp [head]

theorem SameStructure.symm (h : SameStructure v w) : SameStructure w v :=
  fun p => (h p).symm

/-- A text is found at the same paths. -/
theorem SameStructure.str (h : SameStructure v w) :
    descend v p = some (.str t) ↔ descend w p = some (.str t) := by
  have hp := h p
  constructor
  · intro hv
    rw [hv] at hp
    obtain ⟨x, hx, hhead⟩ := Option.map_eq_some_iff.mp hp.symm
    rw [hx, head_eq_str.mp hhead]
  · intro hw
    rw [hw] at hp
    obtain ⟨x, hx, hhead⟩ := Option.map_eq_some_iff.mp hp
    rw [hx, head_eq_str.mp hhead]

/-- Something is found at the same paths. -/
theorem SameStructure.isSome (h : SameStructure v w) :
    (descend v p).isSome = (descend w p).isSome := by
  have hp := congrArg Option.isSome (h p)
  rwa [Option.isSome_map, Option.isSome_map] at hp

end Paths

end Json

end VideoStorage.Foundation
