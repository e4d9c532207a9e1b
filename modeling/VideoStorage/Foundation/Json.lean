import Mathlib.Data.String.Basic

/-!
# JSON values

Values as a library without insertion order keeps them: an object is a list of
members in increasing key order, so equal objects are equal lists. `Map` carries
that order as a field; its one writing operation is `insert`, which replaces.
Numbers are integers or the bits of a double.
-/

namespace VideoStorage.Foundation

/-- A double, as its bits. -/
structure F64 where
  bits : UInt64
  deriving DecidableEq, Repr

namespace F64

/-- All exponent bits set and a fraction that is not zero. -/
def isNaN (x : F64) : Bool := 0x7FF0000000000000 < x.bits &&& 0x7FFFFFFFFFFFFFFF

def isFinite (x : F64) : Bool :=
  x.bits &&& 0x7FF0000000000000 != 0x7FF0000000000000

def isZero (x : F64) : Bool := x.bits &&& 0x7FFFFFFFFFFFFFFF == 0

/-- Equality of numbers: a NaN equals nothing, the two zeros are equal. -/
def same (x y : F64) : Bool :=
  !x.isNaN && !y.isNaN && (x == y || (x.isZero && y.isZero))

end F64

inductive Number
  | int (n : ℤ)
  | float (x : F64)
  deriving DecidableEq, Repr

def Number.same : Number → Number → Bool
  | .int a, .int b => a == b
  | .float a, .float b => a.same b
  | _, _ => false

inductive Json
  | null
  | bool (b : Bool)
  | num (n : Number)
  | str (s : String)
  | arr (xs : List Json)
  | obj (members : List (String × Json))
  deriving Repr, Inhabited

namespace Json

/-! ## Equality -/

mutual

/-- Equality of trees; `deriving` stops at the nested lists. -/
def decEq : (a b : Json) → Decidable (a = b)
  | .null, .null => isTrue rfl
  | .bool a, .bool b => decidable_of_iff (a = b) (by rw [bool.injEq])
  | .num a, .num b => decidable_of_iff (a = b) (by rw [num.injEq])
  | .str a, .str b => decidable_of_iff (a = b) (by rw [str.injEq])
  | .arr a, .arr b =>
      have := decEqList a b
      decidable_of_iff (a = b) (by rw [arr.injEq])
  | .obj a, .obj b =>
      have := decEqMembers a b
      decidable_of_iff (a = b) (by rw [obj.injEq])
  | .null, .bool _ | .null, .num _ | .null, .str _ | .null, .arr _
  | .null, .obj _ | .bool _, .null | .bool _, .num _ | .bool _, .str _
  | .bool _, .arr _ | .bool _, .obj _ | .num _, .null | .num _, .bool _
  | .num _, .str _ | .num _, .arr _ | .num _, .obj _ | .str _, .null
  | .str _, .bool _ | .str _, .num _ | .str _, .arr _ | .str _, .obj _
  | .arr _, .null | .arr _, .bool _ | .arr _, .num _ | .arr _, .str _
  | .arr _, .obj _ | .obj _, .null | .obj _, .bool _ | .obj _, .num _
  | .obj _, .str _ | .obj _, .arr _ => isFalse (by simp)

def decEqList : (xs ys : List Json) → Decidable (xs = ys)
  | [], [] => isTrue rfl
  | [], _ :: _ | _ :: _, [] => isFalse (by simp)
  | x :: xs, y :: ys =>
      have := decEq x y
      have := decEqList xs ys
      decidable_of_iff (x = y ∧ xs = ys) (by rw [List.cons.injEq])

def decEqMembers : (xs ys : List (String × Json)) → Decidable (xs = ys)
  | [], [] => isTrue rfl
  | [], _ :: _ | _ :: _, [] => isFalse (by simp)
  | (k, x) :: xs, (k', y) :: ys =>
      have := decEq x y
      have := decEqMembers xs ys
      decidable_of_iff (k = k' ∧ x = y ∧ xs = ys)
        (by rw [List.cons.injEq, Prod.mk.injEq, and_assoc])

end

instance : DecidableEq Json := decEq

mutual

/-- Equality of values, where numbers are equal as numbers. -/
def same : Json → Json → Bool
  | .null, .null => true
  | .bool a, .bool b => a == b
  | .num a, .num b => a.same b
  | .str a, .str b => a == b
  | .arr a, .arr b => sameList a b
  | .obj a, .obj b => sameMembers a b
  | _, _ => false

def sameList : List Json → List Json → Bool
  | [], [] => true
  | x :: xs, y :: ys => same x y && sameList xs ys
  | _, _ => false

def sameMembers : List (String × Json) → List (String × Json) → Bool
  | [], [] => true
  | (k, x) :: xs, (k', y) :: ys => k == k' && same x y && sameMembers xs ys
  | _, _ => false

end

end Json

/-! ## Maps -/

namespace Json

/-- The member with this key, if the value is an object that has it. -/
def find (k : String) : List (String × Json) → Option Json
  | [] => none
  | (k', v) :: ms => if k = k' then some v else find k ms

/-- Insert into the increasing list, or replace the value there. -/
def insertMember (k : String) (v : Json) :
    List (String × Json) → List (String × Json)
  | [] => [(k, v)]
  | (k', v') :: ms =>
      if k < k' then (k, v) :: (k', v') :: ms
      else if k = k' then (k, v) :: ms
      else (k', v') :: insertMember k v ms

variable {k k' : String} {v : Json} {ms : List (String × Json)}

theorem find_insertMember_self : find k (insertMember k v ms) = some v := by
  induction ms with
  | nil => simp [insertMember, find]
  | cons m ms ih =>
      obtain ⟨k', v'⟩ := m
      simp only [insertMember]
      split_ifs with hlt heq
      · simp [find]
      · simp [find]
      · simp [find, heq, ih]

theorem find_insertMember_ne (h : k' ≠ k) :
    find k' (insertMember k v ms) = find k' ms := by
  induction ms with
  | nil => simp [insertMember, find, h]
  | cons m ms ih =>
      obtain ⟨k₁, v₁⟩ := m
      simp only [insertMember]
      split_ifs with hlt heq
      · simp [find, h]
      · subst heq
        simp [find, h]
      · simp only [find, ih]

theorem mem_insertMember {m : String × Json} (h : m ∈ insertMember k v ms) :
    m = (k, v) ∨ m ∈ ms := by
  induction ms with
  | nil => exact .inl (List.mem_singleton.mp h)
  | cons m' ms ih =>
      obtain ⟨k₁, v₁⟩ := m'
      simp only [insertMember] at h
      split_ifs at h with hlt heq
      · rcases List.mem_cons.mp h with h | h
        · exact .inl h
        · exact .inr h
      · rcases List.mem_cons.mp h with h | h
        · exact .inl h
        · exact .inr (List.mem_cons_of_mem _ h)
      · rcases List.mem_cons.mp h with rfl | h
        · exact .inr List.mem_cons_self
        · exact (ih h).imp_right (List.mem_cons_of_mem _)

theorem sorted_insertMember (h : ms.Pairwise (·.1 < ·.1)) :
    (insertMember k v ms).Pairwise (·.1 < ·.1) := by
  induction ms with
  | nil => exact List.pairwise_singleton _ _
  | cons m ms ih =>
      obtain ⟨k₁, v₁⟩ := m
      obtain ⟨hm, hms⟩ := List.pairwise_cons.mp h
      simp only [insertMember]
      split_ifs with hlt heq
      · refine List.pairwise_cons.mpr ⟨fun m' hm' => ?_, h⟩
        rcases List.mem_cons.mp hm' with rfl | hm'
        · exact hlt
        · exact hlt.trans (hm m' hm')
      · exact List.pairwise_cons.mpr ⟨heq ▸ hm, hms⟩
      · refine List.pairwise_cons.mpr ⟨fun m' hm' => ?_, ih hms⟩
        rcases mem_insertMember hm' with rfl | hm'
        · exact lt_of_le_of_ne (not_lt.mp hlt) (Ne.symm heq)
        · exact hm m' hm'

/-- An object's members, in key order. -/
structure Map where
  members : List (String × Json)
  sorted : members.Pairwise (·.1 < ·.1)

namespace Map

def empty : Map := ⟨[], .nil⟩

def get (m : Map) (k : String) : Option Json := find k m.members

def insert (m : Map) (k : String) (v : Json) : Map :=
  ⟨insertMember k v m.members, sorted_insertMember m.sorted⟩

def insertAll (m : Map) (kvs : List (String × Json)) : Map :=
  kvs.foldl (fun m kv => m.insert kv.1 kv.2) m

/-- Every member of `n` goes in, over what `m` has under the same key. -/
def extend (m n : Map) : Map := m.insertAll n.members

variable {m n : Map}

@[simp] theorem get_empty : empty.get k = none := rfl

@[simp] theorem get_insert_self : (m.insert k v).get k = some v :=
  find_insertMember_self

@[simp] theorem get_insert_ne (h : k' ≠ k) :
    (m.insert k v).get k' = m.get k' :=
  find_insertMember_ne h

theorem get_insertAll_of_notMem {kvs : List (String × Json)}
    (h : k ∉ kvs.map (·.1)) : (m.insertAll kvs).get k = m.get k := by
  induction kvs generalizing m with
  | nil => rfl
  | cons kv kvs ih =>
      rw [List.map_cons, List.mem_cons, not_or] at h
      exact (ih h.2).trans (get_insert_ne h.1)

/-- Under distinct keys no member of the new ones hides another. -/
theorem get_insertAll {kvs : List (String × Json)}
    (h : (kvs.map (·.1)).Nodup) :
    (m.insertAll kvs).get k = (find k kvs).or (m.get k) := by
  induction kvs generalizing m with
  | nil => rfl
  | cons kv kvs ih =>
      obtain ⟨k₁, v₁⟩ := kv
      obtain ⟨hnot, hnd⟩ := List.nodup_cons.mp h
      simp only [find]
      split_ifs with hk
      · subst hk
        exact (get_insertAll_of_notMem hnot).trans get_insert_self
      · refine (ih hnd).trans ?_
        rw [get_insert_ne hk]

theorem nodup_keys (m : Map) : (m.members.map (·.1)).Nodup :=
  List.pairwise_map.mpr (m.sorted.imp fun h => h.ne)

/-- **The later map wins.** -/
theorem get_extend : (m.extend n).get k = (n.get k).or (m.get k) :=
  get_insertAll n.nodup_keys

end Map

/-! ## Access -/

/-- The object with these members, a later one over an earlier one. -/
def object (kvs : List (String × Json)) : Json :=
  .obj (Map.empty.insertAll kvs).members

def get? : Json → String → Option Json
  | .obj ms, k => find k ms
  | _, _ => none

def asBool : Json → Option Bool
  | .bool b => some b
  | _ => none

def asStr : Json → Option String
  | .str s => some s
  | _ => none

/-- A double that is not finite has no JSON number and becomes `null`. -/
def ofF64 (x : F64) : Json := if x.isFinite then .num (.float x) else .null

def ofInt (n : ℤ) : Json := .num (.int n)

def ofOptStr : Option String → Json
  | some s => .str s
  | none => .null

theorem get?_object {kvs : List (String × Json)}
    (h : (kvs.map (·.1)).Nodup) : (object kvs).get? k = find k kvs := by
  have := Map.get_insertAll (m := Map.empty) (k := k) h
  rwa [Map.get_empty, Option.or_none] at this

end Json

end VideoStorage.Foundation
