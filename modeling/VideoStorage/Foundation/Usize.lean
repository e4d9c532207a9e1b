import Mathlib.Algebra.Group.Nat.Defs
import Mathlib.Data.List.TakeDrop
import VideoStorage.Foundation.Fallible
import VideoStorage.Foundation.Loop

/-!
# Sizes, slices and panics

The sizes of a target, its slices and vectors of bytes and the operations on them.
What leaves its bounds panics, unless it is checked; a vector for which there is no
memory ends the process. A result that is neither a panic nor a loop
without an end is one that the caller gets (`Returns`).
-/

namespace VideoStorage.Foundation

variable {ε α β σ : Type}

/-! ## Stops -/

inductive Stop (ε : Type)
  | error (e : ε)
  | panic
  /-- The process ends: there is no memory. -/
  | abort
  /-- A loop has not ended in the rounds it was given. -/
  | endless
  deriving DecidableEq, Repr

/-- The call comes back with `r`. -/
def Returns (x : Except (Stop ε) α) (r : Except ε α) : Prop :=
  x = r.mapError .error

/-- What stops the caller as well is left to it; an error is not. -/
def caught : Except (Stop ε) α → Except (Stop ε) (Except ε α)
  | .ok a => .ok (.ok a)
  | .error (.error e) => .ok (.error e)
  | .error .panic => .error .panic
  | .error .abort => .error .abort
  | .error .endless => .error .endless

/-- An early return. -/
def failIf (p : Prop) [Decidable p] (e : ε) : Except (Stop ε) Unit :=
  if p then .error (.error e) else .ok ()

theorem failIf_pos {p : Prop} [Decidable p] (h : p) (e : ε) :
    failIf p e = .error (.error e) := if_pos h

theorem failIf_neg {p : Prop} [Decidable p] (h : ¬ p) (e : ε) : failIf p e = .ok () :=
  if_neg h

theorem returns_ok {a : α} {r : Except ε α} :
    Returns (.ok a) r ↔ r = .ok a := by
  cases r with
  | ok b =>
      show Except.ok a = Except.ok b ↔ _
      rw [Except.ok.injEq, Except.ok.injEq, eq_comm]
  | error e => exact ⟨nofun, nofun⟩

theorem returns_error {e : ε} {r : Except ε α} :
    Returns (.error (.error e)) r ↔ r = .error e := by
  cases r with
  | ok b => exact ⟨nofun, nofun⟩
  | error e' =>
      show Except.error (Stop.error e) = Except.error (Stop.error e') ↔ _
      rw [Except.error.injEq, Except.error.injEq, Stop.error.injEq, eq_comm]

theorem not_returns_panic {r : Except ε α} : ¬ Returns (.error .panic) r := by
  cases r with
  | ok a => exact nofun
  | error e => exact nofun

theorem not_returns_abort {r : Except ε α} : ¬ Returns (.error .abort) r := by
  cases r with
  | ok a => exact nofun
  | error e => exact nofun

theorem Returns.caught {x : Except (Stop ε) α} {r : Except ε α} (h : Returns x r) :
    caught x = .ok r := by
  obtain rfl := h
  cases r with
  | ok a => rfl
  | error e => rfl

theorem caught_eq_ok {x : Except (Stop ε) α} {a : α} :
    caught x = .ok (.ok a) ↔ x = .ok a := by
  unfold Foundation.caught
  split <;> simp

/-! ## Sizes -/

/-- A target with sizes of 32 bits at least. -/
structure Target where
  isizeMax : ℕ
  holdsU32 : 2 ^ 31 ≤ isizeMax + 1

namespace Target

variable (t : Target) {m n : ℕ}

def usizeMax : ℕ := 2 * t.isizeMax + 1

abbrev Usize : Type := {n : ℕ // n ≤ t.usizeMax}

def bits64 : Target := ⟨2 ^ 63 - 1, by decide⟩

def add (m n : ℕ) : Except (Stop ε) ℕ :=
  if m + n ≤ t.usizeMax then .ok (m + n) else .error .panic

def checkedAdd (m n : ℕ) : Option ℕ :=
  if m + n ≤ t.usizeMax then some (m + n) else none

def checkedMul (m n : ℕ) : Option ℕ :=
  if m * n ≤ t.usizeMax then some (m * n) else none

/-- `usize::try_from` -/
def tryFrom (n : ℕ) : Option ℕ :=
  if n ≤ t.usizeMax then some n else none

theorem add_of_le (h : m + n ≤ t.usizeMax) :
    (t.add m n : Except (Stop ε) ℕ) = .ok (m + n) := if_pos h

theorem checkedAdd_of_le (h : m + n ≤ t.usizeMax) :
    t.checkedAdd m n = some (m + n) := if_pos h

theorem checkedMul_of_le (h : m * n ≤ t.usizeMax) :
    t.checkedMul m n = some (m * n) := if_pos h

theorem checkedAdd_of_lt (h : t.usizeMax < m + n) : t.checkedAdd m n = none :=
  if_neg (Nat.not_le.mpr h)

theorem checkedMul_of_lt (h : t.usizeMax < m * n) : t.checkedMul m n = none :=
  if_neg (Nat.not_le.mpr h)

theorem tryFrom_of_le (h : n ≤ t.usizeMax) : t.tryFrom n = some n := if_pos h

theorem tryFrom_of_lt (h : t.usizeMax < n) : t.tryFrom n = none :=
  if_neg (Nat.not_le.mpr h)

end Target

/-- A difference that has to be a size. -/
def sub (m n : ℕ) : Except (Stop ε) ℕ :=
  if n ≤ m then .ok (m - n) else .error .panic

theorem sub_of_le {m n : ℕ} (h : n ≤ m) :
    (sub m n : Except (Stop ε) ℕ) = .ok (m - n) := if_pos h

/-! ## Slices -/

/-- No slice is longer than `isize::MAX`. -/
structure Slice (t : Target) where
  bytes : List UInt8
  fits : bytes.length ≤ t.isizeMax

namespace Slice

variable {t : Target} {s : Slice t} {lo hi n : ℕ} {bytes : List UInt8}

def len (s : Slice t) : ℕ := s.bytes.length

/-- `s[lo..hi]` -/
def range (s : Slice t) (lo hi : ℕ) : Except (Stop ε) (List UInt8) :=
  if lo ≤ hi ∧ hi ≤ s.len then .ok ((s.bytes.take hi).drop lo) else .error .panic

theorem len_le (s : Slice t) : s.len ≤ t.isizeMax := s.fits

theorem range_of_le (hlo : lo ≤ hi) (hhi : hi ≤ s.len) :
    (s.range lo hi : Except (Stop ε) (List UInt8)) =
      .ok ((s.bytes.drop lo).take (hi - lo)) := by
  rw [range, if_pos ⟨hlo, hhi⟩, List.drop_take]

/-- What the slice goes on with at `lo`. -/
theorem range_of_drop {mid post : List UInt8} (h : s.bytes.drop lo = mid ++ post)
    (hmid : mid.length = n) (hlo : lo ≤ s.len) :
    (s.range lo (lo + n) : Except (Stop ε) (List UInt8)) = .ok mid := by
  have hlen := congrArg List.length h
  rw [List.length_drop, List.length_append] at hlen
  rw [range_of_le (Nat.le_add_right _ _) (by unfold len at *; omega), h,
    Nat.add_sub_cancel_left, List.take_left' hmid]

end Slice

/-! ## Vectors -/

/-- The memory that a call finds. No vector of more than `isize::MAX` bytes is
granted, and the empty one needs none. -/
structure Allocator (t : Target) where
  grants : ℕ → Bool
  bounded : ∀ n, grants n = true → n ≤ t.isizeMax
  empty : grants 0 = true

/-- All that a vector may be. -/
def Allocator.plenty (t : Target) : Allocator t where
  grants n := decide (n ≤ t.isizeMax)
  bounded _ h := of_decide_eq_true h
  empty := decide_eq_true (Nat.zero_le _)

/-- `Vec<u8>` -/
structure ByteVec (t : Target) where
  bytes : List UInt8
  capacity : ℕ
  room : bytes.length ≤ capacity
  fits : capacity ≤ t.isizeMax

namespace ByteVec

variable {t : Target} (alloc : Allocator t) {v : ByteVec t} {n : ℕ}
  {bytes : List UInt8}

def len (v : ByteVec t) : ℕ := v.bytes.length

/-- `Vec::with_capacity` -/
def withCapacity (n : ℕ) : Except (Stop ε) (ByteVec t) :=
  if h : n ≤ t.isizeMax then
    if alloc.grants n then .ok ⟨[], n, Nat.zero_le n, h⟩ else .error .abort
  else .error .panic

/-- What a vector grows to when it needs more than it has. -/
def grown (v : ByteVec t) (needed : ℕ) : ℕ := max 8 (max (2 * v.capacity) needed)

theorem le_grown (v : ByteVec t) (needed : ℕ) : needed ≤ v.grown needed :=
  Nat.le_trans (Nat.le_max_right _ _) (Nat.le_max_right _ _)

/-- `Vec::extend_from_slice` -/
def extend (v : ByteVec t) (bytes : List UInt8) : Except (Stop ε) (ByteVec t) :=
  if h : (v.bytes ++ bytes).length ≤ v.capacity then
    .ok ⟨v.bytes ++ bytes, v.capacity, h, v.fits⟩
  else if h : v.grown (v.bytes ++ bytes).length ≤ t.isizeMax then
    if alloc.grants (v.grown (v.bytes ++ bytes).length) then
      .ok ⟨v.bytes ++ bytes, _, v.le_grown _, h⟩
    else .error .abort
  else .error .panic

variable {alloc}

theorem withCapacity_granted (h : alloc.grants n = true) :
    (withCapacity alloc n : Except (Stop ε) (ByteVec t)) =
      .ok ⟨[], n, Nat.zero_le n, alloc.bounded n h⟩ := by
  rw [withCapacity, dif_pos (alloc.bounded n h), if_pos h]

/-- Without memory the call does not come back. -/
theorem withCapacity_refused (h : ¬ alloc.grants n = true) :
    (withCapacity alloc n : Except (Stop ε) (ByteVec t)) = .error .panic ∨
      (withCapacity alloc n : Except (Stop ε) (ByteVec t)) = .error .abort := by
  unfold withCapacity
  by_cases hn : n ≤ t.isizeMax
  · rw [dif_pos hn, if_neg h]
    exact .inr rfl
  · rw [dif_neg hn]
    exact .inl rfl

/-- What fits into the capacity needs no memory. -/
theorem extend_of_le (h : (v.bytes ++ bytes).length ≤ v.capacity) :
    (v.extend alloc bytes : Except (Stop ε) (ByteVec t)) =
      .ok ⟨v.bytes ++ bytes, v.capacity, h, v.fits⟩ :=
  dif_pos h

end ByteVec

/-! ## Loops -/

/-- A loop whose rounds may fail. -/
def loop (round : σ → Except (Stop ε) (σ ⊕ α)) (rounds : ℕ) (s : σ) :
    Except (Stop ε) α :=
  (iterate (fun s => match round s with
    | .ok (.inl s') => .inl s'
    | .ok (.inr a) => .inr (.ok a)
    | .error f => .inr (.error f)) rounds s).getD (.error .endless)

/-- **Loop rule**, with a measure that every round lowers. -/
theorem loop_post {round : σ → Except (Stop ε) (σ ⊕ α)} (Inv : σ → Prop)
    (Post : Except (Stop ε) α → Prop) (measure : σ → ℕ) {rounds : ℕ} {s : σ}
    (hnext : ∀ s s', Inv s → round s = .ok (.inl s') → Inv s' ∧ measure s' < measure s)
    (hstop : ∀ s a, Inv s → round s = .ok (.inr a) → Post (.ok a))
    (hfail : ∀ s f, Inv s → round s = .error f → Post (.error f))
    (hs : Inv s) (hrounds : measure s < rounds) : Post (loop round rounds s) := by
  unfold loop
  generalize hstep : (fun s => match round s with
    | .ok (.inl s') => Sum.inl s'
    | .ok (.inr a) => .inr (Except.ok a)
    | .error f => .inr (.error f)) = step
  have hround : ∀ s, step s = match round s with
      | .ok (.inl s') => .inl s'
      | .ok (.inr a) => .inr (.ok a)
      | .error f => .inr (.error f) := fun s => hstep ▸ rfl
  have hinl : ∀ s s', step s = .inl s' → round s = .ok (.inl s') := by
    intro s s' h
    rw [hround] at h
    split at h
    · rename_i hok
      rw [hok, Sum.inl.inj h]
    · cases h
    · cases h
  obtain ⟨r, hr⟩ := iterate_total step Inv measure
    (fun s s' hs h => hnext s s' hs (hinl s s' h)) hs
  rw [iterate_mono hr hrounds, Option.getD_some]
  refine iterate_post Inv Post (fun s s' hs h => (hnext s s' hs (hinl s s' h)).1) ?_ hs hr
  intro s r hs h
  rw [hround] at h
  split at h
  · cases h
  · rename_i a hok
    exact Sum.inr.inj h ▸ hstop s a hs hok
  · rename_i f herr
    exact Sum.inr.inj h ▸ hfail s f hs herr

end VideoStorage.Foundation
