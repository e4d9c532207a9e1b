import Mathlib.Algebra.Group.Int.Defs
import Mathlib.Algebra.Group.Nat.Defs
import Mathlib.Data.Int.Basic

/-!
# Signed 64-bit integers

The distance of two of them as an unsigned one, results that leave the range,
remainders, their decimal text and the reading of a text.
-/

namespace VideoStorage.Foundation

/-- The distance, taken on the unsigned bits of the larger less the smaller. -/
def absDiff (a b : Int64) : UInt64 :=
  if a < b then b.toUInt64 - a.toUInt64 else a.toUInt64 - b.toUInt64

theorem toInt_lt {a b : Int64} : a < b ↔ a.toInt < b.toInt := Int64.lt_iff_toInt_lt

/-- Bits of the larger less the smaller are the distance: it fits. -/
theorem toUInt64_sub {a b : Int64} (h : a.toInt ≤ b.toInt) :
    (b.toUInt64 - a.toUInt64).toNat = (b.toInt - a.toInt).toNat := by
  have ha := a.toBitVec.isLt
  have hb := b.toBitVec.isLt
  have hle : a.toBitVec.toInt ≤ b.toBitVec.toInt := h
  have hsub : (b.toUInt64 - a.toUInt64).toNat =
      (2 ^ 64 - a.toBitVec.toNat + b.toBitVec.toNat) % 2 ^ 64 :=
    UInt64.toNat_sub ..
  show _ = (b.toBitVec.toInt - a.toBitVec.toInt).toNat
  rw [hsub]
  rw [BitVec.toInt_eq_toNat_cond, BitVec.toInt_eq_toNat_cond] at hle ⊢
  split_ifs at hle ⊢ <;> omega

/-- **The distance is exact** over the whole range. -/
theorem absDiff_toNat (a b : Int64) :
    (absDiff a b).toNat = (a.toInt - b.toInt).natAbs := by
  unfold absDiff
  split_ifs with h
  · have hlt := toInt_lt.mp h
    rw [toUInt64_sub (by omega)]
    omega
  · have hle : ¬ a.toInt < b.toInt := fun hlt => h (toInt_lt.mpr hlt)
    rw [toUInt64_sub (by omega)]
    omega

/-- The larger of the two, as an unsigned number. -/
theorem toUInt64_max_zero (a : Int64) :
    (max a 0).toUInt64.toNat = (max a.toInt 0).toNat := by
  have hmax : (max a 0 : Int64) = if a ≤ 0 then 0 else a := rfl
  rw [hmax]
  split_ifs with h
  · have hle : a.toInt ≤ 0 := Int64.le_iff_toInt_le.mp h
    have hzero : max a.toInt 0 = 0 := by omega
    rw [hzero]
    rfl
  · have hlt : ¬ a.toInt ≤ 0 := fun hle => h (Int64.le_iff_toInt_le.mpr hle)
    have hpos := toUInt64_sub (a := 0) (b := a) (by show (0 : ℤ) ≤ _; omega)
    have hself : max a.toInt 0 = a.toInt := by omega
    have hzero : a.toUInt64 - (0 : Int64).toUInt64 = a.toUInt64 :=
      UInt64.sub_zero _
    rw [hzero] at hpos
    rw [hself, hpos]
    exact congrArg Int.toNat (Int.sub_zero _)

/-- The wrapping difference is exact where the distance fits. -/
theorem toInt_abs_sub {a b : Int64} (h : (a.toInt - b.toInt).natAbs < 2 ^ 63) :
    (a - b).abs.toInt = (a.toInt - b.toInt).natAbs := by
  have hsub : (a - b).toInt = a.toInt - b.toInt := by
    rw [Int64.toInt_sub]
    exact Int.bmod_eq_of_le (by omega) (by omega)
  have hmin : (a - b).toBitVec ≠ BitVec.intMin 64 := by
    intro heq
    have hlow : (a - b).toInt = -2 ^ 63 := congrArg BitVec.toInt heq
    omega
  show (a - b).toBitVec.abs.toInt = _
  rw [BitVec.toInt_abs_eq_natAbs, if_neg hmin, ← hsub]
  rfl

/-! ## Results out of the range -/

/-- What a build does with a result that does not fit: it panics or it wraps. -/
inductive Overflow
  | checked
  | wrapping
  deriving DecidableEq, Repr

namespace Overflow

variable (mode : Overflow) {n : ℤ} {a b : Int64}

def result (n : ℤ) : Option Int64 :=
  match mode with
  | .checked => if -2 ^ 63 ≤ n ∧ n < 2 ^ 63 then some (.ofInt n) else none
  | .wrapping => some (.ofInt n)

def sub (a b : Int64) : Option Int64 := mode.result (a.toInt - b.toInt)

def abs (a : Int64) : Option Int64 := mode.result a.toInt.natAbs

/-- A result that fits is the same in every build. -/
theorem result_fits (h : -2 ^ 63 ≤ n ∧ n < 2 ^ 63) :
    mode.result n = some (.ofInt n) := by
  cases mode with
  | checked => exact if_pos h
  | wrapping => rfl

theorem result_checked_eq_none : checked.result n = none ↔ ¬ (-2 ^ 63 ≤ n ∧ n < 2 ^ 63) := by
  unfold result
  split_ifs with h
  · exact iff_of_false nofun (not_not.mpr h)
  · exact iff_of_true rfl h

theorem sub_wrapping : wrapping.sub a b = some (a - b) := by
  show some (Int64.ofInt (a.toInt - b.toInt)) = _
  rw [Int64.ofInt_sub, Int64.ofInt_toInt, Int64.ofInt_toInt]

theorem abs_wrapping : wrapping.abs a = some a.abs := by
  have hlow := Int64.le_toInt a
  have hhigh := Int64.toInt_lt a
  have habs : a.abs.toInt = a.toBitVec.abs.toInt := rfl
  have heq : Int64.ofInt a.toInt.natAbs = a.abs := by
    rw [← Int64.toInt_inj, Int64.toInt_ofInt, habs, BitVec.toInt_abs_eq_natAbs]
    split_ifs with hmin
    · -- the least number is its own absolute value
      have hint : a.toInt = -2 ^ 63 := congrArg BitVec.toInt hmin
      rw [hint]
      decide
    · have hne : a.toInt ≠ -2 ^ 63 := by
        intro hint
        exact hmin (BitVec.toInt_inj.mp hint)
      have hsize : Int64.size = 2 ^ 64 := rfl
      exact Int.bmod_eq_of_le (by omega) (by omega)
  exact congrArg some heq

end Overflow

/-! ## Remainders -/

/-- The remainder toward zero, moved up by the divisor and taken again, is the
remainder toward minus infinity. -/
theorem tmod_add_tmod {m : ℤ} (hm : 0 < m) (h : ℤ) :
    (h.tmod m + m).tmod m = h % m := by
  have hlow : -m < h.tmod m := Int.lt_tmod_of_pos h hm
  have hdiv : m * h.tdiv m + h.tmod m = h := Int.mul_tdiv_add_tmod h m
  rw [Int.tmod_eq_emod_of_nonneg (by omega), Int.add_emod_right]
  conv_rhs => rw [← hdiv, Int.mul_add_emod_self_left]

theorem tmod_le_max (h m : ℤ) : h.tmod m ≤ max h 0 := by
  rcases Int.le_total 0 h with hle | hle
  · have hmod := Int.natAbs_tmod h m
    have hnat := Nat.mod_le h.natAbs m.natAbs
    omega
  · have hneg : 0 ≤ (-h).tmod m := Int.tmod_nonneg m (by omega)
    rw [Int.neg_tmod] at hneg
    omega

/-! ## Text -/

def parseDigits (ds : List Char) : Option ℕ :=
  if ds ≠ [] ∧ ds.all Char.isDigit then some (Nat.ofDigitChars 10 ds 0) else none

/-- A sign or none, then digits, within the range. -/
def parseI64 (s : String) : Option Int64 :=
  match s.toList with
  | '-' :: ds => (parseDigits ds).bind fun n =>
      if n ≤ 2 ^ 63 then some (.ofInt (-n)) else none
  | '+' :: ds => (parseDigits ds).bind fun n =>
      if n < 2 ^ 63 then some (.ofInt n) else none
  | ds => (parseDigits ds).bind fun n =>
      if n < 2 ^ 63 then some (.ofInt n) else none

/-- Decimal digits, after a minus if it is negative. -/
def intText (n : ℤ) : List Char :=
  if n < 0 then '-' :: Nat.toDigits 10 n.natAbs else Nat.toDigits 10 n.natAbs

def decimal (a : Int64) : String := String.ofList (intText a.toInt)

theorem digits_injective {m n : ℕ} (h : Nat.toDigits 10 m = Nat.toDigits 10 n) :
    m = n := by
  have := congrArg (fun ds => Nat.ofDigitChars 10 ds 0) h
  simpa using this

theorem not_mem_digits {c : Char} (hc : ¬ c.isDigit) (n : ℕ) :
    c ∉ Nat.toDigits 10 n :=
  fun hmem => hc (Nat.isDigit_of_mem_toDigits (by decide) (by decide) hmem)

theorem intText_injective {m n : ℤ} (h : intText m = intText n) : m = n := by
  unfold intText at h
  split_ifs at h with hm hn hn
  · have := digits_injective (List.cons.inj h).2
    omega
  · -- a minus is no digit
    exact absurd (h ▸ List.mem_cons_self) (not_mem_digits (by decide) _)
  · exact absurd (h ▸ List.mem_cons_self) (not_mem_digits (by decide) _)
  · have := digits_injective h
    omega

theorem not_mem_intText {c : Char} (hc : ¬ c.isDigit) (hminus : c ≠ '-')
    (n : ℤ) : c ∉ intText n := by
  unfold intText
  split_ifs
  · exact List.not_mem_cons_of_ne_of_not_mem hminus (not_mem_digits hc _)
  · exact not_mem_digits hc _

theorem decimal_toList (a : Int64) : (decimal a).toList = intText a.toInt :=
  String.toList_ofList

/-- The decimal text of a number. -/
def decimalText (n : ℕ) : String := String.ofList (Nat.toDigits 10 n)

/-- The text of a number in range is read back. -/
theorem parseI64_decimalText {n : ℕ} (h : n < 2 ^ 63) :
    parseI64 (decimalText n) = some (.ofInt n) := by
  have hdigits : parseDigits (Nat.toDigits 10 n) = some n := by
    unfold parseDigits
    rw [if_pos ⟨Nat.toDigits_ne_nil, List.all_eq_true.mpr fun c hc =>
      Nat.isDigit_of_mem_toDigits (by decide) (by decide) hc⟩]
    simp
  unfold parseI64 decimalText
  rw [String.toList_ofList]
  split
  case h_1 ds hds =>
    exact absurd (hds ▸ List.mem_cons_self) (not_mem_digits (by decide) n)
  case h_2 ds hds =>
    exact absurd (hds ▸ List.mem_cons_self) (not_mem_digits (by decide) n)
  case h_3 ds hminus hplus =>
    rw [hdigits]
    exact if_pos h

end VideoStorage.Foundation
