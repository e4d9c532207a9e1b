import Mathlib.Data.Nat.Basic
import Mathlib.Tactic.Ring

/-!
# Numbers in bytes, the most significant first

`bigEndian w n` are the `w` bytes of `n`, `ofBigEndian` reads them. Each is the
other's inverse: on the numbers that fit, and on all bytes.
-/

namespace VideoStorage.Foundation

def bigEndian : ℕ → ℕ → List UInt8
  | 0, _ => []
  | w + 1, n => UInt8.ofNat (n / 256 ^ w) :: bigEndian w (n % 256 ^ w)

def ofBigEndian : List UInt8 → ℕ
  | [] => 0
  | b :: bs => b.toNat * 256 ^ bs.length + ofBigEndian bs

@[simp] theorem length_bigEndian (w n : ℕ) : (bigEndian w n).length = w := by
  induction w generalizing n with
  | zero => rfl
  | succ w ih => rw [bigEndian, List.length_cons, ih]

theorem ofBigEndian_lt (bs : List UInt8) : ofBigEndian bs < 256 ^ bs.length := by
  induction bs with
  | nil => decide
  | cons b bs ih =>
      have hb : b.toNat + 1 ≤ 256 := b.toNat_lt
      calc b.toNat * 256 ^ bs.length + ofBigEndian bs
          < b.toNat * 256 ^ bs.length + 256 ^ bs.length := by omega
        _ = (b.toNat + 1) * 256 ^ bs.length := by ring
        _ ≤ 256 * 256 ^ bs.length := Nat.mul_le_mul_right _ hb
        _ = 256 ^ (b :: bs).length := by rw [List.length_cons, pow_succ']

theorem ofBigEndian_bigEndian {w n : ℕ} (h : n < 256 ^ w) :
    ofBigEndian (bigEndian w n) = n := by
  induction w generalizing n with
  | zero => rw [bigEndian, ofBigEndian]; omega
  | succ w ih =>
      have hpos : 0 < 256 ^ w := Nat.pow_pos (by decide)
      have hdigit : n / 256 ^ w < 256 := by
        rw [Nat.div_lt_iff_lt_mul hpos, ← pow_succ']
        exact h
      rw [bigEndian, ofBigEndian, length_bigEndian, ih (Nat.mod_lt _ hpos),
        UInt8.toNat_ofNat_of_lt' hdigit]
      exact Nat.div_add_mod' n (256 ^ w)

theorem bigEndian_ofBigEndian (bs : List UInt8) :
    bigEndian bs.length (ofBigEndian bs) = bs := by
  induction bs with
  | nil => rfl
  | cons b bs ih =>
      have hpos : 0 < 256 ^ bs.length := Nat.pow_pos (by decide)
      have hrest := ofBigEndian_lt bs
      have hdiv : (b.toNat * 256 ^ bs.length + ofBigEndian bs) / 256 ^ bs.length =
          b.toNat := by
        rw [Nat.add_comm, Nat.add_mul_div_right _ _ hpos, Nat.div_eq_of_lt hrest,
          Nat.zero_add]
      have hmod : (b.toNat * 256 ^ bs.length + ofBigEndian bs) % 256 ^ bs.length =
          ofBigEndian bs := by
        rw [Nat.add_comm, Nat.add_mul_mod_self_right, Nat.mod_eq_of_lt hrest]
      rw [List.length_cons, bigEndian, ofBigEndian, hdiv, hmod, ih, UInt8.ofNat_toNat]

end VideoStorage.Foundation
