import Mathlib.Algebra.Group.Int.Defs
import Mathlib.Algebra.Group.Nat.Defs
import Mathlib.Data.Int.Order.Basic
import VideoStorage.Foundation.Transaction

/-!
# SQL values

What the statements of a database raise, and the operators and clauses that
raise it: counts in 32 bits, intervals in 64 bits of microseconds, `LIMIT`.
-/

namespace VideoStorage.Foundation

inductive SqlError
  | intervalOutOfRange
  | integerOutOfRange
  | bigintOutOfRange
  | negativeLimit
  | statement (fault : Fault)
  deriving DecidableEq, Repr

/-- `interval * power(2, n)`. Such a product is exact in a double; past the
range of a 64-bit count it is an error, as is the power itself from 2^1024 on. -/
def intervalTimesPower (span : ℤ) (n : ℕ) : Except SqlError ℤ :=
  if span * 2 ^ n < 2 ^ 63 then .ok (span * 2 ^ n)
  else .error .intervalOutOfRange

/-- `integer + 1`. -/
def succInt4 (n : ℕ) : Except SqlError ℕ :=
  if n + 1 < 2 ^ 31 then .ok (n + 1) else .error .integerOutOfRange

/-- The number of rows a `LIMIT` lets through, if there is one. -/
def limitOf : Option ℤ → Except SqlError (Option ℕ)
  | none => .ok none
  | some n => if 0 ≤ n then .ok (some n.toNat) else .error .negativeLimit

theorem limitOf_of_le {n : ℕ} {limit : ℤ} (h : n ≤ limit) :
    limitOf (some limit) = .ok (some limit.toNat) :=
  if_pos (by omega)

theorem limitOf_zero {limit : Option ℤ} {n : Option ℕ}
    (h : limitOf limit = .ok n) : n = some 0 ↔ limit = some 0 := by
  unfold limitOf at h
  cases limit with
  | none =>
      cases h
      simp
  | some i =>
      dsimp only at h
      split_ifs at h with hi
      obtain rfl := Except.ok.inj h
      rw [Option.some.injEq, Option.some.injEq]
      omega

end VideoStorage.Foundation
