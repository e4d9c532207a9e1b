import Mathlib.Data.List.Basic
import Mathlib.Data.List.Range

/-!
# Pieces of one length

`joined f n` are the pieces `f 0`, …, `f (n - 1)` one after the other. If all have
one length, each is found where it was put, and the whole determines them.
-/

namespace VideoStorage.Foundation

variable {α : Type} {f g : ℕ → List α} {n w i x : ℕ}

def joined (f : ℕ → List α) (n : ℕ) : List α := (List.range n).flatMap f

/-- The first `n` pieces have the length. -/
def Uniform (f : ℕ → List α) (n w : ℕ) : Prop := ∀ i < n, (f i).length = w

theorem joined_succ : joined f (n + 1) = joined f n ++ f n := by
  rw [joined, List.range_succ, List.flatMap_append, List.flatMap_singleton]
  rfl

theorem Uniform.init (h : Uniform f (n + 1) w) : Uniform f n w :=
  fun i hi => h i (Nat.lt_succ_of_lt hi)

theorem length_joined (h : Uniform f n w) : (joined f n).length = n * w := by
  induction n with
  | zero => rw [Nat.zero_mul]; rfl
  | succ n ih =>
      rw [joined_succ, List.length_append, ih h.init, h n (Nat.lt_succ_self n),
        Nat.succ_mul]

/-- Every piece is where it was put. -/
theorem drop_joined (h : Uniform f n w) (hi : i < n) :
    ((joined f n).drop (i * w)).take w = f i := by
  induction n with
  | zero => omega
  | succ n ih =>
      have hlen := length_joined h.init
      rw [joined_succ]
      obtain hlt | rfl := Nat.lt_succ_iff_lt_or_eq.mp hi
      · have hend : (i + 1) * w ≤ n * w := Nat.mul_le_mul_right w hlt
        rw [Nat.succ_mul] at hend
        rw [List.drop_append_of_le_length (by omega),
          List.take_append_of_le_length (by rw [List.length_drop]; omega)]
        exact ih h.init hlt
      · rw [List.drop_left' hlen, List.take_of_length_le (h i hi).le]

theorem getElem?_joined (h : Uniform f n w) (hi : i < n) (hx : x < w) :
    (joined f n)[i * w + x]? = (f i)[x]? := by
  rw [← drop_joined h hi, List.getElem?_take_of_lt hx, List.getElem?_drop]

theorem joined_eq_iff (hf : Uniform f n w) (hg : Uniform g n w) :
    joined f n = joined g n ↔ ∀ i < n, f i = g i := by
  constructor
  · intro h i hi
    rw [← drop_joined hf hi, h, drop_joined hg hi]
  · intro h
    exact List.flatMap_congr fun i hi => h i (List.mem_range.mp hi)

end VideoStorage.Foundation
