import VideoStorage.Foundation.Text

/-!
# Hexadecimal digits and percent-decoding

A `%` with two hexadecimal digits after it stands for a byte; every other byte
stands for itself. A text is its own decoding exactly when it has no such escape.
-/

namespace VideoStorage.Foundation

/-! ## Hexadecimal -/

/-- The digit of a number below sixteen, in lower case. -/
def hexDigit (n : UInt8) : UInt8 := if n < 10 then 0x30 + n else 0x57 + n

def hexDigitValue (b : UInt8) : Option UInt8 :=
  if 0x30 ≤ b ∧ b ≤ 0x39 then some (b - 0x30)
  else if 0x41 ≤ b ∧ b ≤ 0x46 then some (b - 0x37)
  else if 0x61 ≤ b ∧ b ≤ 0x66 then some (b - 0x57)
  else none

def hexBytes (bs : List UInt8) : List UInt8 :=
  bs.flatMap fun b => [hexDigit (b / 16), hexDigit (b % 16)]

/-- Two digits a byte, in either case. -/
def unhexBytes : List UInt8 → Option (List UInt8)
  | [] => some []
  | [_] => none
  | h :: l :: rest =>
      match hexDigitValue h, hexDigitValue l with
      | some h, some l => (unhexBytes rest).map ((h * 16 + l) :: ·)
      | _, _ => none

theorem hexDigitValue_hexDigit {n : UInt8} (h : n < 16) :
    hexDigitValue (hexDigit n) = some n := by
  have hall : ∀ i < 16, hexDigitValue (hexDigit (UInt8.ofNat i)) =
      some (UInt8.ofNat i) := by decide
  rw [← @UInt8.ofNat_toNat n]
  exact hall n.toNat h

theorem nibbles (b : UInt8) : b / 16 < 16 ∧ b % 16 < 16 ∧ b / 16 * 16 + b % 16 = b := by
  have hb := b.toNat_lt
  refine ⟨?_, ?_, ?_⟩
  · rw [UInt8.lt_iff_toNat_lt, UInt8.toNat_div]
    show b.toNat / 16 < 16
    omega
  · rw [UInt8.lt_iff_toNat_lt, UInt8.toNat_mod]
    show b.toNat % 16 < 16
    omega
  · rw [← UInt8.toNat_inj, UInt8.toNat_add, UInt8.toNat_mul, UInt8.toNat_div,
      UInt8.toNat_mod]
    show (b.toNat / 16 * 16 % 256 + b.toNat % 16) % 256 = b.toNat
    omega

theorem unhexBytes_hexBytes (bs : List UInt8) : unhexBytes (hexBytes bs) = some bs := by
  induction bs with
  | nil => rfl
  | cons b bs ih =>
      obtain ⟨hhigh, hlow, hb⟩ := nibbles b
      show unhexBytes (hexDigit (b / 16) :: hexDigit (b % 16) :: hexBytes bs) = _
      rw [unhexBytes, hexDigitValue_hexDigit hhigh, hexDigitValue_hexDigit hlow, ih]
      show some ((b / 16 * 16 + b % 16) :: bs) = _
      rw [hb]

/-! ## Escapes -/

def percent : UInt8 := 0x25

/-- The byte that an escape at the head stands for. -/
def escapedByte : List UInt8 → Option UInt8
  | b :: h :: l :: _ =>
      if b = percent then
        (hexDigitValue h).bind fun h => (hexDigitValue l).map fun l => h * 16 + l
      else none
  | _ => none

def percentDecode : List UInt8 → List UInt8
  | [] => []
  | b :: rest =>
      match escapedByte (b :: rest) with
      | none => b :: percentDecode rest
      | some v =>
          match rest with
          | _ :: _ :: tail => v :: percentDecode tail
          | short => b :: short

/-- Some `%` is followed by two hexadecimal digits. -/
def HasEscape (bs : List UInt8) : Prop :=
  ∃ tail, tail <:+ bs ∧ (escapedByte tail).isSome = true

theorem length_percentDecode_le (bs : List UInt8) :
    (percentDecode bs).length ≤ bs.length := by
  fun_induction percentDecode bs with
  | case1 => exact Nat.le_refl _
  | case2 b rest hnone ih => exact Nat.succ_le_succ ih
  | case3 b v h l tail hescape ih =>
      simp only [List.length_cons]
      omega
  | case4 b v short hshort hescape => exact Nat.le_refl _

theorem escapedByte_short {b v : UInt8} {rest : List UInt8}
    (h : escapedByte (b :: rest) = some v) : ∃ c d tail, rest = c :: d :: tail := by
  rcases rest with _ | ⟨c, _ | ⟨d, tail⟩⟩
  · cases h
  · cases h
  · exact ⟨c, d, tail, rfl⟩

theorem hasEscape_cons {b : UInt8} {rest : List UInt8} :
    HasEscape (b :: rest) ↔
      (escapedByte (b :: rest)).isSome = true ∨ HasEscape rest := by
  constructor
  · rintro ⟨tail, htail, hescape⟩
    rcases List.suffix_cons_iff.mp htail with rfl | htail
    · exact .inl hescape
    · exact .inr ⟨tail, htail, hescape⟩
  · rintro (hescape | ⟨tail, htail, hescape⟩)
    · exact ⟨_, List.suffix_refl _, hescape⟩
    · exact ⟨tail, htail.trans (List.suffix_cons b rest), hescape⟩

/-- **A text is its own decoding when it has no escape**, and only then. -/
theorem percentDecode_eq_self {bs : List UInt8} :
    percentDecode bs = bs ↔ ¬ HasEscape bs := by
  fun_induction percentDecode bs with
  | case1 =>
      refine iff_of_true rfl ?_
      rintro ⟨tail, htail, hescape⟩
      rw [List.suffix_nil.mp htail] at hescape
      cases hescape
  | case2 b rest hnone ih =>
      rw [hasEscape_cons, hnone, List.cons_inj_right, ih]
      simp
  | case3 b v h l tail hescape ih =>
      -- three bytes became one
      refine iff_of_false ?_ ?_
      · intro heq
        have hlength := congrArg List.length heq
        have hle := length_percentDecode_le tail
        simp only [List.length_cons] at hlength
        omega
      · rw [not_not, hasEscape_cons, hescape]
        exact .inl rfl
  | case4 b v short hshort hescape =>
      obtain ⟨c, d, tail, rfl⟩ := escapedByte_short hescape
      exact absurd rfl (hshort c d tail)

end VideoStorage.Foundation
