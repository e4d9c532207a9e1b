import Mathlib.Data.List.DropRight

/-!
# Text

Trimming by the Unicode property `White_Space`, prefixes, and the bytes of a
text.
-/

namespace VideoStorage.Foundation

/-- The characters with the property `White_Space`. -/
def isWhiteSpace (c : Char) : Bool :=
  let n := c.toNat
  (0x09 ≤ n && n ≤ 0x0D) || n == 0x20 || n == 0x85 || n == 0xA0 ||
    n == 0x1680 || (0x2000 ≤ n && n ≤ 0x200A) || n == 0x2028 || n == 0x2029 ||
    n == 0x202F || n == 0x205F || n == 0x3000

def trim (s : String) : String :=
  String.ofList ((s.toList.dropWhile isWhiteSpace).rdropWhile isWhiteSpace)

/-- Without the slashes at its end. -/
def trimSlashes (s : String) : String :=
  String.ofList (s.toList.rdropWhile (· == '/'))

/-- Nothing is left where all of it is trimmed off. -/
theorem rdropWhile_dropWhile_eq_nil {α : Type} {p : α → Bool} {l : List α} :
    (l.dropWhile p).rdropWhile p = [] ↔ ∀ a ∈ l, p a := by
  rw [List.rdropWhile_eq_nil_iff]
  constructor
  · intro h
    rw [← List.dropWhile_eq_nil_iff]
    cases hd : l.dropWhile p with
    | nil => rfl
    | cons c cs =>
        -- the first element kept would not satisfy the predicate
        have hc : ¬ p c := by
          have := List.head_dropWhile_not p (l := l) (by simp [hd])
          simpa [hd] using this
        exact absurd (h c (by simp [hd])) hc
  · intro h c hc
    exact h c ((List.dropWhile_sublist p).subset hc)

/-- Nothing is left of a text of white space alone. -/
theorem trim_eq_empty {s : String} :
    trim s = "" ↔ ∀ c ∈ s.toList, isWhiteSpace c := by
  rw [← rdropWhile_dropWhile_eq_nil, ← String.toList_inj]
  simp [trim]

section Trim

variable {α : Type} {p : α → Bool} {l r : List α} {a : α}

/-- What does not satisfy the predicate stops the trimming from either side. -/
theorem dropWhile_append_cons (ha : p a = false) :
    (l ++ a :: r).dropWhile p = l.dropWhile p ++ a :: r := by
  rw [List.dropWhile_append, List.dropWhile_cons_of_neg (by simp [ha])]
  cases l.dropWhile p <;> rfl

theorem rdropWhile_append_cons (ha : p a = false) :
    (l ++ a :: r).rdropWhile p = l ++ a :: r.rdropWhile p := by
  unfold List.rdropWhile
  rw [List.reverse_append, List.reverse_cons, List.append_assoc, List.singleton_append,
    dropWhile_append_cons ha]
  simp

theorem rdropWhile_append_of_pos (hr : ∀ a ∈ r, p a = true) :
    (l ++ r).rdropWhile p = l.rdropWhile p := by
  unfold List.rdropWhile
  rw [List.reverse_append, List.dropWhile_append_of_pos]
  intro a ha
  exact hr a (List.mem_reverse.mp ha)

/-- Either side may be trimmed first. -/
theorem rdropWhile_dropWhile_comm :
    (l.dropWhile p).rdropWhile p = (l.rdropWhile p).dropWhile p := by
  by_cases hall : ∀ a ∈ l, p a = true
  · rw [rdropWhile_dropWhile_eq_nil.mpr hall, List.rdropWhile_eq_nil_iff.mpr hall]
    rfl
  · push Not at hall
    obtain ⟨a, ha, hpa⟩ := hall
    obtain ⟨l₁, l₂, rfl⟩ := List.append_of_mem ha
    have hpa := eq_false_of_ne_true hpa
    rw [dropWhile_append_cons hpa, rdropWhile_append_cons hpa, rdropWhile_append_cons hpa,
      dropWhile_append_cons hpa]

end Trim

/-- White space alone, or nothing. -/
def Blank (s : String) : Prop := ∀ c ∈ s.toList, isWhiteSpace c = true

theorem Blank.not_mem {b : String} {c : Char} (hb : Blank b) (hc : isWhiteSpace c = false) :
    c ∉ b.toList := by
  intro hmem
  rw [hb c hmem] at hc
  cases hc

theorem trim_between {b s b' : String} (hb : Blank b) (hb' : Blank b') :
    trim (b ++ s ++ b') = trim s := by
  unfold trim
  rw [String.toList_append, String.toList_append, List.append_assoc,
    List.dropWhile_append_of_pos hb, rdropWhile_dropWhile_comm, rdropWhile_append_of_pos hb',
    ← rdropWhile_dropWhile_comm]

/-- Around a character that stays, each side is trimmed by itself. -/
theorem trim_append_cons {s l r : String} {c : Char} (hc : isWhiteSpace c = false)
    (h : s.toList = l.toList ++ c :: r.toList) : ∃ l' r', trim l' = trim l ∧
      trim r' = trim r ∧ l'.toList ⊆ l.toList ∧
      (trim s).toList = l'.toList ++ c :: r'.toList := by
  refine ⟨String.ofList (l.toList.dropWhile isWhiteSpace),
    String.ofList (r.toList.rdropWhile isWhiteSpace), ?_, ?_, ?_, ?_⟩
  · simp only [trim, String.toList_ofList, List.dropWhile_idempotent]
  · simp only [trim, String.toList_ofList]
    rw [rdropWhile_dropWhile_comm, List.rdropWhile_idempotent, ← rdropWhile_dropWhile_comm]
  · rw [String.toList_ofList]
    exact (List.dropWhile_sublist _).subset
  · simp only [trim, String.toList_ofList, h]
    rw [dropWhile_append_cons hc, rdropWhile_append_cons hc]

/-! ## Splitting -/

/-- No part of a split has what was split at. -/
theorem not_mem_of_mem_splitOn {α : Type} [BEq α] [LawfulBEq α] {a : α} {l part : List α}
    (h : part ∈ l.splitOn a) : a ∉ part := by
  induction hn : l.length using Nat.strong_induction_on generalizing l with
  | _ n ih =>
      subst hn
      by_cases ha : a ∈ l
      · obtain ⟨l₁, l₂, rfl, hl₁⟩ := List.eq_append_cons_of_mem ha
        rw [List.splitOn_append_cons_self_of_not_mem hl₁] at h
        rcases List.mem_cons.mp h with rfl | h
        · exact hl₁
        · refine ih l₂.length ?_ h rfl
          rw [List.length_append, List.length_cons]
          omega
      · rw [List.splitOn_eq_singleton ha] at h
        rwa [List.mem_singleton.mp h]

/-- `split_once`, at a character. -/
def splitOnceAt (c : Char) (s : String) : Option (String × String) :=
  match s.toList.dropWhile (· ≠ c) with
  | [] => none
  | _ :: rest => some (String.ofList (s.toList.takeWhile (· ≠ c)), String.ofList rest)

theorem splitOnceAt_eq_some {c : Char} {s l r : String} :
    splitOnceAt c s = some (l, r) ↔
      s.toList = l.toList ++ c :: r.toList ∧ c ∉ l.toList := by
  have hsplit := List.takeWhile_append_dropWhile (p := (· ≠ c)) (l := s.toList)
  unfold splitOnceAt
  constructor
  · intro h
    split at h
    · cases h
    · rename_i d rest hdrop
      have hne : s.toList.dropWhile (· ≠ c) ≠ [] := by
        rw [hdrop]
        exact List.cons_ne_nil _ _
      have hhead := List.head_dropWhile_not (· ≠ c) (l := s.toList) hne
      simp only [hdrop, List.head_cons] at hhead
      obtain rfl : d = c := by simpa using hhead
      cases h
      rw [String.toList_ofList, String.toList_ofList, ← hdrop]
      refine ⟨hsplit.symm, fun hmem => ?_⟩
      simpa using List.mem_takeWhile_imp hmem
  · rintro ⟨h, hnot⟩
    have hne : ∀ d ∈ l.toList, (decide (d ≠ c)) = true := by
      intro d hd
      rw [decide_eq_true_eq]
      rintro rfl
      exact hnot hd
    have hdrop : s.toList.dropWhile (· ≠ c) = c :: r.toList := by
      rw [h, List.dropWhile_append_of_pos hne, List.dropWhile_cons_of_neg (by simp)]
    have htake : s.toList.takeWhile (· ≠ c) = l.toList := by
      rw [h, List.takeWhile_append_of_pos hne, List.takeWhile_cons_of_neg (by simp),
        List.append_nil]
    rw [hdrop]
    dsimp only
    rw [htake, String.ofList_toList, String.ofList_toList]

/-- A text ends as its last part does. -/
theorem getLast?_toList_append {s t : String} {c : Char}
    (h : t.toList.getLast? = some c) : (s ++ t).toList.getLast? = some c := by
  rw [String.toList_append, List.getLast?_append, h]
  rfl

/-- A number is known from its digits. -/
theorem toString_nat_injective {m n : ℕ} (h : toString m = toString n) : m = n := by
  have hdigits : Nat.toDigits 10 m = Nat.toDigits 10 n := by
    rw [← Nat.toList_repr, ← Nat.toList_repr]
    exact congrArg String.toList h
  rw [← Nat.ofDigitChars_ten_toDigits (n := m), hdigits, Nat.ofDigitChars_ten_toDigits]

/-! ## Prefixes -/

/-- What follows the prefix in a text that has it. -/
def stripPrefix (p s : String) : Option String :=
  (s.toList.dropPrefix? p.toList).map String.ofList

theorem stripPrefix_eq_some {p s rest : String} :
    stripPrefix p s = some rest ↔ s = p ++ rest := by
  unfold stripPrefix
  rw [Option.map_eq_some_iff]
  constructor
  · rintro ⟨cs, hcs, rfl⟩
    obtain ⟨p', hs, hp⟩ := List.dropPrefix?_eq_some_iff.mp hcs
    obtain rfl := eq_of_beq hp
    rw [← String.toList_inj, hs, String.toList_append, String.toList_ofList]
  · rintro rfl
    refine ⟨rest.toList, ?_, String.ofList_toList⟩
    rw [String.toList_append]
    exact List.dropPrefix?_append_of_beq _ (beq_self_eq_true _)

/-- What comes before the suffix in a text that has it. -/
def stripSuffix (q s : String) : Option String :=
  (s.toList.dropSuffix? q.toList).map String.ofList

theorem stripSuffix_eq_some {q s rest : String} :
    stripSuffix q s = some rest ↔ s = rest ++ q := by
  unfold stripSuffix
  rw [Option.map_eq_some_iff]
  constructor
  · rintro ⟨cs, hcs, rfl⟩
    obtain ⟨q', hs, hq⟩ := List.dropSuffix?_eq_some_iff.mp hcs
    obtain rfl := eq_of_beq hq
    rw [← String.toList_inj, hs, String.toList_append, String.toList_ofList]
  · rintro rfl
    refine ⟨rest.toList, ?_, String.ofList_toList⟩
    rw [String.toList_append]
    exact List.dropSuffix?_eq_some_iff.mpr ⟨_, rfl, beq_self_eq_true _⟩

/-- `starts_with`. -/
def startsWith (p s : String) : Bool := (stripPrefix p s).isSome

/-- `ends_with`. -/
def endsWith (q s : String) : Bool := (stripSuffix q s).isSome

theorem startsWith_iff {p s : String} :
    startsWith p s = true ↔ ∃ rest, s = p ++ rest := by
  unfold startsWith
  rw [Option.isSome_iff_exists]
  exact exists_congr fun _ => stripPrefix_eq_some

theorem startsWith_append {p rest : String} : startsWith p (p ++ rest) = true :=
  startsWith_iff.mpr ⟨rest, rfl⟩

theorem endsWith_iff {q s : String} :
    endsWith q s = true ↔ ∃ rest, s = rest ++ q := by
  unfold endsWith
  rw [Option.isSome_iff_exists]
  exact exists_congr fun _ => stripSuffix_eq_some

/-- `contains`. -/
def containsText (needle s : String) : Bool :=
  s.toList.tails.any needle.toList.isPrefixOf

/-! ## Bytes -/

theorem byteArray_loop (bs : ByteArray) (i : ℕ) (r : List UInt8) :
    ByteArray.toList.loop bs i r = r.reverse ++ bs.data.toList.drop i := by
  fun_induction ByteArray.toList.loop bs i r with
  | case1 i r h ih =>
      have hi : i < bs.data.toList.length := by simpa using h
      rw [ih, List.drop_eq_getElem_cons hi]
      simp [ByteArray.get!, getElem!_pos, h]
  | case2 i r h =>
      have hi : bs.data.toList.length ≤ i := by simpa using h
      rw [List.drop_eq_nil_of_le hi]
      simp

theorem byteArray_toList (bs : ByteArray) : bs.toList = bs.data.toList := by
  unfold ByteArray.toList
  rw [byteArray_loop]
  rfl

/-- A text is known by its bytes. -/
theorem toUTF8_toList_injective {s t : String}
    (h : s.toUTF8.toList = t.toUTF8.toList) : s = t := by
  rw [byteArray_toList, byteArray_toList] at h
  exact String.toByteArray_inj.mp (ByteArray.ext (Array.toList_inj.mp h))

def utf8Bytes (s : String) : List UInt8 := s.toByteArray.data.toList

/-- The text that bytes encode, if they are UTF-8. -/
def fromUtf8 (bs : List UInt8) : Option String := String.fromUTF8? ⟨bs.toArray⟩

theorem fromUtf8_utf8Bytes (s : String) : fromUtf8 (utf8Bytes s) = some s := by
  unfold fromUtf8 utf8Bytes String.fromUTF8?
  rw [Array.toArray_toList]
  exact dif_pos s.isValidUTF8

theorem fromUtf8_eq_some {bs : List UInt8} {s : String} :
    fromUtf8 bs = some s ↔ utf8Bytes s = bs := by
  constructor
  · intro h
    unfold fromUtf8 String.fromUTF8? at h
    split_ifs at h
    obtain rfl := Option.some.inj h
    rfl
  · rintro rfl
    exact fromUtf8_utf8Bytes s

end VideoStorage.Foundation
