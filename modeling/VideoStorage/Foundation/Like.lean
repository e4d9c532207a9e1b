import Mathlib.Computability.Language
import VideoStorage.Foundation.Text

/-!
# `LIKE`

A pattern stands for a language: the product of what its characters stand for.
A literal text with `%` behind it is the pattern of the texts that start with it
(`like_plain`) as long as it has no character that means something else in a
pattern; any other such pattern matches a text that does not
(`exists_like_not_startsWith`).
-/

namespace VideoStorage.Foundation

inductive LikeError
  | endsWithEscape
  deriving DecidableEq, Repr

inductive LikeToken
  | char (c : Char)
  | one
  | many
  deriving DecidableEq, Repr

/-- A backslash takes the next character as it is, and cannot be the last. -/
def likeTokens : List Char → Except LikeError (List LikeToken)
  | [] => .ok []
  | '\\' :: [] => .error .endsWithEscape
  | '\\' :: c :: cs => (likeTokens cs).map (.char c :: ·)
  | '%' :: cs => (likeTokens cs).map (.many :: ·)
  | '_' :: cs => (likeTokens cs).map (.one :: ·)
  | c :: cs => (likeTokens cs).map (.char c :: ·)

def likeAccepts : List LikeToken → List Char → Bool
  | [], s => s.isEmpty
  | .char _ :: _, [] => false
  | .char c :: ts, a :: s => a = c && likeAccepts ts s
  | .one :: _, [] => false
  | .one :: ts, _ :: s => likeAccepts ts s
  | .many :: ts, s => s.tails.any fun rest => likeAccepts ts rest

def like (pattern s : String) : Except LikeError Bool :=
  (likeTokens pattern.toList).map fun ts => likeAccepts ts s.toList

/-! ## The language of a pattern -/

def LikeToken.language : LikeToken → Language Char
  | char c => {[c]}
  | one => {s | ∃ c, s = [c]}
  | many => ⊤

def likeLanguage (ts : List LikeToken) : Language Char :=
  (ts.map LikeToken.language).prod

variable {ts us : List LikeToken} {s cs : List Char} {c a : Char}

@[simp] theorem likeLanguage_nil : likeLanguage [] = 1 := rfl

@[simp] theorem likeLanguage_cons (u : LikeToken) :
    likeLanguage (u :: ts) = u.language * likeLanguage ts := List.prod_cons

theorem likeLanguage_append :
    likeLanguage (ts ++ us) = likeLanguage ts * likeLanguage us := by
  simp [likeLanguage]

theorem mem_char_mul {l : Language Char} :
    s ∈ (LikeToken.char c).language * l ↔ ∃ rest ∈ l, s = c :: rest := by
  rw [Language.mem_mul]
  constructor
  · rintro ⟨u, rfl, rest, hrest, rfl⟩
    exact ⟨rest, hrest, rfl⟩
  · rintro ⟨rest, hrest, rfl⟩
    exact ⟨[c], rfl, rest, hrest, rfl⟩

theorem mem_one_mul {l : Language Char} :
    s ∈ LikeToken.one.language * l ↔ ∃ a, ∃ rest ∈ l, s = a :: rest := by
  rw [Language.mem_mul]
  constructor
  · rintro ⟨u, ⟨a, rfl⟩, rest, hrest, rfl⟩
    exact ⟨a, rest, hrest, rfl⟩
  · rintro ⟨a, rest, hrest, rfl⟩
    exact ⟨[a], ⟨a, rfl⟩, rest, hrest, rfl⟩

theorem mem_many_mul {l : Language Char} :
    s ∈ LikeToken.many.language * l ↔ ∃ rest ∈ l, rest <:+ s := by
  rw [Language.mem_mul]
  constructor
  · rintro ⟨u, -, rest, hrest, rfl⟩
    exact ⟨rest, hrest, u, rfl⟩
  · rintro ⟨rest, hrest, u, rfl⟩
    exact ⟨u, trivial, rest, hrest, rfl⟩

/-- **The matcher decides the language.** -/
theorem likeAccepts_iff : likeAccepts ts s = true ↔ s ∈ likeLanguage ts := by
  induction ts generalizing s with
  | nil =>
      rw [likeLanguage_nil, Language.mem_one]
      exact List.isEmpty_iff
  | cons u ts ih =>
      rw [likeLanguage_cons]
      cases u with
      | char c =>
          rw [mem_char_mul]
          cases s <;> simp [likeAccepts, ih, and_comm]
      | one =>
          rw [mem_one_mul]
          cases s <;> simp [likeAccepts, ih]
      | many =>
          rw [mem_many_mul]
          simp [likeAccepts, ih, and_comm]

/-! ## A text with `%` behind it -/

/-- A character that stands for itself. -/
def LikePlain (c : Char) : Prop := c ≠ '%' ∧ c ≠ '_' ∧ c ≠ '\\'

instance (c : Char) : Decidable (LikePlain c) := inferInstanceAs (Decidable (_ ∧ _))

theorem likeTokens_cons (h : LikePlain c) :
    likeTokens (c :: cs) = (likeTokens cs).map (.char c :: ·) := by
  obtain ⟨hmany, hone, hescape⟩ := h
  rw [likeTokens] <;> simp_all

/-- The pattern of the text and `%` matches. -/
def LikeUnder (p s : List Char) : Prop :=
  ∃ ts, likeTokens (p ++ ['%']) = .ok ts ∧ s ∈ likeLanguage ts

namespace LikeUnder

variable {p : List Char}

theorem nil (s : List Char) : LikeUnder [] s :=
  ⟨[.many], rfl, mem_many_mul.mpr ⟨[], rfl, List.nil_suffix⟩⟩

theorem char (hc : LikePlain c) (h : LikeUnder p s) : LikeUnder (c :: p) (c :: s) := by
  obtain ⟨ts, hts, hs⟩ := h
  refine ⟨.char c :: ts, ?_, mem_char_mul.mpr ⟨s, hs, rfl⟩⟩
  rw [List.cons_append, likeTokens_cons hc, hts]
  rfl

theorem many (h : LikeUnder p s) (a : List Char) : LikeUnder ('%' :: p) (a ++ s) := by
  obtain ⟨ts, hts, hs⟩ := h
  refine ⟨.many :: ts, ?_, mem_many_mul.mpr ⟨s, hs, a, rfl⟩⟩
  rw [List.cons_append, likeTokens, hts]
  rfl

theorem one (h : LikeUnder p s) (a : Char) : LikeUnder ('_' :: p) (a :: s) := by
  obtain ⟨ts, hts, hs⟩ := h
  refine ⟨.one :: ts, ?_, mem_one_mul.mpr ⟨a, s, hs, rfl⟩⟩
  rw [List.cons_append, likeTokens, hts]
  rfl

theorem escaped (h : LikeUnder p s) (c : Char) :
    LikeUnder ('\\' :: c :: p) (c :: s) := by
  obtain ⟨ts, hts, hs⟩ := h
  refine ⟨.char c :: ts, ?_, mem_char_mul.mpr ⟨s, hs, rfl⟩⟩
  rw [List.cons_append, List.cons_append, likeTokens, hts]
  rfl

/-- A backslash at the end of the text takes the `%`. -/
theorem lastEscape : LikeUnder ['\\'] ['%'] :=
  ⟨[.char '%'], rfl, mem_char_mul.mpr ⟨[], rfl, rfl⟩⟩

/-- No such pattern is malformed, and each matches a text no longer than it. -/
theorem exists_short (p : List Char) : ∃ s, LikeUnder p s ∧ s.length ≤ p.length := by
  induction p using likeTokens.induct with
  | case1 => exact ⟨[], nil [], le_refl _⟩
  | case2 => exact ⟨['%'], lastEscape, le_refl _⟩
  | case3 c cs ih =>
      obtain ⟨s, hs, hlen⟩ := ih
      exact ⟨c :: s, hs.escaped c, by simp only [List.length_cons]; omega⟩
  | case4 cs ih =>
      obtain ⟨s, hs, hlen⟩ := ih
      exact ⟨s, hs.many [], by simp only [List.length_cons]; omega⟩
  | case5 cs ih =>
      obtain ⟨s, hs, hlen⟩ := ih
      exact ⟨'a' :: s, hs.one 'a', by simp only [List.length_cons]; omega⟩
  | case6 c cs hlast hescape hmany hone ih =>
      obtain ⟨s, hs, hlen⟩ := ih
      refine ⟨c :: s, hs.char ⟨hmany, hone, ?_⟩, by simp only [List.length_cons]; omega⟩
      rintro rfl
      cases cs with
      | nil => exact hlast rfl rfl
      | cons c cs => exact hescape c cs rfl rfl

/-- At a character that means something else a match goes on with another one, or
gets too short to start with the text. -/
theorem exists_otherwise (h : ∃ c ∈ p, ¬ LikePlain c) :
    ∃ s, LikeUnder p s ∧ ¬ p <+: s := by
  induction p using likeTokens.induct with
  | case1 => simp at h
  | case2 => exact ⟨['%'], lastEscape, by decide⟩
  | case3 c cs =>
      obtain ⟨s, hs, hlen⟩ := exists_short cs
      refine ⟨c :: s, hs.escaped c, fun hpre => ?_⟩
      have hle := hpre.length_le
      simp only [List.length_cons] at hle
      omega
  | case4 cs =>
      obtain ⟨s, hs, -⟩ := exists_short cs
      refine ⟨'a' :: s, hs.many ['a'], fun hpre => ?_⟩
      exact absurd (List.cons_prefix_cons.mp hpre).1 (by decide)
  | case5 cs =>
      obtain ⟨s, hs, -⟩ := exists_short cs
      refine ⟨'a' :: s, hs.one 'a', fun hpre => ?_⟩
      exact absurd (List.cons_prefix_cons.mp hpre).1 (by decide)
  | case6 c cs hlast hescape hmany hone ih =>
      have hc : LikePlain c := by
        refine ⟨hmany, hone, ?_⟩
        rintro rfl
        cases cs with
        | nil => exact hlast rfl rfl
        | cons c cs => exact hescape c cs rfl rfl
      have hrest : ∃ c ∈ cs, ¬ LikePlain c := by
        obtain ⟨d, hd, hnot⟩ := h
        rcases List.mem_cons.mp hd with rfl | hd
        · exact absurd hc hnot
        · exact ⟨d, hd, hnot⟩
      obtain ⟨s, hs, hnot⟩ := ih hrest
      exact ⟨c :: s, hs.char hc, fun hpre => hnot (List.cons_prefix_cons.mp hpre).2⟩

theorem isOk (p : List Char) : ∃ ts, likeTokens (p ++ ['%']) = .ok ts := by
  obtain ⟨-, ⟨ts, hts, -⟩, -⟩ := exists_short p
  exact ⟨ts, hts⟩

end LikeUnder

theorem likeTokens_plain {p : List Char} (h : ∀ c ∈ p, LikePlain c) :
    likeTokens (p ++ cs) = (likeTokens cs).map (p.map .char ++ ·) := by
  induction p with
  | nil =>
      rw [List.nil_append]
      cases likeTokens cs <;> rfl
  | cons c p ih =>
      rw [List.cons_append, likeTokens_cons (h c List.mem_cons_self),
        ih fun d hd => h d (List.mem_cons_of_mem c hd)]
      cases likeTokens cs <;> rfl

theorem likeLanguage_chars (p : List Char) : likeLanguage (p.map .char) = {p} := by
  induction p with
  | nil => rfl
  | cons c p ih =>
      ext s
      rw [List.map_cons, likeLanguage_cons, ih, mem_char_mul]
      constructor
      · rintro ⟨rest, rfl, rfl⟩
        rfl
      · rintro rfl
        exact ⟨p, rfl, rfl⟩

theorem mem_charsMany {p : List Char} :
    s ∈ likeLanguage (p.map .char ++ [.many]) ↔ p <+: s := by
  rw [likeLanguage_append, likeLanguage_chars, Language.mem_mul]
  constructor
  · rintro ⟨u, rfl, rest, -, rfl⟩
    exact ⟨rest, rfl⟩
  · rintro ⟨rest, rfl⟩
    exact ⟨p, rfl, rest, mem_many_mul.mpr ⟨[], rfl, List.nil_suffix⟩, rfl⟩

/-! ### As texts -/

variable {p text : String}

theorem like_under : like (p ++ "%") text = .ok true ↔ LikeUnder p.toList text.toList := by
  unfold like LikeUnder
  rw [String.toList_append]
  show Except.map _ (likeTokens (p.toList ++ ['%'])) = _ ↔ _
  cases hts : likeTokens (p.toList ++ ['%']) with
  | error e => simp [Except.map]
  | ok ts => simp [Except.map, likeAccepts_iff]

theorem like_isOk (p text : String) : ∃ b, like (p ++ "%") text = .ok b := by
  obtain ⟨ts, hts⟩ := LikeUnder.isOk p.toList
  refine ⟨likeAccepts ts text.toList, ?_⟩
  unfold like
  rw [String.toList_append]
  show Except.map _ (likeTokens (p.toList ++ ['%'])) = _
  rw [hts]
  rfl

/-- **A plain text and `%`** match what starts with the text. -/
theorem like_plain (h : ∀ c ∈ p.toList, LikePlain c) :
    like (p ++ "%") text = .ok true ↔ startsWith p text = true := by
  rw [like_under, startsWith_iff]
  have hts : likeTokens (p.toList ++ ['%']) = .ok (p.toList.map .char ++ [.many]) := by
    rw [likeTokens_plain h]
    rfl
  constructor
  · rintro ⟨ts, hts', hs⟩
    obtain rfl := Except.ok.inj (hts.symm.trans hts')
    obtain ⟨rest, hrest⟩ := mem_charsMany.mp hs
    refine ⟨String.ofList rest, ?_⟩
    rw [← String.toList_inj, String.toList_append, String.toList_ofList, hrest]
  · rintro ⟨rest, rfl⟩
    refine ⟨_, hts, mem_charsMany.mpr ?_⟩
    rw [String.toList_append]
    exact List.prefix_append _ _

/-- **Any other** matches a text that starts otherwise. -/
theorem exists_like_not_startsWith (h : ∃ c ∈ p.toList, ¬ LikePlain c) :
    ∃ text, like (p ++ "%") text = .ok true ∧ startsWith p text = false := by
  obtain ⟨s, hs, hnot⟩ := LikeUnder.exists_otherwise h
  refine ⟨String.ofList s, ?_, ?_⟩
  · rw [like_under, String.toList_ofList]
    exact hs
  · rw [← Bool.not_eq_true, startsWith_iff]
    rintro ⟨rest, hrest⟩
    refine hnot ⟨rest.toList, ?_⟩
    rw [← String.toList_append, ← hrest, String.toList_ofList]

end VideoStorage.Foundation
