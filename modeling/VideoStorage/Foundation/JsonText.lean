import VideoStorage.Foundation.Percent

/-!
# JSON texts

What of the grammar decides where a text ends: strings and their escapes, the
nesting, and nothing but whitespace once the outermost object or array is
closed. `scan` follows a text so far; a text cut short is `Open`, and whatever is
glued to it does not close it again (`Open.glue`). `quote` and `object` write as a
compact printer does, and `readMembers` reads that back.
-/

namespace VideoStorage.Foundation

/-- A text of ASCII characters. -/
def asciiBytes (s : String) : List UInt8 :=
  s.toList.map fun c => UInt8.ofNat c.toNat

namespace JsonText

def quoteMark : UInt8 := 0x22

def backslash : UInt8 := 0x5c

def newline : UInt8 := 0x0a

def openBrace : UInt8 := 0x7b

def closeBrace : UInt8 := 0x7d

def isSpace (b : UInt8) : Bool :=
  b = 0x20 || b = 0x09 || b = newline || b = 0x0d

/-- A comma, a colon, or a byte of a number, of `true`, `false` or `null`. -/
def isPlain (b : UInt8) : Bool :=
  (asciiBytes ",:+-.0123456789eEtrufalsn").contains b

/-- What may follow a backslash. -/
def isEscape (b : UInt8) : Bool := (asciiBytes "\"\\/bfnrtu").contains b

/-! ## Scanning -/

/-- Where a text is after its first bytes; `depth` counts the objects and arrays
that are open. -/
inductive Scan
  | outside (depth : ℕ)
  | inString (depth : ℕ)
  | escaped (depth : ℕ)
  | done
  deriving DecidableEq, Repr

/-- What a byte is outside a string. -/
inductive Token
  | opening | closing | quotation | space | plain | other
  deriving DecidableEq, Repr

def token (b : UInt8) : Token :=
  if b = openBrace ∨ b = 0x5b then .opening
  else if b = closeBrace ∨ b = 0x5d then .closing
  else if b = quoteMark then .quotation
  else if isSpace b then .space
  else if isPlain b then .plain
  else .other

/-- Nothing but space stands before the outermost value. -/
def outsideStep : ℕ → Token → Option Scan
  | d, .opening => some (.outside (d + 1))
  | d, .space => some (.outside d)
  | d + 1, .quotation => some (.inString (d + 1))
  | 1, .closing => some .done
  | d + 2, .closing => some (.outside (d + 1))
  | d + 1, .plain => some (.outside (d + 1))
  | _, _ => none

def Scan.step : Scan → UInt8 → Option Scan
  | .outside d, b => outsideStep d (token b)
  | .inString d, b =>
      if b = quoteMark then some (.outside d)
      else if b = backslash then some (.escaped d)
      else if b < 0x20 then none
      else some (.inString d)
  | .escaped d, b => if isEscape b then some (.inString d) else none
  | .done, b => if isSpace b then some .done else none

def scan : Scan → List UInt8 → Option Scan
  | s, [] => some s
  | s, b :: bs => (s.step b).bind fun s' => scan s' bs

/-- The text so far is inside an object or an array. -/
def Open : Scan → Prop
  | .outside d => 0 < d
  | .inString d => 0 < d
  | .escaped d => 0 < d
  | .done => False

/-- The same place, with `k` more objects around it. -/
def Scan.lift (k : ℕ) : Scan → Scan
  | .outside d => .outside (k + d)
  | .inString d => .inString (k + d)
  | .escaped d => .escaped (k + d)
  | .done => .outside k

section Scan

variable {s s' : Scan} {b : UInt8} {bs cs p q : List UInt8} {k : ℕ}

theorem scan_append : scan s (bs ++ cs) = (scan s bs).bind fun s' => scan s' cs := by
  induction bs generalizing s with
  | nil => rfl
  | cons b bs ih =>
      show (s.step b).bind _ = ((s.step b).bind _).bind _
      cases s.step b with
      | none => rfl
      | some s' => exact ih

theorem scan_done (h : scan .done bs = some s) :
    s = .done ∧ ∀ b ∈ bs, isSpace b = true := by
  induction bs with
  | nil => exact ⟨(Option.some.inj h).symm, fun b hb => by cases hb⟩
  | cons b bs ih =>
      obtain ⟨s', hstep, hrest⟩ := Option.bind_eq_some_iff.mp h
      dsimp only [Scan.step] at hstep
      split_ifs at hstep with hspace
      obtain rfl := Option.some.inj hstep
      obtain ⟨hs, hall⟩ := ih hrest
      refine ⟨hs, ?_⟩
      intro c hc
      rcases List.mem_cons.mp hc with rfl | hc
      · exact hspace
      · exact hall c hc

theorem Open.step (h : Open s) (hstep : s.step b = some s') :
    Open s' ∨ s' = .done := by
  cases s with
  | done => exact h.elim
  | escaped d =>
      dsimp only [Scan.step] at hstep
      split_ifs at hstep
      obtain rfl := Option.some.inj hstep
      exact .inl h
  | inString d =>
      dsimp only [Scan.step] at hstep
      split_ifs at hstep
      · obtain rfl := Option.some.inj hstep
        exact .inl h
      · obtain rfl := Option.some.inj hstep
        exact .inl h
      · obtain rfl := Option.some.inj hstep
        exact .inl h
  | outside d =>
      dsimp only [Scan.step] at hstep
      unfold outsideStep at hstep
      split at hstep <;> cases hstep
      · exact .inl (Nat.succ_pos _)
      · exact .inl h
      · exact .inl (Nat.succ_pos _)
      · exact .inr rfl
      · exact .inl (Nat.succ_pos _)
      · exact .inl (Nat.succ_pos _)

/-- Inside, a text stays inside until it is closed. -/
theorem Open.scans (h : Open s) (hscan : scan s bs = some s') :
    Open s' ∨ s' = .done := by
  induction bs generalizing s with
  | nil => exact .inl (Option.some.inj hscan ▸ h)
  | cons b bs ih =>
      obtain ⟨t, hstep, hrest⟩ := Option.bind_eq_some_iff.mp hscan
      rcases h.step hstep with ht | rfl
      · exact ih ht hrest
      · exact .inr (scan_done hrest).1

theorem Scan.lift_step (hk : 0 < k) (hs : s ≠ .done) (h : s.step b = some s') :
    (s.lift k).step b = some (s'.lift k) := by
  obtain ⟨k, rfl⟩ := Nat.exists_eq_add_of_lt hk
  rw [Nat.zero_add]
  cases s with
  | done => exact absurd rfl hs
  | escaped d =>
      dsimp only [Scan.step, Scan.lift] at h ⊢
      split_ifs at h ⊢ with hb
      obtain rfl := Option.some.inj h
      rfl
  | inString d =>
      dsimp only [Scan.step, Scan.lift] at h ⊢
      split_ifs at h ⊢
      · obtain rfl := Option.some.inj h
        rfl
      · obtain rfl := Option.some.inj h
        rfl
      · obtain rfl := Option.some.inj h
        rfl
  | outside d =>
      dsimp only [Scan.step, Scan.lift] at h ⊢
      -- the token and the depth decide the step
      cases htoken : token b <;> rw [htoken] at h <;>
        rcases d with _ | _ | d <;> cases h <;> rfl

/-- A text that closes only with its last byte, read further inside. -/
theorem scan_lift (hk : 0 < k) (h : scan s bs = some s')
    (hopen : ∀ p q, bs = p ++ q → q ≠ [] → scan s p ≠ some .done) :
    scan (s.lift k) bs = some (s'.lift k) := by
  induction bs generalizing s with
  | nil =>
      obtain rfl := Option.some.inj h
      rfl
  | cons b bs ih =>
      have hs : s ≠ .done := by
        rintro rfl
        exact hopen [] (b :: bs) rfl (List.cons_ne_nil b bs) rfl
      obtain ⟨t, hstep, hrest⟩ := Option.bind_eq_some_iff.mp h
      show ((s.lift k).step b).bind _ = _
      rw [Scan.lift_step hk hs hstep]
      apply ih hrest
      intro p q hbs hq hp
      refine hopen (b :: p) q (by rw [hbs]; rfl) hq ?_
      show (s.step b).bind _ = _
      rw [hstep]
      exact hp

end Scan

/-! ## Texts cut short -/

/-- A text that closes with its last byte and not before. -/
structure Whole (bs : List UInt8) : Prop where
  closes : scan (.outside 0) bs = some .done
  last : ∀ p q, bs = p ++ q → q ≠ [] → scan (.outside 0) p ≠ some .done

/-- **A whole object whose first name starts with a byte that starts no value.**
Read from inside a string, such a text stops at that name. -/
structure Keyed (bs : List UInt8) : Prop extends Whole bs where
  name : ∃ c r, bs = openBrace :: quoteMark :: c :: r ∧ token c = .other

/-- What was read so far, if it can be read at all, left an object open or
closed it. -/
def Started (bs : List UInt8) : Prop :=
  ∀ s, scan (.outside 0) bs = some s → Open s ∨ s = .done

section Torn

variable {s t : Scan} {b : UInt8} {bs p torn : List UInt8} {k : ℕ}

theorem whole_of_last (h : scan (.outside 0) (p ++ [b]) = some .done)
    (hb : isSpace b = false) : Whole (p ++ [b]) where
  closes := h
  last := by
    intro p' q hpq hq hdone
    rw [hpq, scan_append, hdone] at h
    obtain ⟨-, hspaces⟩ := scan_done h
    have hlast : b ∈ q := by
      obtain ⟨q, c, rfl⟩ := List.eq_nil_or_concat q |>.resolve_left hq
      rw [List.concat_eq_append, ← List.append_assoc] at hpq
      obtain ⟨-, hbc⟩ := List.append_inj' hpq rfl
      rw [List.concat_eq_append, List.cons.inj hbc |>.1]
      exact List.mem_append_right _ List.mem_cons_self
    rw [hspaces b hlast] at hb
    cases hb

theorem Open.lift (hk : 0 < k) : Open (s.lift k) := by
  cases s with
  | outside d => exact Nat.add_pos_left hk d
  | inString d => exact Nat.add_pos_left hk d
  | escaped d => exact Nat.add_pos_left hk d
  | done => exact hk

/-- Any piece of a whole text can be read. -/
theorem Whole.scan_prefix (hw : Whole bs) (hp : p <+: bs) :
    ∃ t, scan (.outside 0) p = some t := by
  obtain ⟨q, rfl⟩ := hp
  have h := hw.closes
  rw [scan_append] at h
  obtain ⟨t, ht, -⟩ := Option.bind_eq_some_iff.mp h
  exact ⟨t, ht⟩

theorem Keyed.started (hb : Keyed bs) (hp : p <+: bs) (hne : p ≠ []) :
    Started p := by
  obtain ⟨c, r, rfl, -⟩ := hb.name
  cases p with
  | nil => exact absurd rfl hne
  | cons b p =>
      obtain ⟨rfl, -⟩ := List.cons_prefix_cons.mp hp
      intro s hs
      exact Open.scans (s := .outside 1) (Nat.succ_pos 0) hs

/-- **Glued to an open text, a piece of an object leaves it open.** -/
theorem Open.glue (hs : Open s) (hb : Keyed bs) (hp : p <+: bs) (hne : p ≠ [])
    (ht : scan s p = some t) : Open t := by
  cases s with
  | done => exact hs.elim
  | outside d =>
      obtain ⟨t', ht'⟩ := hb.scan_prefix hp
      have hlift : scan (Scan.lift d (.outside 0)) p = some (t'.lift d) := by
        refine scan_lift hs ht' ?_
        rintro p' q rfl hq
        obtain ⟨rest, rfl⟩ := hp
        refine hb.last p' (q ++ rest) (List.append_assoc _ _ _) ?_
        exact List.append_ne_nil_of_left_ne_nil hq rest
      obtain rfl := Option.some.inj (ht.symm.trans hlift)
      exact Open.lift hs
  | escaped d =>
      obtain ⟨c, r, rfl, -⟩ := hb.name
      cases p with
      | nil => exact absurd rfl hne
      | cons b p =>
          obtain ⟨rfl, -⟩ := List.cons_prefix_cons.mp hp
          cases ht
  | inString d =>
      -- the brace is text, the quotation mark ends the string, the name is junk
      obtain ⟨c, r, rfl, hc⟩ := hb.name
      rcases p with _ | ⟨a, _ | ⟨b, _ | ⟨e, p⟩⟩⟩
      · exact absurd rfl hne
      · obtain ⟨rfl, -⟩ := List.cons_prefix_cons.mp hp
        obtain rfl := Option.some.inj ht
        exact hs
      · obtain ⟨rfl, hmark⟩ := List.cons_prefix_cons.mp hp
        obtain ⟨rfl, -⟩ := List.cons_prefix_cons.mp hmark
        obtain rfl := Option.some.inj ht
        exact hs
      · obtain ⟨rfl, hmark⟩ := List.cons_prefix_cons.mp hp
        obtain ⟨rfl, hname⟩ := List.cons_prefix_cons.mp hmark
        obtain ⟨rfl, -⟩ := List.cons_prefix_cons.mp hname
        have hstep : (Scan.outside d).step e = none := by
          show outsideStep d (token e) = none
          rw [hc]
          rcases d with _ | _ | d <;> rfl
        have hnone : scan (.outside d) (e :: p) = none := by
          show ((Scan.outside d).step e).bind _ = none
          rw [hstep]
          rfl
        cases hnone.symm.trans ht

/-- A text once started is not closed by gluing an object to it. -/
theorem Started.glue (h : Started torn) (hb : Keyed bs) (hp : p <+: bs)
    (hne : p ≠ []) (ht : scan (.outside 0) (torn ++ p) = some t) : Open t := by
  rw [scan_append] at ht
  obtain ⟨s, hs, ht⟩ := Option.bind_eq_some_iff.mp ht
  rcases h s hs with hopen | rfl
  · exact hopen.glue hb hp hne ht
  · obtain ⟨c, r, rfl, -⟩ := hb.name
    cases p with
    | nil => exact absurd rfl hne
    | cons b p =>
        obtain ⟨rfl, -⟩ := List.cons_prefix_cons.mp hp
        cases ht

end Torn

/-! ## Quoting -/

def hexValue (b : UInt8) : UInt8 := if b < 0x3a then b - 0x30 else b - 0x57

/-- The escapes that a compact printer writes; bytes from `0x80` on are parts of
characters and go out as they are. -/
def escapeByte (b : UInt8) : List UInt8 :=
  if b = quoteMark then [backslash, quoteMark]
  else if b = backslash then [backslash, backslash]
  else if b = 0x08 then [backslash, 0x62]
  else if b = 0x09 then [backslash, 0x74]
  else if b = newline then [backslash, 0x6e]
  else if b = 0x0c then [backslash, 0x66]
  else if b = 0x0d then [backslash, 0x72]
  else if b < 0x20 then
    [backslash, 0x75, 0x30, 0x30, hexDigit (b / 16), hexDigit (b % 16)]
  else [b]

def escape (bs : List UInt8) : List UInt8 := bs.flatMap escapeByte

def quote (bs : List UInt8) : List UInt8 :=
  quoteMark :: (escape bs ++ [quoteMark])

/-- The byte that a short escape stands for. -/
def shortEscape (b : UInt8) : Option UInt8 :=
  if b = quoteMark then some quoteMark
  else if b = backslash then some backslash
  else if b = 0x62 then some 0x08
  else if b = 0x74 then some 0x09
  else if b = 0x6e then some newline
  else if b = 0x66 then some 0x0c
  else if b = 0x72 then some 0x0d
  else none

/-- Reads what `escape` writes, up to the closing quotation mark. -/
def unescape : List UInt8 → Option (List UInt8 × List UInt8)
  | [] => none
  | b :: rest =>
      if b = quoteMark then some ([], rest)
      else if b = backslash then
        match rest with
        | [] => none
        | c :: rest =>
            match shortEscape c with
            | some v => (unescape rest).map (Prod.map (v :: ·) id)
            | none =>
                match rest with
                | _ :: _ :: h :: l :: rest =>
                    (unescape rest).map
                      (Prod.map ((hexValue h * 16 + hexValue l) :: ·) id)
                | _ => none
      else (unescape rest).map (Prod.map (b :: ·) id)
termination_by structural bs => bs

section Quote

variable {b : UInt8} {bs rest : List UInt8} {d : ℕ}

/-- What an escape writes for a control byte is read back, and is no
quotation mark, no backslash and no control byte. -/
theorem hexDigits (hb : b < 0x20) :
    hexValue (hexDigit (b / 16)) * 16 + hexValue (hexDigit (b % 16)) = b ∧
      ∀ c ∈ [hexDigit (b / 16), hexDigit (b % 16)],
        c ≠ quoteMark ∧ c ≠ backslash ∧ ¬ c < 0x20 := by
  have hall : ∀ i < 32,
      let b := UInt8.ofNat i
      hexValue (hexDigit (b / 16)) * 16 + hexValue (hexDigit (b % 16)) = b ∧
        ∀ c ∈ [hexDigit (b / 16), hexDigit (b % 16)],
          c ≠ quoteMark ∧ c ≠ backslash ∧ ¬ c < 0x20 := by decide +kernel
  rw [← @UInt8.ofNat_toNat b]
  exact hall b.toNat hb

theorem step_inside (hq : b ≠ quoteMark) (hs : b ≠ backslash) (hb : ¬ b < 0x20) :
    (Scan.inString d).step b = some (.inString d) := by
  show ite _ _ _ = _
  rw [if_neg hq, if_neg hs, if_neg hb]

/-- **What a byte is written as**: a short escape, an escape by its digits, or
itself. -/
theorem escapeByte_cases (b : UInt8) :
    (∃ c, escapeByte b = [backslash, c] ∧ shortEscape c = some b ∧
      isEscape c = true ∧ c ≠ newline) ∨
    (b < 0x20 ∧ escapeByte b =
      [backslash, 0x75, 0x30, 0x30, hexDigit (b / 16), hexDigit (b % 16)]) ∨
    (b ≠ quoteMark ∧ b ≠ backslash ∧ ¬ b < 0x20 ∧ escapeByte b = [b]) := by
  by_cases hq : b = quoteMark
  · exact .inl ⟨quoteMark, by rw [hq]; decide⟩
  by_cases hs : b = backslash
  · exact .inl ⟨backslash, by rw [hs]; decide⟩
  by_cases h₁ : b = 0x08
  · exact .inl ⟨0x62, by rw [h₁]; decide⟩
  by_cases h₂ : b = 0x09
  · exact .inl ⟨0x74, by rw [h₂]; decide⟩
  by_cases h₃ : b = newline
  · exact .inl ⟨0x6e, by rw [h₃]; decide⟩
  by_cases h₄ : b = 0x0c
  · exact .inl ⟨0x66, by rw [h₄]; decide⟩
  by_cases h₅ : b = 0x0d
  · exact .inl ⟨0x72, by rw [h₅]; decide⟩
  rw [escapeByte, if_neg hq, if_neg hs, if_neg h₁, if_neg h₂, if_neg h₃, if_neg h₄,
    if_neg h₅]
  by_cases hb : b < 0x20
  · exact .inr (.inl ⟨hb, if_pos hb⟩)
  · exact .inr (.inr ⟨hq, hs, hb, if_neg hb⟩)

theorem scan_escapeByte : scan (.inString d) (escapeByte b) = some (.inString d) := by
  obtain ⟨c, h, -, hc, -⟩ | ⟨hb, h⟩ | ⟨hq, hs, hb, h⟩ := escapeByte_cases b
  · rw [h]
    show scan (.escaped d) [c] = _
    rw [scan, Scan.step, if_pos hc]
    rfl
  · rw [h]
    obtain ⟨-, hdigits⟩ := hexDigits hb
    obtain ⟨hq₁, hs₁, hb₁⟩ := hdigits _ List.mem_cons_self
    obtain ⟨hq₂, hs₂, hb₂⟩ := hdigits _ (List.mem_cons_of_mem _ List.mem_cons_self)
    show scan (.inString d) [hexDigit (b / 16), hexDigit (b % 16)] = _
    rw [scan, step_inside hq₁ hs₁ hb₁]
    show scan (.inString d) [hexDigit (b % 16)] = _
    rw [scan, step_inside hq₂ hs₂ hb₂]
    rfl
  · rw [h, scan, step_inside hq hs hb]
    rfl

theorem scan_escape : scan (.inString d) (escape bs) = some (.inString d) := by
  induction bs with
  | nil => rfl
  | cons b bs ih =>
      show scan _ (escapeByte b ++ escape bs) = _
      rw [scan_append, scan_escapeByte]
      exact ih

/-- A quoted text stands where a value or a name does. -/
theorem scan_quote : scan (.outside (d + 1)) (quote bs) = some (.outside (d + 1)) := by
  show scan (.inString (d + 1)) (escape bs ++ [quoteMark]) = _
  rw [scan_append, scan_escape]
  rfl

theorem newline_notMem_escape : newline ∉ escape bs := by
  intro hmem
  obtain ⟨b, -, hmem⟩ := List.mem_flatMap.mp hmem
  obtain ⟨c, h, -, -, hc⟩ | ⟨hb, h⟩ | ⟨-, -, hb, h⟩ := escapeByte_cases b
  · rw [h] at hmem
    rcases List.mem_cons.mp hmem with hslash | hmem
    · exact absurd hslash (by decide)
    · exact hc (List.mem_singleton.mp hmem).symm
  · rw [h] at hmem
    obtain ⟨-, hdigits⟩ := hexDigits hb
    rcases @List.mem_append _ _ [backslash, 0x75, 0x30, 0x30] _ |>.mp hmem with hmem | hmem
    · exact absurd hmem (by decide)
    · exact (hdigits newline hmem).2.2 (by decide)
  · rw [h] at hmem
    rw [← List.mem_singleton.mp hmem] at hb
    exact hb (by decide)

theorem unescape_escapeByte :
    unescape (escapeByte b ++ rest) = (unescape rest).map (Prod.map (b :: ·) id) := by
  obtain ⟨c, h, hc, -, -⟩ | ⟨hb, h⟩ | ⟨hq, hs, -, h⟩ := escapeByte_cases b
  · rw [h]
    show unescape (backslash :: c :: rest) = _
    rw [unescape.eq_def]
    dsimp only
    rw [if_neg (by decide), if_pos rfl, hc]
  · rw [h]
    obtain ⟨hvalue, -⟩ := hexDigits hb
    show (unescape rest).map (Prod.map ((_ * 16 + _) :: ·) id) = _
    rw [hvalue]
  · rw [h]
    show unescape (b :: rest) = _
    rw [unescape.eq_def]
    dsimp only
    rw [if_neg hq, if_neg hs]

/-- **A quoted text is read back**, and what stands after it is left. -/
theorem unescape_escape : unescape (escape bs ++ quoteMark :: rest) = some (bs, rest) := by
  induction bs with
  | nil =>
      show unescape (quoteMark :: rest) = _
      rw [unescape.eq_def]
      rfl
  | cons b bs ih =>
      show unescape (escapeByte b ++ escape bs ++ _) = _
      rw [List.append_assoc, unescape_escapeByte, ih]
      rfl

end Quote

/-! ## Objects of texts -/

/-- A member whose value is a text. -/
def member (f : List UInt8 × List UInt8) : List UInt8 :=
  quote f.1 ++ 0x3a :: quote f.2

def members : List (List UInt8 × List UInt8) → List UInt8
  | [] => []
  | [f] => member f
  | f :: fs => member f ++ 0x2c :: members fs

/-- A compact printer's object. -/
def object (fs : List (List UInt8 × List UInt8)) : List UInt8 :=
  openBrace :: (members fs ++ [closeBrace])

def readMember (name bs : List UInt8) : Option (List UInt8 × List UInt8) :=
  (bs.dropPrefix? (quote name ++ [0x3a, quoteMark])).bind unescape

/-- Reads the values of members with the given names, in their order. -/
def readMembers : List (List UInt8) → List UInt8 →
    Option (List (List UInt8) × List UInt8)
  | [], bs => some ([], bs)
  | name :: names, bs => do
      let (value, rest) ← readMember name bs
      let (values, rest) ← readMembers names ((rest.dropPrefix? [0x2c]).getD rest)
      some (value :: values, rest)

section Object

variable {f : List UInt8 × List UInt8} {fs : List (List UInt8 × List UInt8)}
  {bs rest : List UInt8} {d : ℕ}

theorem scan_member : scan (.outside (d + 1)) (member f) = some (.outside (d + 1)) := by
  show scan _ (quote f.1 ++ 0x3a :: quote f.2) = _
  rw [scan_append, scan_quote]
  exact scan_quote

theorem scan_members : scan (.outside (d + 1)) (members fs) = some (.outside (d + 1)) := by
  induction fs using members.induct with
  | case1 => rfl
  | case2 f => exact scan_member
  | case3 f fs hne ih =>
      rw [members, scan_append, scan_member]
      · exact ih
      · exact hne

theorem newline_notMem_quote : newline ∉ quote bs := by
  intro h
  rcases List.mem_cons.mp h with h | h
  · cases h
  · rcases List.mem_append.mp h with h | h
    · exact newline_notMem_escape h
    · exact absurd h (by decide)

theorem newline_notMem_member : newline ∉ member f := by
  intro h
  rcases List.mem_append.mp h with h | h
  · exact newline_notMem_quote h
  · rcases List.mem_cons.mp h with h | h
    · cases h
    · exact newline_notMem_quote h

theorem newline_notMem_object : newline ∉ object fs := by
  have hmembers : newline ∉ members fs := by
    induction fs using members.induct with
    | case1 => exact List.not_mem_nil
    | case2 f => exact newline_notMem_member
    | case3 f fs hne ih =>
        intro h
        rw [members] at h
        · rcases List.mem_append.mp h with h | h
          · exact newline_notMem_member h
          · rcases List.mem_cons.mp h with h | h
            · cases h
            · exact ih h
        · exact hne
  intro h
  rcases List.mem_cons.mp h with h | h
  · cases h
  · rcases List.mem_append.mp h with h | h
    · exact hmembers h
    · exact absurd h (by decide)

theorem whole_object : Whole (object fs) := by
  refine whole_of_last (p := openBrace :: members fs) ?_ (by decide)
  show scan (.outside 1) (members fs ++ [closeBrace]) = _
  rw [scan_append, scan_members]
  rfl

/-- Members begin with the first one's name. -/
theorem members_first : ∃ more, members (f :: fs) = quote f.1 ++ more := by
  cases fs with
  | nil => exact ⟨_, rfl⟩
  | cons g fs => exact ⟨_, List.append_assoc _ _ _⟩

/-- An object is keyed when its first name starts with a byte like `b`. -/
theorem keyed_object {c : UInt8} {name : List UInt8}
    (hname : f.1 = c :: name) (hc : token c = .other) (hescape : escapeByte c = [c]) :
    Keyed (object (f :: fs)) where
  toWhole := whole_object
  name := by
    obtain ⟨more, hmore⟩ := @members_first f fs
    refine ⟨c, escape name ++ [quoteMark] ++ more ++ [closeBrace], ?_, hc⟩
    show openBrace :: (members (f :: fs) ++ _) = _
    rw [hmore, hname]
    show _ :: (quoteMark :: ((escapeByte c ++ escape name) ++ _) ++ _ ++ _) = _
    rw [hescape]
    rfl

theorem dropPrefix?_append : (bs ++ rest).dropPrefix? bs = some rest :=
  List.dropPrefix?_append_of_beq _ (beq_self_eq_true bs)

theorem readMember_member : readMember f.1 (member f ++ rest) = some (f.2, rest) := by
  have hsplit : member f ++ rest =
      (quote f.1 ++ [0x3a, quoteMark]) ++ (escape f.2 ++ quoteMark :: rest) := by
    simp only [member, quote, List.append_assoc, List.cons_append, List.nil_append]
  unfold readMember
  rw [hsplit, dropPrefix?_append]
  exact unescape_escape

/-- **The values of an object are read back.** -/
theorem readMembers_members (hne : fs ≠ []) :
    readMembers (fs.map Prod.fst) (members fs ++ closeBrace :: rest) =
      some (fs.map Prod.snd, closeBrace :: rest) := by
  induction fs using members.induct with
  | case1 => exact absurd rfl hne
  | case2 f =>
      show (readMember f.1 (member f ++ _)).bind _ = _
      rw [readMember_member]
      rfl
  | case3 f fs hfs ih =>
      show (readMember f.1 _).bind _ = _
      rw [members, List.append_assoc, readMember_member]
      · show (readMembers (fs.map Prod.fst)
          ((([0x2c] ++ (members fs ++ closeBrace :: rest)).dropPrefix? [0x2c]).getD
            _)).bind _ = _
        rw [dropPrefix?_append, Option.getD_some, ih hfs]
        rfl
      · exact hfs

end Object

end JsonText

end VideoStorage.Foundation
