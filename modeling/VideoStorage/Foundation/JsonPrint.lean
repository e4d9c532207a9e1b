import VideoStorage.Foundation.Int64
import VideoStorage.Foundation.Json

/-!
# Compact JSON texts

A value as a compact printer writes it: no space, members in the order the
object has them, control characters escaped by a letter or by their digits. The
text of a double is a parameter; without doubles a text says which value it is
of (`compact_injective`).
-/

namespace VideoStorage.Foundation

namespace Json

/-! ## Strings -/

/-- Characters and the letters they are escaped by. -/
def shortEscapes : List (Char × Char) :=
  [('"', '"'), ('\\', '\\'), (Char.ofNat 0x08, 'b'), ('\t', 't'), ('\n', 'n'),
    (Char.ofNat 0x0c, 'f'), ('\r', 'r')]

def escapeChar (c : Char) : List Char :=
  match shortEscapes.find? (·.1 == c) with
  | some e => ['\\', e.2]
  | none =>
      if c.toNat < 0x20 then
        ['\\', 'u', '0', '0', (c.toNat / 16).digitChar, (c.toNat % 16).digitChar]
      else [c]

def quoted (cs : List Char) : List Char :=
  '"' :: (cs.flatMap escapeChar ++ ['"'])

def digitValue (c : Char) : ℕ :=
  if c.isDigit then c.toNat - 0x30 else c.toNat - 0x57

/-- Reads what stands after a backslash. -/
def readEscape : List Char → Option (Char × List Char)
  | [] => none
  | l :: rest =>
      match shortEscapes.find? (·.2 == l) with
      | some e => some (e.1, rest)
      | none =>
          match rest with
          | _ :: _ :: h :: l :: rest =>
              some (Char.ofNat (digitValue h * 16 + digitValue l), rest)
          | _ => none

/-- Reads one character of a string, or its end. -/
def readChar : List Char → Option (Option Char × List Char)
  | [] => none
  | c :: rest =>
      if c = '"' then some (none, rest)
      else if c = '\\' then (readEscape rest).map (Prod.map some id)
      else some (some c, rest)

theorem readEscape_letter {c l : Char} {rest : List Char} (h : (c, l) ∈ shortEscapes) :
    readEscape (l :: rest) = some (c, rest) := by
  have hall : ∀ e ∈ shortEscapes, shortEscapes.find? (·.2 == e.2) = some e := by decide
  have hfind : shortEscapes.find? (·.2 == l) = some (c, l) := hall _ h
  simp only [readEscape, hfind]

theorem readEscape_digits {n : ℕ} {rest : List Char} (h : n < 0x20) :
    readEscape ('u' :: '0' :: '0' :: (n / 16).digitChar :: (n % 16).digitChar :: rest) =
      some (Char.ofNat n, rest) := by
  have hall : ∀ n < 0x20,
      digitValue (n / 16).digitChar * 16 + digitValue (n % 16).digitChar = n := by
    decide
  have hfind : shortEscapes.find? (·.2 == 'u') = none := by decide
  simp only [readEscape, hfind, hall n h]

/-- **What a character is written as is read back.** -/
theorem readChar_escapeChar {c : Char} {rest : List Char} :
    readChar (escapeChar c ++ rest) = some (some c, rest) := by
  unfold escapeChar
  cases hfind : shortEscapes.find? (·.1 == c) with
  | some e =>
      obtain rfl : e.1 = c := by simpa using List.find?_some hfind
      show (readEscape (e.2 :: rest)).map _ = _
      rw [readEscape_letter (List.mem_of_find?_eq_some hfind)]
      rfl
  | none =>
      have hnone := List.find?_eq_none.mp hfind
      dsimp only
      split_ifs with hc
      · have hchar : Char.ofNat c.toNat = c := Char.ofNat_toNat c
        show (readEscape ('u' :: '0' :: '0' :: _ :: _ :: rest)).map _ = _
        rw [readEscape_digits hc, hchar]
        rfl
      · have hquote : c ≠ '"' := fun h => hnone ('"', '"') (by decide) (by simp [h])
        have hslash : c ≠ '\\' := fun h => hnone ('\\', '\\') (by decide) (by simp [h])
        show readChar (c :: rest) = _
        rw [readChar, if_neg hquote, if_neg hslash]

/-- A string's text ends where its quotation mark says. -/
theorem escape_cancel {cs cs' r r' : List Char}
    (h : cs.flatMap escapeChar ++ '"' :: r = cs'.flatMap escapeChar ++ '"' :: r') :
    cs = cs' ∧ r = r' := by
  have hread := congrArg readChar h
  induction cs generalizing cs' with
  | nil =>
      cases cs' with
      | nil => exact ⟨rfl, (List.cons.inj h).2⟩
      | cons c' cs' =>
          rw [List.flatMap_cons, List.append_assoc, readChar_escapeChar] at hread
          cases hread
  | cons c cs ih =>
      rw [List.flatMap_cons, List.append_assoc, readChar_escapeChar] at hread
      cases cs' with
      | nil => cases hread
      | cons c' cs' =>
          rw [List.flatMap_cons, List.append_assoc, readChar_escapeChar] at hread
          obtain ⟨hc, hrest⟩ := Prod.mk.inj (Option.some.inj hread)
          obtain ⟨rfl, rfl⟩ := ih hrest (congrArg readChar hrest)
          exact ⟨by rw [Option.some.inj hc], rfl⟩

theorem quoted_cancel {s s' : String} {r r' : List Char}
    (h : quoted s.toList ++ r = quoted s'.toList ++ r') : s = s' ∧ r = r' := by
  have htail : s.toList.flatMap escapeChar ++ ['"'] ++ r =
      s'.toList.flatMap escapeChar ++ ['"'] ++ r' := (List.cons.inj h).2
  rw [List.append_assoc, List.append_assoc] at htail
  obtain ⟨hs, hr⟩ := escape_cancel htail
  exact ⟨String.toList_inj.mp hs, hr⟩

/-! ## Values -/

section Print

variable (floatText : F64 → List Char)

mutual

def chars : Json → List Char
  | .null => "null".toList
  | .bool true => "true".toList
  | .bool false => "false".toList
  | .num (.int n) => intText n
  | .num (.float x) => floatText x
  | .str s => quoted s.toList
  | .arr xs => '[' :: elements [] xs
  | .obj ms => '{' :: members [] ms

/-- What is left of an array, each element after `sep` or a comma. -/
def elements (sep : List Char) : List Json → List Char
  | [] => [']']
  | x :: xs => sep ++ (chars x ++ elements [','] xs)

/-- What is left of an object. -/
def members (sep : List Char) : List (String × Json) → List Char
  | [] => ['}']
  | (k, x) :: ms => sep ++ (quoted k.toList ++ ':' :: (chars x ++ members [','] ms))

end

def compact (v : Json) : String := String.ofList (chars floatText v)

end Print

/-! ## A text says what it is of -/

/-- No double in it. -/
inductive Integral : Json → Prop
  | null : Integral .null
  | bool (b : Bool) : Integral (.bool b)
  | int (n : ℤ) : Integral (.num (.int n))
  | str (s : String) : Integral (.str s)
  | arr {xs : List Json} (h : ∀ x ∈ xs, Integral x) : Integral (.arr xs)
  | obj {ms : List (String × Json)} (h : ∀ m ∈ ms, Integral m.2) : Integral (.obj ms)

/-- What may follow a value: nothing that continues a number. -/
def Stops (r : List Char) : Prop := ∀ c ∈ r.head?, c.isDigit = false ∧ c ≠ '-'

theorem intText_cancel {m n : ℤ} {r r' : List Char} (hr : Stops r) (hr' : Stops r')
    (h : intText m ++ r = intText n ++ r') : m = n ∧ r = r' := by
  have htake : ∀ (n : ℤ) {r : List Char}, Stops r →
      (intText n ++ r).takeWhile (fun c => c.isDigit || c = '-') = intText n := by
    intro n r hr
    rw [List.takeWhile_append_of_pos]
    · cases r with
      | nil => exact List.append_nil _
      | cons c r =>
          obtain ⟨hdigit, hminus⟩ := hr c rfl
          rw [List.takeWhile_cons_of_neg (by simp [hdigit, hminus]), List.append_nil]
    · intro c hc
      by_contra hnot
      rw [Bool.or_eq_true, not_or, decide_eq_true_eq] at hnot
      exact not_mem_intText hnot.1 hnot.2 n hc
  have htext : intText m = intText n := by
    rw [← htake m hr, h, htake n hr']
  refine ⟨intText_injective htext, ?_⟩
  rw [htext] at h
  exact List.append_cancel_left h

/-- The constructor that a text begins with. -/
inductive Kind
  | null | bool (b : Bool) | num | str | arr | obj
  deriving DecidableEq

def kind : Json → Kind
  | .null => .null
  | .bool b => .bool b
  | .num _ => .num
  | .str _ => .str
  | .arr _ => .arr
  | .obj _ => .obj

def leads (c : Char) : Option Kind :=
  if c.isDigit = true ∨ c = '-' then some .num
  else if c = 'n' then some .null
  else if c = 't' then some (.bool true)
  else if c = 'f' then some (.bool false)
  else if c = '"' then some .str
  else if c = '[' then some .arr
  else if c = '{' then some .obj
  else none

variable {floatText : F64 → List Char}

theorem intText_head (n : ℤ) :
    ∃ c cs, intText n = c :: cs ∧ (c.isDigit = true ∨ c = '-') := by
  have hne : intText n ≠ [] := by
    unfold intText
    split_ifs
    · exact List.cons_ne_nil _ _
    · exact Nat.toDigits_ne_nil
  obtain ⟨c, cs, h⟩ := List.exists_cons_of_ne_nil hne
  refine ⟨c, cs, h, ?_⟩
  by_contra hnot
  rw [not_or] at hnot
  exact not_mem_intText hnot.1 hnot.2 n (h ▸ List.mem_cons_self)

theorem chars_head {v : Json} (hv : v.Integral) :
    ∃ c cs, chars floatText v = c :: cs ∧ leads c = some v.kind := by
  cases hv with
  | null => exact ⟨_, _, rfl, rfl⟩
  | bool b => cases b <;> exact ⟨_, _, rfl, rfl⟩
  | str s => exact ⟨_, _, rfl, rfl⟩
  | arr h => exact ⟨_, _, rfl, rfl⟩
  | obj h => exact ⟨_, _, rfl, rfl⟩
  | int n =>
      obtain ⟨c, cs, h, hc⟩ := intText_head n
      exact ⟨c, cs, h, if_pos hc⟩

/-- Texts that begin alike are of one kind. -/
theorem kind_eq {v w : Json} {r r' : List Char} (hv : v.Integral) (hw : w.Integral)
    (h : chars floatText v ++ r = chars floatText w ++ r') : v.kind = w.kind := by
  obtain ⟨c, cs, hc, hleads⟩ := @chars_head floatText _ hv
  obtain ⟨c', cs', hc', hleads'⟩ := @chars_head floatText _ hw
  rw [hc, hc'] at h
  obtain rfl := (List.cons.inj h).1
  exact Option.some.inj (hleads.symm.trans hleads')

/-- A closing bracket begins no value, and neither does a comma. -/
theorem chars_ne {v : Json} {c : Char} {r r' : List Char} (hv : v.Integral)
    (hc : leads c = none) : c :: r' ≠ chars floatText v ++ r := by
  obtain ⟨c', cs, hcs, hleads⟩ := @chars_head floatText _ hv
  rw [hcs]
  intro h
  obtain rfl := (List.cons.inj h).1
  cases hc.symm.trans hleads

theorem stops_nil : Stops [] := by
  intro c hc
  cases hc

theorem stops_cons {c : Char} {r : List Char} (hc : c.isDigit = false)
    (hminus : c ≠ '-') : Stops (c :: r) := by
  rintro c' ⟨⟩
  exact ⟨hc, hminus⟩

theorem stops_elements {xs : List Json} {r : List Char} :
    Stops (elements floatText [','] xs ++ r) := by
  cases xs <;> exact stops_cons (by decide) (by decide)

theorem stops_members {ms : List (String × Json)} {r : List Char} :
    Stops (members floatText [','] ms ++ r) := by
  cases ms <;> exact stops_cons (by decide) (by decide)

mutual

/-- **A text ends where it says**, whatever stands after it. -/
theorem chars_cancel : (v w : Json) → {r r' : List Char} → v.Integral → w.Integral →
    Stops r → Stops r' → chars floatText v ++ r = chars floatText w ++ r' →
    v = w ∧ r = r'
  | .null, w, r, r', hv, hw, _, _, h => by
      have hkind := kind_eq hv hw h
      cases w <;> cases hkind
      exact ⟨rfl, List.append_cancel_left h⟩
  | .bool b, w, r, r', hv, hw, _, _, h => by
      have hkind := kind_eq hv hw h
      cases w <;> cases hkind
      exact ⟨rfl, List.append_cancel_left h⟩
  | .num n, w, r, r', hv, hw, hr, hr', h => by
      have hkind := kind_eq hv hw h
      cases hv with
      | int n =>
          cases hw with
          | int m =>
              obtain ⟨rfl, rfl⟩ := intText_cancel hr hr' h
              exact ⟨rfl, rfl⟩
          | _ => cases hkind
  | .str s, w, r, r', hv, hw, _, _, h => by
      have hkind := kind_eq hv hw h
      cases w with
      | str s' =>
          obtain ⟨rfl, rfl⟩ := quoted_cancel h
          exact ⟨rfl, rfl⟩
      | _ => cases hkind
  | .arr xs, w, r, r', hv, hw, _, _, h => by
      have hkind := kind_eq hv hw h
      cases hv with
      | arr hxs =>
          cases hw with
          | arr hys =>
              obtain ⟨rfl, rfl⟩ := elements_cancel xs _ (.inl rfl) hxs hys (List.cons.inj h).2
              exact ⟨rfl, rfl⟩
          | _ => cases hkind
  | .obj ms, w, r, r', hv, hw, _, _, h => by
      have hkind := kind_eq hv hw h
      cases hv with
      | obj hms =>
          cases hw with
          | obj hns =>
              obtain ⟨rfl, rfl⟩ := members_cancel ms _ (.inl rfl) hms hns (List.cons.inj h).2
              exact ⟨rfl, rfl⟩
          | _ => cases hkind

theorem elements_cancel : (xs ys : List Json) → {sep r r' : List Char} →
    sep = [] ∨ sep = [','] → (∀ x ∈ xs, x.Integral) → (∀ y ∈ ys, y.Integral) →
    elements floatText sep xs ++ r = elements floatText sep ys ++ r' →
    xs = ys ∧ r = r'
  | [], [], _, _, _, _, _, _, h => ⟨rfl, (List.cons.inj h).2⟩
  | [], y :: ys, sep, r, r', hsep, _, hys, h => by
      rcases hsep with rfl | rfl
      · simp only [elements, List.nil_append, List.append_assoc, List.cons_append] at h
        exact absurd h (chars_ne (hys y List.mem_cons_self) (by decide))
      · cases h
  | x :: xs, [], sep, r, r', hsep, hxs, _, h => by
      rcases hsep with rfl | rfl
      · simp only [elements, List.nil_append, List.append_assoc, List.cons_append] at h
        exact absurd h.symm (chars_ne (hxs x List.mem_cons_self) (by decide))
      · cases h
  | x :: xs, y :: ys, sep, r, r', _, hxs, hys, h => by
      simp only [elements, List.append_assoc, List.append_cancel_left_eq] at h
      obtain ⟨hx, htail⟩ := List.forall_mem_cons.mp hxs
      obtain ⟨hy, htail'⟩ := List.forall_mem_cons.mp hys
      obtain ⟨rfl, hrest⟩ := chars_cancel x y hx hy stops_elements stops_elements h
      obtain ⟨rfl, rfl⟩ := elements_cancel xs ys (.inr rfl) htail htail' hrest
      exact ⟨rfl, rfl⟩

theorem members_cancel : (ms ns : List (String × Json)) → {sep r r' : List Char} →
    sep = [] ∨ sep = [','] → (∀ m ∈ ms, m.2.Integral) → (∀ n ∈ ns, n.2.Integral) →
    members floatText sep ms ++ r = members floatText sep ns ++ r' →
    ms = ns ∧ r = r'
  | [], [], _, _, _, _, _, _, h => ⟨rfl, (List.cons.inj h).2⟩
  | [], (k, y) :: ns, sep, r, r', hsep, _, _, h => by
      rcases hsep with rfl | rfl <;> cases h
  | (k, x) :: ms, [], sep, r, r', hsep, _, _, h => by
      rcases hsep with rfl | rfl <;> cases h
  | (k, x) :: ms, (k', y) :: ns, sep, r, r', _, hms, hns, h => by
      simp only [members, List.append_assoc, List.append_cancel_left_eq,
        List.cons_append] at h
      obtain ⟨rfl, hvalue⟩ := quoted_cancel h
      obtain ⟨hx, htail⟩ := List.forall_mem_cons.mp hms
      obtain ⟨hy, htail'⟩ := List.forall_mem_cons.mp hns
      obtain ⟨rfl, hrest⟩ :=
        chars_cancel x y hx hy stops_members stops_members (List.cons.inj hvalue).2
      obtain ⟨rfl, rfl⟩ := members_cancel ms ns (.inr rfl) htail htail' hrest
      exact ⟨rfl, rfl⟩

end

/-- **The compact text is injective** on values without doubles. -/
theorem compact_injective {v w : Json} (hv : v.Integral) (hw : w.Integral)
    (h : compact floatText v = compact floatText w) : v = w := by
  have hchars : chars floatText v = chars floatText w := String.ofList_injective h
  have hnil : chars floatText v ++ [] = chars floatText w ++ [] := by rw [hchars]
  exact (chars_cancel v w hv hw stops_nil stops_nil hnil).1

/-! ## Objects -/

theorem mem_insertAll {m : Map} {kvs : List (String × Json)} {kv : String × Json}
    (h : kv ∈ (m.insertAll kvs).members) : kv ∈ kvs ∨ kv ∈ m.members := by
  induction kvs generalizing m with
  | nil => exact .inr h
  | cons kv' kvs ih =>
      rcases ih h with h | h
      · exact .inl (List.mem_cons_of_mem _ h)
      · rcases mem_insertMember h with rfl | h
        · exact .inl List.mem_cons_self
        · exact .inr h

theorem integral_object {kvs : List (String × Json)} (h : ∀ kv ∈ kvs, kv.2.Integral) :
    (object kvs).Integral := by
  refine .obj fun kv hkv => ?_
  rcases mem_insertAll hkv with hkv | hkv
  · exact h kv hkv
  · cases hkv

theorem head?_compact_object {kvs : List (String × Json)} :
    (compact floatText (object kvs)).toList.head? = some '{' := by
  unfold compact
  rw [String.toList_ofList]
  rfl

example : compact (fun _ => []) (object [("seed", .ofInt (-42)), ("prompt", .str "a\"\n"),
    ("image", .null)]) =
    "\x7b\"image\":null,\"prompt\":\"a\\\"\\n\",\"seed\":-42\x7d" := by
  decide +kernel

end Json

end VideoStorage.Foundation
