import Mathlib.Data.List.Forall2
import Mathlib.Data.List.Nodup
import VideoStorage.Foundation.Fallible
import VideoStorage.Foundation.Text
import VideoStorage.Videogen.Hmac

/-!
# Reading the keys

`HmacKeyRegistry::parse` reads entries `id:key` between commas. `Grammar` says
what such a text lists, without an order in which it is read; the parser accepts
the texts that list something and holds what they list.
-/

namespace VideoStorage.Videogen

open Foundation

namespace HmacKeyRegistry

def empty : HmacKeyRegistry := ⟨[], .nil⟩

/-- The entries between commas, trimmed, without the blank ones. -/
def entries (input : String) : List String :=
  ((input.toList.splitOn ',').map fun piece => trim (String.ofList piece)).filter (· ≠ "")

def insert (registry : HmacKeyRegistry) (key : HmacKey)
    (h : key.id ∉ registry.keys.map HmacKey.id) : HmacKeyRegistry where
  keys := registry.keys ++ [key]
  distinct := by
    rw [List.map_append, List.nodup_append]
    refine ⟨registry.distinct, by simp, ?_⟩
    rintro id hid id' hid' rfl
    rw [List.mem_singleton.mp hid'] at hid
    exact h hid

/-- What one entry adds. -/
def addEntry (registry : HmacKeyRegistry) (entry : String) :
    Except HmacError HmacKeyRegistry :=
  match splitOnceAt ':' entry with
  | none => .error .invalidKeyEntry
  | some (id, encodedKey) =>
      if trim id = "" then .error .emptyKeyId
      else if h : trim id ∈ registry.keys.map HmacKey.id then
        .error (.duplicateKeyId (trim id))
      else if utf8 (trim encodedKey) = [] then .error .emptyKey
      else .ok (registry.insert ⟨trim id, utf8 (trim encodedKey)⟩ h)

def parse (input : String) : Except HmacError HmacKeyRegistry := do
  let registry ← (entries input).foldlM addEntry empty
  if registry.keys = [] then .error .emptyRegistry else .ok registry

end HmacKeyRegistry

/-! ## What a text lists -/

def commas (pieces : List String) : String :=
  String.ofList ([','].intercalate (pieces.map String.toList))

/-- An entry `id:key`, its item being the two parts trimmed. -/
structure Entry (entry : String) (item : String × String) : Prop where
  parts : ∃ left right : String, entry.toList = left.toList ++ ':' :: right.toList ∧
    ':' ∉ left.toList ∧ item = (trim left, trim right)
  id : item.1 ≠ ""
  key : item.2 ≠ ""

/-- The text lists the items: its pieces between commas, trimmed and without the
blank ones, are their entries, at least one and no two of one id. -/
structure Grammar (input : String) (items : List (String × String)) : Prop where
  pieces : ∃ pieces, input = commas pieces ∧ pieces ≠ [] ∧
    (∀ piece ∈ pieces, ',' ∉ piece.toList) ∧
    List.Forall₂ Entry ((pieces.map trim).filter (· ≠ "")) items
  some : items ≠ []
  distinct : (items.map Prod.fst).Nodup

/-- The registry has the keys of the items, and no others. -/
def Holds (registry : HmacKeyRegistry) (items : List (String × String)) : Prop :=
  ∀ id key, registry.get id = some key ↔
    ∃ text, (id, text) ∈ items ∧ key = ⟨id, utf8 text⟩

/-! ## One entry -/

def listedKey (item : String × String) : HmacKey := ⟨item.1, utf8 item.2⟩

variable {registry registry' : HmacKeyRegistry} {entry input : String}
  {item item' : String × String} {items items' : List (String × String)}

theorem HmacKeyRegistry.eq_of_keys (h : registry.keys = registry'.keys) :
    registry = registry' := by
  cases registry
  cases registry'
  obtain rfl : _ = _ := h
  rfl

theorem utf8_eq_nil {s : String} : utf8 s = [] ↔ s = "" := by
  have hempty : utf8 "" = [] := by
    unfold utf8
    rw [byteArray_toList]
    rfl
  constructor
  · exact fun h => toUTF8_toList_injective (h.trans hempty.symm)
  · rintro rfl
    exact hempty

theorem entry_iff : Entry entry item ↔ ∃ left right,
    splitOnceAt ':' entry = some (left, right) ∧ item = (trim left, trim right) ∧
      trim left ≠ "" ∧ trim right ≠ "" := by
  constructor
  · rintro ⟨⟨left, right, hparts, hcolon, rfl⟩, hid, hkey⟩
    exact ⟨left, right, splitOnceAt_eq_some.mpr ⟨hparts, hcolon⟩, rfl, hid, hkey⟩
  · rintro ⟨left, right, hsplit, rfl, hid, hkey⟩
    obtain ⟨hparts, hcolon⟩ := splitOnceAt_eq_some.mp hsplit
    exact ⟨⟨left, right, hparts, hcolon, rfl⟩, hid, hkey⟩

theorem Entry.unique (h : Entry entry item) (h' : Entry entry item') : item = item' := by
  obtain ⟨left, right, hsplit, rfl, -⟩ := entry_iff.mp h
  obtain ⟨left', right', hsplit', rfl, -⟩ := entry_iff.mp h'
  cases hsplit.symm.trans hsplit'
  rfl

/-- An entry adds the key it lists, if its id is a new one. -/
theorem addEntry_eq_ok :
    registry.addEntry entry = .ok registry' ↔ ∃ item, Entry entry item ∧
      item.1 ∉ registry.keys.map HmacKey.id ∧
      registry'.keys = registry.keys ++ [listedKey item] := by
  unfold HmacKeyRegistry.addEntry
  constructor
  · intro h
    split at h
    · cases h
    · rename_i left right hsplit
      split_ifs at h with hid hnew hkey
      obtain rfl := Except.ok.inj h
      rw [utf8_eq_nil] at hkey
      exact ⟨_, entry_iff.mpr ⟨left, right, hsplit, rfl, hid, hkey⟩, hnew, rfl⟩
  · rintro ⟨item, hentry, hnew, hkeys⟩
    obtain ⟨left, right, hsplit, rfl, hid, hkey⟩ := entry_iff.mp hentry
    rw [hsplit]
    dsimp only
    rw [if_neg hid, dif_neg hnew, if_neg (utf8_eq_nil.not.mpr hkey)]
    exact congrArg _ (HmacKeyRegistry.eq_of_keys hkeys.symm)

/-! ## All entries -/

/-- **What the entries add**, one after the other. -/
theorem addEntries_eq_ok {entries : List String} :
    entries.foldlM HmacKeyRegistry.addEntry registry = .ok registry' ↔
      ∃ items, List.Forall₂ Entry entries items ∧
        ((registry.keys.map HmacKey.id) ++ items.map Prod.fst).Nodup ∧
        registry'.keys = registry.keys ++ items.map listedKey := by
  induction entries generalizing registry with
  | nil =>
      constructor
      · intro h
        obtain rfl := Except.ok.inj h
        refine ⟨[], .nil, ?_, ?_⟩
        · rw [List.map_nil, List.append_nil]
          exact registry.distinct
        · rw [List.map_nil, List.append_nil]
      · rintro ⟨_, ⟨⟩, -, hkeys⟩
        rw [List.map_nil, List.append_nil] at hkeys
        exact congrArg _ (HmacKeyRegistry.eq_of_keys hkeys.symm)
  | cons entry entries ih =>
      rw [List.foldlM_cons, bind_eq_ok]
      constructor
      · rintro ⟨next, hadd, hrest⟩
        obtain ⟨item, hentry, -, hkeys⟩ := addEntry_eq_ok.mp hadd
        obtain ⟨items, hentries, hnodup, hall⟩ := ih.mp hrest
        refine ⟨item :: items, .cons hentry hentries, ?_, ?_⟩
        · rw [hkeys] at hnodup
          simpa [listedKey] using hnodup
        · rw [hall, hkeys]
          simp
      · rintro ⟨_, hall, hnodup, hkeys⟩
        cases hall with
        | @cons _ item _ items hentry hentries =>
            have hnew : item.1 ∉ registry.keys.map HmacKey.id := fun hmem =>
              (List.nodup_append.mp hnodup).2.2 _ hmem _ List.mem_cons_self rfl
            refine ⟨registry.insert (listedKey item) hnew, addEntry_eq_ok.mpr
              ⟨item, hentry, hnew, rfl⟩, ih.mpr ⟨items, hentries, ?_, ?_⟩⟩
            · simpa [HmacKeyRegistry.insert, listedKey] using hnodup
            · rw [hkeys]
              simp [HmacKeyRegistry.insert]

/-! ## The text -/

theorem entries_commas {pieces : List String} (hne : pieces ≠ [])
    (hcomma : ∀ piece ∈ pieces, ',' ∉ piece.toList) :
    HmacKeyRegistry.entries (commas pieces) = (pieces.map trim).filter (· ≠ "") := by
  have hsplit : (commas pieces).toList.splitOn ',' = pieces.map String.toList := by
    unfold commas
    rw [String.toList_ofList, List.splitOn_intercalate]
    · rintro cs hcs
      obtain ⟨piece, hpiece, rfl⟩ := List.mem_map.mp hcs
      exact hcomma piece hpiece
    · exact List.map_eq_nil_iff.not.mpr hne
  unfold HmacKeyRegistry.entries
  rw [hsplit, List.map_map]
  simp [Function.comp_def]

/-- Every text is pieces between commas. -/
theorem exists_commas (input : String) : ∃ pieces, input = commas pieces ∧
    pieces ≠ [] ∧ ∀ piece ∈ pieces, ',' ∉ piece.toList := by
  refine ⟨(input.toList.splitOn ',').map String.ofList, ?_, ?_, ?_⟩
  · unfold commas
    rw [List.map_map]
    simp [Function.comp_def, List.intercalate_splitOn]
  · exact List.map_eq_nil_iff.not.mpr (List.splitOn_ne_nil _ _)
  · intro piece hpiece
    obtain ⟨part, hpart, rfl⟩ := List.mem_map.mp hpiece
    rw [String.toList_ofList]
    exact not_mem_of_mem_splitOn hpart

theorem grammar_iff : Grammar input items ↔
    List.Forall₂ Entry (HmacKeyRegistry.entries input) items ∧ items ≠ [] ∧
      (items.map Prod.fst).Nodup := by
  constructor
  · rintro ⟨⟨pieces, rfl, hne, hcomma, hentries⟩, hsome, hdistinct⟩
    rw [entries_commas hne hcomma]
    exact ⟨hentries, hsome, hdistinct⟩
  · rintro ⟨hentries, hsome, hdistinct⟩
    obtain ⟨pieces, rfl, hne, hcomma⟩ := exists_commas input
    rw [entries_commas hne hcomma] at hentries
    exact ⟨⟨pieces, rfl, hne, hcomma, hentries⟩, hsome, hdistinct⟩

/-- **The parser reads what the text lists.** -/
theorem parse_eq_ok : HmacKeyRegistry.parse input = .ok registry ↔
    ∃ items, Grammar input items ∧ registry.keys = items.map listedKey := by
  unfold HmacKeyRegistry.parse
  simp only [bind_eq_ok, ite_error_eq_ok, addEntries_eq_ok, grammar_iff]
  constructor
  · rintro ⟨_, ⟨items, hentries, hdistinct, hkeys⟩, hsome, hout⟩
    obtain rfl := Except.ok.inj hout
    rw [HmacKeyRegistry.empty, List.nil_append] at hkeys
    rw [hkeys, List.map_eq_nil_iff] at hsome
    exact ⟨items, ⟨hentries, hsome, hdistinct⟩, hkeys⟩
  · rintro ⟨items, ⟨hentries, hsome, hdistinct⟩, hkeys⟩
    refine ⟨registry, ⟨items, hentries, hdistinct, hkeys⟩, ?_, rfl⟩
    rw [hkeys, List.map_eq_nil_iff]
    exact hsome

theorem Grammar.unique (h : Grammar input items) (h' : Grammar input items') :
    items = items' := by
  obtain ⟨hentries, -, -⟩ := grammar_iff.mp h
  obtain ⟨hentries', -, -⟩ := grammar_iff.mp h'
  have hunique : Relator.RightUnique Entry := fun _ _ _ => Entry.unique
  exact hunique.forall₂ hentries hentries'

/-! ## What is held -/

theorem get_eq_some {id : String} {key : HmacKey} :
    registry.get id = some key ↔ key ∈ registry.keys ∧ key.id = id := by
  refine ⟨HmacKeyRegistry.id_of_get, ?_⟩
  rintro ⟨hmem, rfl⟩
  cases hget : registry.get key.id with
  | none =>
      have hnone := List.find?_eq_none.mp hget key hmem
      exact absurd (beq_self_eq_true key.id) hnone
  | some key' =>
      obtain ⟨hmem', hid⟩ := HmacKeyRegistry.id_of_get hget
      rw [List.inj_on_of_nodup_map registry.distinct hmem' hmem hid]

theorem holds_of_keys (hkeys : registry.keys = items.map listedKey) : Holds registry items := by
  intro id key
  rw [get_eq_some, hkeys, List.mem_map]
  constructor
  · rintro ⟨⟨item, hitem, rfl⟩, rfl⟩
    exact ⟨item.2, hitem, rfl⟩
  · rintro ⟨text, hitem, rfl⟩
    exact ⟨⟨_, hitem, rfl⟩, rfl⟩

theorem holds_perm (h : items.Perm items') : Holds registry items ↔ Holds registry items' :=
  forall₂_congr fun _ _ => by simp only [h.mem_iff]

/-! ## Writing a registry -/

/-- An id and a key that commas and colons leave in one piece. -/
structure Plain (item : String × String) : Prop where
  id : trim item.1 = item.1 ∧ ',' ∉ item.1.toList ∧ ':' ∉ item.1.toList
  key : trim item.2 = item.2 ∧ ',' ∉ item.2.toList

/-- A map of keys by their ids. -/
structure KeyMap where
  items : List (String × String)
  distinct : (items.map Prod.fst).Nodup
  some : items ≠ []
  plain : ∀ item ∈ items, Plain item

/-- Neither the id nor the key is empty. -/
def Filled (item : String × String) : Prop := item.1 ≠ "" ∧ item.2 ≠ ""

/-- The items written down in their order, with blanks around the ids, the keys
and the entries. -/
inductive Rendered : List (String × String) → List String → Prop
  | nil : Rendered [] []
  | blank {items : List (String × String)} {pieces : List String} (piece : String)
      (hblank : Blank piece) (h : Rendered items pieces) : Rendered items (piece :: pieces)
  | entry {items : List (String × String)} {pieces : List String} (b₁ b₂ b₃ b₄ : String)
      (item : String × String) (h₁ : Blank b₁) (h₂ : Blank b₂) (h₃ : Blank b₃)
      (h₄ : Blank b₄) (h : Rendered items pieces) :
      Rendered (item :: items)
        ((b₁ ++ item.1 ++ b₂ ++ ":" ++ (b₃ ++ item.2 ++ b₄)) :: pieces)

/-- Without blanks. -/
def rendering (items : List (String × String)) : String :=
  commas (items.map fun item => item.1 ++ ":" ++ item.2)

/-- The text is read as the map. -/
def ReadAs (input : String) (m : KeyMap) : Prop :=
  ∃ registry, HmacKeyRegistry.parse input = .ok registry ∧ Holds registry m.items

theorem Entry.trim (h : Entry entry item) : Entry (trim entry) item := by
  obtain ⟨⟨left, right, hparts, hcolon, rfl⟩, hid, hkey⟩ := h
  obtain ⟨left', right', hleft, hright, hsub, htrim⟩ :=
    trim_append_cons (by decide) hparts
  exact ⟨⟨left', right', htrim, fun h => hcolon (hsub h), by rw [hleft, hright]⟩, hid, hkey⟩

theorem Entry.ne_empty (h : Entry entry item) : entry ≠ "" := by
  rintro rfl
  obtain ⟨⟨left, right, hparts, -⟩, -, -⟩ := h
  exact absurd hparts.symm (List.append_ne_nil_of_right_ne_nil _ (List.cons_ne_nil _ _))

theorem entry_of_blanks {b₁ b₂ b₃ b₄ : String} (h₁ : Blank b₁) (h₂ : Blank b₂)
    (h₃ : Blank b₃) (h₄ : Blank b₄) (hplain : Plain item) (hfilled : Filled item) :
    Entry (b₁ ++ item.1 ++ b₂ ++ ":" ++ (b₃ ++ item.2 ++ b₄)) item where
  parts := by
    refine ⟨b₁ ++ item.1 ++ b₂, b₃ ++ item.2 ++ b₄, ?_, ?_, ?_⟩
    · simp
    · simp only [String.toList_append, List.mem_append, not_or]
      exact ⟨⟨h₁.not_mem (by decide), hplain.id.2.2⟩, h₂.not_mem (by decide)⟩
    · rw [trim_between h₁ h₂, trim_between h₃ h₄, hplain.id.1, hplain.key.1]
  id := hfilled.1
  key := hfilled.2

theorem Rendered.entries {pieces : List String} (h : Rendered items pieces)
    (hplain : ∀ item ∈ items, Plain item) (hfilled : ∀ item ∈ items, Filled item) :
    (∀ piece ∈ pieces, ',' ∉ piece.toList) ∧
      List.Forall₂ Entry ((pieces.map Foundation.trim).filter (· ≠ "")) items := by
  induction h with
  | nil => exact ⟨List.forall_mem_nil _, List.Forall₂.nil⟩
  | blank piece hblank h ih =>
      obtain ⟨hcomma, hentries⟩ := ih hplain hfilled
      refine ⟨List.forall_mem_cons.mpr ⟨hblank.not_mem (by decide), hcomma⟩, ?_⟩
      rw [List.map_cons, List.filter_cons_of_neg (by simp [trim_eq_empty.mpr hblank])]
      exact hentries
  | entry b₁ b₂ b₃ b₄ item h₁ h₂ h₃ h₄ h ih =>
      obtain ⟨hitem, hitems⟩ := List.forall_mem_cons.mp hplain
      obtain ⟨hfill, hfills⟩ := List.forall_mem_cons.mp hfilled
      obtain ⟨hcomma, hentries⟩ := ih hitems hfills
      have hentry := (entry_of_blanks h₁ h₂ h₃ h₄ hitem hfill).trim
      constructor
      · refine List.forall_mem_cons.mpr ⟨?_, hcomma⟩
        simp only [String.toList_append, List.mem_append, not_or]
        exact ⟨⟨⟨⟨h₁.not_mem (by decide), hitem.id.2.1⟩, h₂.not_mem (by decide)⟩,
          by decide⟩, ⟨h₃.not_mem (by decide), hitem.key.2⟩, h₄.not_mem (by decide)⟩
      · rw [List.map_cons, List.filter_cons_of_pos (by simpa using hentry.ne_empty)]
        exact .cons hentry hentries

/-- A map that is written down is listed by the text, in the order of writing. -/
theorem Rendered.grammar {pieces : List String} (h : Rendered items pieces)
    (hplain : ∀ item ∈ items, Plain item) (hfilled : ∀ item ∈ items, Filled item)
    (hsome : items ≠ []) (hdistinct : (items.map Prod.fst).Nodup) :
    Grammar (commas pieces) items := by
  obtain ⟨hcomma, hentries⟩ := h.entries hplain hfilled
  refine ⟨⟨pieces, rfl, ?_, hcomma, hentries⟩, hsome, hdistinct⟩
  rintro rfl
  cases hentries
  exact hsome rfl

theorem rendered_plain : Rendered items (items.map fun item => item.1 ++ ":" ++ item.2) := by
  have hblank : Blank "" := fun c hc => by cases hc
  induction items with
  | nil => exact .nil
  | cons item items ih =>
      have h := Rendered.entry "" "" "" "" item hblank hblank hblank hblank ih
      simpa using h

/-- **The grammar of key registries**: what is accepted, what is held then, and
that a map written down in any order and with any blanks is read back. -/
theorem registry_grammar :
    (∀ input, (∃ registry, HmacKeyRegistry.parse input = .ok registry) ↔
      ∃ items, Grammar input items) ∧
    (∀ input registry items, HmacKeyRegistry.parse input = .ok registry →
      Grammar input items → Holds registry items) ∧
    ∀ (m : KeyMap), (∀ item ∈ m.items, Filled item) →
      ∀ listed, listed.Perm m.items → ReadAs (rendering listed) m ∧
        ∀ pieces, Rendered listed pieces → ReadAs (commas pieces) m := by
  have hholds : ∀ {input : String} {registry : HmacKeyRegistry}
      {items : List (String × String)}, HmacKeyRegistry.parse input = .ok registry →
      Grammar input items → Holds registry items := by
    intro input registry items hparse hgrammar
    obtain ⟨items', hgrammar', hkeys⟩ := parse_eq_ok.mp hparse
    obtain rfl := hgrammar.unique hgrammar'
    exact holds_of_keys hkeys
  have haccept : ∀ {input : String} {items : List (String × String)},
      Grammar input items → ∃ registry, HmacKeyRegistry.parse input = .ok registry := by
    intro input items hgrammar
    refine ⟨⟨items.map listedKey, ?_⟩, parse_eq_ok.mpr ⟨items, hgrammar, rfl⟩⟩
    rw [List.map_map]
    exact hgrammar.distinct
  refine ⟨fun input => ⟨?_, ?_⟩, fun _ _ _ => hholds, ?_⟩
  · rintro ⟨registry, hparse⟩
    obtain ⟨items, hgrammar, -⟩ := parse_eq_ok.mp hparse
    exact ⟨items, hgrammar⟩
  · rintro ⟨items, hgrammar⟩
    exact haccept hgrammar
  · intro m hfilled listed hperm
    have hread : ∀ pieces, Rendered listed pieces → ReadAs (commas pieces) m := by
      intro pieces hrendered
      have hgrammar : Grammar (commas pieces) listed := by
        refine hrendered.grammar (fun item h => m.plain item (hperm.subset h))
          (fun item h => hfilled item (hperm.subset h)) ?_ ?_
        · rintro rfl
          exact m.some (List.nil_perm.mp hperm)
        · exact (hperm.map Prod.fst).nodup_iff.mpr m.distinct
      obtain ⟨registry, hparse⟩ := haccept hgrammar
      exact ⟨registry, hparse, (holds_perm hperm).mp (hholds hparse hgrammar)⟩
    exact ⟨hread _ rendered_plain, hread⟩

/-- Two keys, written down with blanks and a blank entry, out of order. -/
def twoKeys : KeyMap where
  items := [("v1", "old:token"), ("v2", "new token")]
  distinct := by decide
  some := by decide
  plain := by
    simp only [List.forall_mem_cons]
    exact ⟨⟨by decide, by decide⟩, ⟨by decide, by decide⟩, List.forall_mem_nil _⟩

theorem blank_space : Blank " " := by simp [Blank, isWhiteSpace]

theorem rendered_twoKeys : Rendered [("v2", "new token"), ("v1", "old:token")]
    [" v2: new token", " ", "v1 :old:token"] := by
  have hempty : Blank "" := fun c hc => by cases hc
  exact .entry " " "" " " "" ("v2", "new token") blank_space hempty blank_space hempty
    (.blank " " blank_space
      (.entry "" " " "" "" ("v1", "old:token") hempty blank_space hempty hempty .nil))

theorem registry_grammar_twoKeys : ReadAs (rendering twoKeys.items.reverse) twoKeys ∧
    ReadAs (commas [" v2: new token", " ", "v1 :old:token"]) twoKeys := by
  obtain ⟨hplain, hblanks⟩ := registry_grammar.2.2 twoKeys (by simp [twoKeys, Filled])
    twoKeys.items.reverse (List.reverse_perm _)
  exact ⟨hplain, hblanks _ rendered_twoKeys⟩

/-- A map whose one id is empty. -/
def emptyId : KeyMap where
  items := [("", "token")]
  distinct := by decide
  some := by decide
  plain := by
    simp only [List.forall_mem_cons]
    exact ⟨⟨by decide, by decide⟩, List.forall_mem_nil _⟩

theorem addEntry_emptyId :
    HmacKeyRegistry.empty.addEntry ":token" = .error .emptyKeyId := by
  have hsplit : splitOnceAt ':' ":token" = some ("", "token") :=
    splitOnceAt_eq_some.mpr ⟨by decide, by decide⟩
  have hid : trim "" = "" := by decide
  unfold HmacKeyRegistry.addEntry
  rw [hsplit]
  exact if_pos hid

/-- It is refused, as an entry without an id. -/
theorem emptyId_refused :
    ∃ m : KeyMap, HmacKeyRegistry.parse (rendering m.items) = .error .emptyKeyId := by
  refine ⟨emptyId, ?_⟩
  have hentries : HmacKeyRegistry.entries (commas [":token"]) = [":token"] :=
    (entries_commas (List.cons_ne_nil _ _) (by simp)).trans (by decide)
  show HmacKeyRegistry.parse (commas [":token"]) = _
  unfold HmacKeyRegistry.parse
  rw [hentries, List.foldlM_cons, addEntry_emptyId]
  rfl

end VideoStorage.Videogen
