import VideoStorage.Foundation.JsonPath
import VideoStorage.Foundation.Text

/-!
# Scrubbing of bodies for Sentry

A body that is logged with an error is redacted when its text, in lower case, has a
sensitive field name somewhere; the redaction itself goes by the decoded names of
the members. serde_json and the lower case of Unicode are parameters.
-/

namespace VideoStorage.Sentry

open Foundation Json

def sensitiveFields : List String := [
  "delegated_identity",
  "delegated_identity_wire",
  "authorization",
  "bearer",
  "token",
  "api_key",
  "secret",
  "password",
  "private_key",
  "access_token",
  "refresh_token"]

structure ScrubCrates where
  /-- `to_lowercase`. -/
  toLowercase : String → String
  /-- The value of a text that is valid JSON. -/
  value : String → Option Json
  /-- `serde_json::from_str`, which also refuses what is nested too deeply. -/
  fromStr : String → Option Json
  toString : Json → String

def redacted : Json := .str "[REDACTED]"

section Scrub

variable (crates : ScrubCrates)

/-- The test that `is_sensitive` makes on a body and `scrub_json` on a name. -/
def isSensitive (text : String) : Bool :=
  let lower := crates.toLowercase text
  sensitiveFields.any fun f => containsText f lower

def sensitiveKeys (ms : List (String × Json)) : List String :=
  (ms.map Prod.fst).filter (isSensitive crates)

/-- `insert` of the redacted value for each of the keys. -/
def redactKeys (keys : List String) (ms : List (String × Json)) :
    List (String × Json) :=
  keys.foldl (fun ms k => insertMember k redacted ms) ms

mutual

/-- Objects are redacted after their values are scrubbed, where the source does it
before: see `scrubJson_obj`. -/
def scrubJson : Json → Json
  | .obj ms => .obj (redactKeys (sensitiveKeys crates ms) (scrubMembers ms))
  | .arr xs => .arr (scrubList xs)
  | v => v

def scrubList : List Json → List Json
  | [] => []
  | x :: xs => scrubJson x :: scrubList xs

def scrubMembers : List (String × Json) → List (String × Json)
  | [] => []
  | (k, x) :: ms => (k, scrubJson x) :: scrubMembers ms

end

def parseAndScrub (bytes : List UInt8) : Option String :=
  if bytes = [] then none
  else
    (fromUtf8 bytes).bind fun s =>
      if isSensitive crates s = true then
        match crates.fromStr s with
        | some json => some (crates.toString (scrubJson crates json))
        | none => some s
      else some s

def sensitiveStep : Step → Bool
  | .key k => isSensitive crates k
  | .index _ => false

end Scrub

/-! ## One level down -/

section Level

variable {crates : ScrubCrates} {v w x : Json} {k : String} {s : Step} {p : List Step}
  {keys : List String} {ms : List (String × Json)} {xs : List Json} {i : ℕ}

theorem find_redactKeys :
    find k (redactKeys keys ms) = if k ∈ keys then some redacted else find k ms := by
  unfold redactKeys
  induction keys generalizing ms with
  | nil => simp
  | cons k' keys ih =>
      rw [List.foldl_cons, ih]
      by_cases hkeys : k ∈ keys
      · rw [if_pos hkeys, if_pos (List.mem_cons_of_mem k' hkeys)]
      · rw [if_neg hkeys]
        by_cases hk : k = k'
        · rw [hk, find_insertMember_self, if_pos List.mem_cons_self]
        · rw [find_insertMember_ne hk, if_neg (by simp [hk, hkeys])]

theorem find_scrubMembers :
    find k (scrubMembers crates ms) = (find k ms).map (scrubJson crates) := by
  induction ms with
  | nil => rw [scrubMembers]; rfl
  | cons m ms ih =>
      obtain ⟨k', x⟩ := m
      rw [scrubMembers, find, find]
      by_cases hk : k = k'
      · rw [if_pos hk, if_pos hk]
        rfl
      · rw [if_neg hk, if_neg hk, ih]

theorem getElem?_scrubList :
    (scrubList crates xs)[i]? = xs[i]?.map (scrubJson crates) := by
  induction xs generalizing i with
  | nil => rw [scrubList]; rfl
  | cons x xs ih =>
      rw [scrubList]
      cases i with
      | zero => rfl
      | succ i => exact ih

theorem scrubMembers_insertMember :
    scrubMembers crates (insertMember k redacted ms) =
      insertMember k redacted (scrubMembers crates ms) := by
  induction ms with
  | nil => simp [insertMember, scrubMembers, scrubJson, redacted]
  | cons m ms ih =>
      obtain ⟨k', x⟩ := m
      rw [scrubMembers, insertMember, insertMember]
      split_ifs with hlt heq
      · simp [scrubMembers, scrubJson, redacted]
      · simp [scrubMembers, scrubJson, redacted]
      · rw [scrubMembers, ih]

/-- **In the order of the source**: the keys are redacted first, and what was put
there is a text, which scrubbing leaves alone. -/
theorem scrubJson_obj :
    scrubJson crates (.obj ms) =
      .obj (scrubMembers crates (redactKeys (sensitiveKeys crates ms) ms)) := by
  have hcomm : ∀ keys ms, scrubMembers crates (redactKeys keys ms) =
      redactKeys keys (scrubMembers crates ms) := by
    intro keys
    induction keys with
    | nil => exact fun ms => rfl
    | cons k keys ih =>
        intro ms
        unfold redactKeys at ih ⊢
        rw [List.foldl_cons, List.foldl_cons, ih, scrubMembers_insertMember]
  rw [scrubJson, hcomm]

/-- **One step into a scrubbed value**: a sensitive member is redacted, every other
child is the scrubbed child. -/
theorem child_scrubJson :
    child (scrubJson crates v) s =
      (child v s).map fun x =>
        if sensitiveStep crates s = true then redacted else scrubJson crates x := by
  cases v with
  | obj ms =>
      cases s with
      | index i => rw [scrubJson]; rfl
      | key k =>
          rw [scrubJson]
          show find k (redactKeys _ _) = (find k ms).map _
          rw [find_redactKeys, find_scrubMembers]
          have hkeys : k ∈ sensitiveKeys crates ms ↔
              k ∈ ms.map Prod.fst ∧ isSensitive crates k = true := List.mem_filter
          -- a sensitive member is redacted, but not put where there is none
          by_cases hsensitive : isSensitive crates k = true
          · cases hfind : find k ms with
            | none =>
                rw [if_neg fun h => find_eq_none.mp hfind (hkeys.mp h).1]
                rfl
            | some x =>
                have hmem : k ∈ ms.map Prod.fst := by
                  by_contra hnot
                  rw [find_eq_none.mpr hnot] at hfind
                  cases hfind
                rw [if_pos (hkeys.mpr ⟨hmem, hsensitive⟩)]
                show some redacted = some (if isSensitive crates k = true then _ else _)
                rw [if_pos hsensitive]
          · rw [if_neg fun h => hsensitive (hkeys.mp h).2]
            congr 1
            funext x
            exact (if_neg hsensitive).symm
  | arr xs =>
      cases s with
      | index i =>
          rw [scrubJson]
          exact getElem?_scrubList
      | key k => rw [scrubJson]; rfl
  | null => cases s <;> rfl
  | bool b => cases s <;> rfl
  | num n => cases s <;> rfl
  | str t => cases s <;> rfl

theorem head_scrubJson : head (scrubJson crates v) = head v := by
  cases v with
  | num n => cases n <;> simp [scrubJson, head]
  | null => simp [scrubJson, head]
  | bool b => simp [scrubJson, head]
  | str t => simp [scrubJson, head]
  | arr xs => simp [scrubJson, head]
  | obj ms => simp [scrubJson, head]

end Level

/-! ## Whole values -/

/-- **What scrubbing promises**, by places: under a sensitive name there is only
the redacted value; a place that is reached through no sensitive name holds
what it held; what stood under a sensitive name is not there any more. -/
structure Scrubbed (crates : ScrubCrates) (v w : Json) : Prop where
  names : ∀ p k x, descend w (p ++ [.key k]) = some x →
    isSensitive crates k = true → x = redacted
  others : ∀ p, (∀ s ∈ p, sensitiveStep crates s = false) →
    (descend w p).map head = (descend v p).map head
  gone : ∀ p k x, descend v (p ++ [.key k]) = some x →
    isSensitive crates k = true → x ≠ redacted →
    descend w (p ++ [.key k]) ≠ some x

/-- No value but the redacted one stands under a sensitive name. -/
def Redacted (crates : ScrubCrates) (v : Json) : Prop :=
  ∀ p k x, descend v (p ++ [.key k]) = some x → isSensitive crates k = true →
    x = redacted

section Whole

variable {crates : ScrubCrates} {v w x : Json} {p : List Step} {bytes : List UInt8}
  {s out : String}

/-- A path without sensitive names finds the scrubbed value of what it found. -/
theorem descend_scrubJson (h : ∀ s ∈ p, sensitiveStep crates s = false) :
    descend (scrubJson crates v) p = (descend v p).map (scrubJson crates) := by
  induction p generalizing v with
  | nil => rfl
  | cons s p ih =>
      rw [descend_cons, descend_cons, child_scrubJson, h s List.mem_cons_self]
      cases child v s with
      | none => rfl
      | some w => exact ih fun t ht => h t (List.mem_cons_of_mem s ht)

/-- **Whatever the path, a sensitive name leads to the redacted value.** -/
theorem redacted_scrubJson : Redacted crates (scrubJson crates v) := by
  intro p k x hx hk
  induction p generalizing v with
  | nil =>
      have hchild : child (scrubJson crates v) (.key k) = some x := by
        rw [List.nil_append, descend_cons] at hx
        cases hc : child (scrubJson crates v) (.key k) with
        | none => rw [hc] at hx; cases hx
        | some y =>
            rw [hc] at hx
            exact hx
      rw [child_scrubJson] at hchild
      obtain ⟨y, -, rfl⟩ := Option.map_eq_some_iff.mp hchild
      exact if_pos hk
  | cons s p ih =>
      rw [List.cons_append, descend_cons, child_scrubJson] at hx
      obtain ⟨y, hy, hrest⟩ := Option.bind_eq_some_iff.mp hx
      obtain ⟨z, -, rfl⟩ := Option.map_eq_some_iff.mp hy
      by_cases hs : sensitiveStep crates s = true
      · -- below a redacted value there is nothing
        rw [if_pos hs] at hrest
        obtain ⟨hnil, -⟩ := descend_str hrest
        exact absurd hnil (List.append_ne_nil_of_right_ne_nil _ (List.cons_ne_nil _ _))
      · rw [if_neg hs] at hrest
        exact ih hrest

theorem Redacted.gone (hw : Redacted crates w) (k : String) (hx : x ≠ redacted)
    (hk : isSensitive crates k = true) : descend w (p ++ [.key k]) ≠ some x :=
  fun h => hx (hw p k x h hk)

theorem Redacted.of_sameStructure (h : SameStructure v w) (hv : Redacted crates v) :
    Redacted crates w := by
  intro p k x hx hk
  have hsome : (descend v (p ++ [.key k])).isSome = true := by
    rw [h.isSome, hx]
    rfl
  obtain ⟨y, hy⟩ := Option.isSome_iff_exists.mp hsome
  obtain rfl := hv p k y hy hk
  exact Option.some.inj (hx.symm.trans (h.str.mp hy))

/-- A value is its own scrubbed form when nothing is left to redact. -/
theorem scrubbed_self : Scrubbed crates v v ↔ Redacted crates v := by
  constructor
  · exact fun h => h.names
  · intro h
    exact ⟨h, fun _ _ => rfl, fun p k x _ hk hx => h.gone k hx hk⟩

/-- serde_json is faithful on a body: what it reads is the body's value, and what it
prints for the scrubbed value is a text of that. No text is empty. -/
structure Faithful (crates : ScrubCrates) (s : String) : Prop where
  reads : ∀ w, crates.fromStr s = some w →
    ∃ v, crates.value s = some v ∧ SameStructure w v
  prints : ∀ w, crates.fromStr s = some w →
    ∃ v, crates.value (crates.toString (scrubJson crates w)) = some v ∧
      SameStructure (scrubJson crates w) v
  nonempty : crates.value "" = none

/-- A scrubbed value that was printed and is read again. -/
theorem scrubbed_of_printed {u : Json} (hread : SameStructure w v)
    (hprint : SameStructure (scrubJson crates w) u) : Scrubbed crates v u := by
  have hredacted : Redacted crates u := redacted_scrubJson.of_sameStructure hprint
  refine ⟨hredacted, ?_, fun p k x _ hk hx => hredacted.gone k hx hk⟩
  intro p hp
  have hhead : (head ∘ scrubJson crates) = head := funext fun _ => head_scrubJson
  rw [← hprint p, descend_scrubJson hp, Option.map_map, hhead]
  exact hread p

/-- **Scrubbing, exactly.** The body that is logged keeps the promise when its text
shows a sensitive name and serde_json reads it, or when it has nothing to hide. -/
theorem parse_and_scrub_iff (crates : ScrubCrates) (bytes : List UInt8) (s : String)
    (v : Json) (hs : fromUtf8 bytes = some s) (hv : crates.value s = some v)
    (hcrates : Faithful crates s) :
    (∃ out w, parseAndScrub crates bytes = some out ∧ crates.value out = some w ∧
        Scrubbed crates v w) ↔
      (isSensitive crates s = true ∧ (crates.fromStr s).isSome = true) ∨
        Redacted crates v := by
  have hne : bytes ≠ [] := by
    rintro rfl
    obtain rfl : "" = s := Option.some.inj hs
    rw [hcrates.nonempty] at hv
    cases hv
  -- a body that is returned as it came must have been redacted before
  have hself : (∃ out w, some s = some out ∧ crates.value out = some w ∧
      Scrubbed crates v w) ↔ Redacted crates v := by
    rw [← scrubbed_self]
    constructor
    · rintro ⟨out, w, hout, hw, hscrubbed⟩
      rw [← Option.some.inj hout, hv] at hw
      rwa [← Option.some.inj hw] at hscrubbed
    · intro h
      exact ⟨s, v, rfl, hv, h⟩
  unfold parseAndScrub
  rw [if_neg hne, hs, Option.bind_some]
  -- the gate: a name in the raw text
  by_cases hgate : isSensitive crates s = true
  · rw [if_pos hgate]
    cases hread : crates.fromStr s with
    | none =>
        dsimp only
        rw [hself]
        simp
    | some w =>
        dsimp only
        refine iff_of_true ?_ (.inl ⟨hgate, rfl⟩)
        obtain ⟨v', hv', hsame⟩ := hcrates.reads w hread
        obtain rfl := Option.some.inj (hv'.symm.trans hv)
        obtain ⟨u, hu, hprint⟩ := hcrates.prints w hread
        exact ⟨_, u, rfl, hu, scrubbed_of_printed hsame hprint⟩
  · rw [if_neg hgate, hself]
    simp [hgate]

end Whole

/-! ## Concrete bodies -/

def tokenValue : Json := .obj [("token", .str "s3cret")]

def tokenBody : String := "\x7b\"token\":\"s3cret\"\x7d"

/-- The same object, with the first letter of the name escaped. -/
def escapedBody : String := "\x7b\"\\u0074oken\":\"s3cret\"\x7d"

def scrubbedBody : String := "\x7b\"token\":\"[REDACTED]\"\x7d"

/-- serde_json on these texts. -/
def tokenCrates : ScrubCrates where
  toLowercase := String.toLower
  value text :=
    if text = tokenBody ∨ text = escapedBody then some tokenValue
    else if text = scrubbedBody then some (.obj [("token", redacted)])
    else none
  fromStr text := if text = tokenBody ∨ text = escapedBody then some tokenValue else none
  toString _ := scrubbedBody

theorem tokenCrates_faithful (s : String) : Faithful tokenCrates s where
  reads w h := by
    have hbody : s = tokenBody ∨ s = escapedBody := by
      by_contra hnot
      cases (if_neg hnot : tokenCrates.fromStr s = none).symm.trans h
    exact ⟨w, (if_pos hbody).trans ((if_pos hbody).symm.trans h), fun _ => rfl⟩
  prints w h := by
    have hbody : s = tokenBody ∨ s = escapedBody := by
      by_contra hnot
      cases (if_neg hnot : tokenCrates.fromStr s = none).symm.trans h
    obtain rfl : tokenValue = w := Option.some.inj ((if_pos hbody).symm.trans h)
    have hscrub : scrubJson tokenCrates tokenValue = .obj [("token", redacted)] := by
      decide +kernel
    rw [hscrub]
    exact ⟨_, by decide +kernel, fun _ => rfl⟩
  nonempty := by decide +kernel

theorem scrubs_token_body :
    ∃ out w, parseAndScrub tokenCrates (utf8Bytes tokenBody) = some out ∧
      tokenCrates.value out = some w ∧ Scrubbed tokenCrates tokenValue w := by
  refine (parse_and_scrub_iff tokenCrates _ tokenBody tokenValue
    (fromUtf8_utf8Bytes tokenBody) (by decide +kernel)
    (tokenCrates_faithful tokenBody)).mpr (.inl ?_)
  decide +kernel

/-- **The gate misses an escaped name**: the body goes out as it came. -/
theorem escaped_name_unscrubbed :
    parseAndScrub tokenCrates (utf8Bytes escapedBody) = some escapedBody ∧
      tokenCrates.value escapedBody = some tokenValue ∧
      ¬ ∃ out w, parseAndScrub tokenCrates (utf8Bytes escapedBody) = some out ∧
        tokenCrates.value out = some w ∧ Scrubbed tokenCrates tokenValue w := by
  have hout : parseAndScrub tokenCrates (utf8Bytes escapedBody) = some escapedBody := by
    decide +kernel
  have hvalue : tokenCrates.value escapedBody = some tokenValue := by decide +kernel
  refine ⟨hout, hvalue, ?_⟩
  rintro ⟨out, w, hout', hw, hscrubbed⟩
  obtain rfl := Option.some.inj (hout.symm.trans hout')
  obtain rfl := Option.some.inj (hvalue.symm.trans hw)
  have hname := hscrubbed.names [] "token" (.str "s3cret") rfl (by decide +kernel)
  exact absurd (str.inj hname) (by decide)

end VideoStorage.Sentry
