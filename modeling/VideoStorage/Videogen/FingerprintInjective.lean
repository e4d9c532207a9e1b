import Mathlib.Data.Set.Function
import VideoStorage.Foundation.JsonPrint
import VideoStorage.Foundation.Text
import VideoStorage.Videogen.Fingerprint

/-!
# The fingerprint tells requests apart

Two inputs have one canonical text just when they are the same up to the
encoding of an image (`SameInput`): the compact text says which object it is of,
the object which fields it has, and the tag which kind of image. What is assumed
of SHA-256 is that it does not take one of the messages hashed here for another.
-/

namespace VideoStorage.Videogen

open Foundation

variable (crates : Crates)

/-- The bytes of an image that are hashed. -/
def imageBytes : ImageIdentityInput → Option Bytes
  | .none => none
  | .base64 image => crates.decodeBase64 image
  | .reference reference => some (utf8 reference)

/-- Images of the same kind and content. -/
inductive SameImage : ImageIdentityInput → ImageIdentityInput → Prop
  | none : SameImage .none .none
  | base64 {image image' : String} {bytes : Bytes}
      (h : crates.decodeBase64 image = some bytes)
      (h' : crates.decodeBase64 image' = some bytes) :
      SameImage (.base64 image) (.base64 image')
  | reference (reference : String) :
      SameImage (.reference reference) (.reference reference)

/-- All fields agree, the images as images. -/
structure SameInput (a b : RequestFingerprintInput) : Prop where
  fields : { a with image := .none } = { b with image := .none }
  image : SameImage crates a.image b.image

/-- The messages hashed for an input: its image and its canonical text. -/
def hashed (input : RequestFingerprintInput) : Set Bytes :=
  { message | imageBytes crates input.image = some message ∨
    ∃ f, computeRequestFingerprint crates input = .ok f ∧
      message = utf8 f.canonicalJson }

variable {crates : Crates} {a b : RequestFingerprintInput}
  {f f' : RequestFingerprint}

/-! ## The identity of an image -/

theorem computeImageIdentity_ok {image : ImageIdentityInput}
    {identity : String × Option String}
    (h : computeImageIdentity crates image = .ok identity) :
    (image = .none ∧ identity = ("none", none)) ∨
    (∃ text bytes, image = .base64 text ∧ crates.decodeBase64 text = some bytes ∧
      identity = ("base64", some (crates.sha256Hex bytes))) ∨
    ∃ reference, image = .reference reference ∧
      identity = ("reference", some (crates.sha256Hex (utf8 reference))) := by
  cases image with
  | none => exact .inl ⟨rfl, (Except.ok.inj h).symm⟩
  | reference r => exact .inr (.inr ⟨r, rfl, (Except.ok.inj h).symm⟩)
  | base64 text =>
      cases hbytes : crates.decodeBase64 text with
      | none =>
          simp only [computeImageIdentity, hbytes] at h
          cases h
      | some bytes =>
          simp only [computeImageIdentity, hbytes] at h
          exact .inr (.inl ⟨text, bytes, rfl, hbytes, (Except.ok.inj h).symm⟩)

/-- **The identity tells images apart** whose bytes the hash tells apart. -/
theorem sameImage_of_identity {image image' : ImageIdentityInput}
    {identity : String × Option String}
    (h : computeImageIdentity crates image = .ok identity)
    (h' : computeImageIdentity crates image' = .ok identity)
    (hsha : ∀ x y, imageBytes crates image = some x →
      imageBytes crates image' = some y →
      crates.sha256Hex x = crates.sha256Hex y → x = y) :
    SameImage crates image image' := by
  obtain ⟨rfl, rfl⟩ | ⟨text, bytes, rfl, hbytes, rfl⟩ | ⟨r, rfl, rfl⟩ :=
    computeImageIdentity_ok h
  · obtain ⟨rfl, -⟩ | ⟨_, _, -, -, hidentity⟩ | ⟨_, -, hidentity⟩ :=
      computeImageIdentity_ok h'
    · exact .none
    · cases congrArg Prod.snd hidentity
    · cases congrArg Prod.snd hidentity
  · obtain ⟨-, hidentity⟩ | ⟨text', bytes', rfl, hbytes', hidentity⟩ |
      ⟨_, -, hidentity⟩ := computeImageIdentity_ok h'
    · cases congrArg Prod.snd hidentity
    · have hhash := Option.some.inj (congrArg Prod.snd hidentity)
      obtain rfl := hsha bytes bytes' hbytes hbytes' hhash
      exact .base64 hbytes hbytes'
    · have htag : "base64" = "reference" := congrArg Prod.fst hidentity
      exact absurd htag (by decide)
  · obtain ⟨-, hidentity⟩ | ⟨_, _, -, -, hidentity⟩ | ⟨r', rfl, hidentity⟩ :=
      computeImageIdentity_ok h'
    · cases congrArg Prod.snd hidentity
    · have htag : "reference" = "base64" := congrArg Prod.fst hidentity
      exact absurd htag (by decide)
    · have hhash := Option.some.inj (congrArg Prod.snd hidentity)
      obtain rfl := toUTF8_toList_injective (hsha _ _ rfl rfl hhash)
      exact .reference r

theorem SameImage.identity {image image' : ImageIdentityInput}
    (h : SameImage crates image image') :
    computeImageIdentity crates image = computeImageIdentity crates image' := by
  cases h with
  | none => rfl
  | reference r => rfl
  | base64 h h' => simp only [computeImageIdentity, h, h']

/-! ## The canonical text -/

theorem integral_canonical (input : RequestFingerprintInput) (imageType : String)
    (image : Option String) : (canonical input imageType image).Integral := by
  have hopt : ∀ s : Option String, (Json.ofOptStr s).Integral := by
    rintro (_ | s)
    · exact .null
    · exact .str s
  have hseed : (input.seed.elim .null fun s => .ofInt s.toInt : Json).Integral := by
    cases input.seed with
    | none => exact .null
    | some s => exact .int _
  refine Json.integral_object ?_
  simp only [List.forall_mem_cons, List.not_mem_nil, false_implies, implies_true]
  exact ⟨.str _, .int _, .int _, .bool _, hopt _, .str _, .str _, hopt _, .str _,
    .str _, .str _, hseed, .str _, .str _, trivial⟩

theorem computeRequestFingerprint_eq_ok
    (h : computeRequestFingerprint crates a = .ok f) :
    ∃ identity, computeImageIdentity crates a.image = .ok identity ∧
      f.canonicalJson = crates.jsonText (canonical a identity.1 identity.2) ∧
      f.requestFingerprint = crates.sha256Hex (utf8 f.canonicalJson) := by
  unfold computeRequestFingerprint at h
  split at h
  · cases h
  · rename_i imageType image hidentity
    obtain rfl := Except.ok.inj h
    exact ⟨(imageType, image), hidentity, rfl, rfl⟩

theorem computeRequestFingerprint_of_identity {identity : String × Option String}
    (h : computeImageIdentity crates a.image = .ok identity) :
    ∃ f, computeRequestFingerprint crates a = .ok f := by
  unfold computeRequestFingerprint
  rw [h]
  exact ⟨_, rfl⟩

theorem SameInput.computeRequestFingerprint (h : SameInput crates a b) :
    computeRequestFingerprint crates a = computeRequestFingerprint crates b := by
  have hcanonical : canonical a = canonical b := by
    show canonical { a with image := .none } = canonical { b with image := .none }
    rw [h.fields]
  unfold Videogen.computeRequestFingerprint
  rw [h.image.identity, hcanonical]

/-- **One canonical text, one input.** -/
theorem sameInput_of_canonicalJson {floatText : F64 → List Char}
    (hjson : crates.jsonText = Json.compact floatText)
    (hf : computeRequestFingerprint crates a = .ok f)
    (hf' : computeRequestFingerprint crates b = .ok f')
    (hsha : Set.InjOn crates.sha256Hex (hashed crates a ∪ hashed crates b))
    (h : f.canonicalJson = f'.canonicalJson) : SameInput crates a b := by
  obtain ⟨identity, hi, htext, -⟩ := computeRequestFingerprint_eq_ok hf
  obtain ⟨identity', hi', htext', -⟩ := computeRequestFingerprint_eq_ok hf'
  rw [htext, htext', hjson] at h
  have hintegral := integral_canonical a identity.1 identity.2
  have hintegral' := integral_canonical b identity'.1 identity'.2
  obtain ⟨hfields, htype, himage⟩ :=
    canonical_inj (Json.compact_injective hintegral hintegral' h)
  obtain rfl : identity = identity' := Prod.ext htype himage
  refine ⟨hfields, sameImage_of_identity hi hi' ?_⟩
  intro x y hx hy
  exact hsha (.inl (.inl hx)) (.inr (.inl hy))

theorem computeRequestFingerprint_eq_error {e : FingerprintError} :
    computeRequestFingerprint crates a = .error e ↔ e = .invalidBase64Image ∧
      ∃ image, a.image = .base64 image ∧ crates.decodeBase64 image = none := by
  have hok : ∀ identity, computeImageIdentity crates a.image = .ok identity →
      computeRequestFingerprint crates a ≠ .error e := by
    intro identity h
    simp only [computeRequestFingerprint, h]
    exact fun h => by cases h
  cases himage : a.image with
  | none =>
      refine iff_of_false (hok ("none", none) (by rw [himage]; rfl)) ?_
      rintro ⟨-, _, ⟨⟩, -⟩
  | reference r =>
      refine iff_of_false (hok (_, _) (by rw [himage]; rfl)) ?_
      rintro ⟨-, _, ⟨⟩, -⟩
  | base64 text =>
      cases hbytes : crates.decodeBase64 text with
      | some bytes =>
          refine iff_of_false (hok ("base64", some (crates.sha256Hex bytes)) ?_) ?_
          · simp only [himage, computeImageIdentity, hbytes]
          · rintro ⟨-, _, ⟨⟩, hnone⟩
            cases hbytes.symm.trans hnone
      | none =>
          simp only [computeRequestFingerprint, himage, computeImageIdentity, hbytes]
          constructor
          · rintro ⟨⟩
            exact ⟨rfl, text, rfl, hbytes⟩
          · rintro ⟨rfl, -⟩
            rfl

/-- **The fingerprint is injective** up to the encoding of an image, and is
refused for nothing but an image that does not decode. -/
theorem fingerprint_injective (crates : Crates) (floatText : F64 → List Char)
    (hjson : crates.jsonText = Json.compact floatText)
    (a b : RequestFingerprintInput) :
    (∀ f f', computeRequestFingerprint crates a = .ok f →
      computeRequestFingerprint crates b = .ok f' →
      Set.InjOn crates.sha256Hex (hashed crates a ∪ hashed crates b) →
      (f.canonicalJson = f'.canonicalJson ↔ SameInput crates a b) ∧
        (f.requestFingerprint = f'.requestFingerprint → SameInput crates a b)) ∧
    ∀ e, computeRequestFingerprint crates a = .error e ↔
      e = .invalidBase64Image ∧
        ∃ image, a.image = .base64 image ∧ crates.decodeBase64 image = none := by
  refine ⟨fun f f' hf hf' hsha => ⟨⟨?_, ?_⟩, ?_⟩, fun e => ?_⟩
  · exact sameInput_of_canonicalJson hjson hf hf' hsha
  · intro h
    rw [h.computeRequestFingerprint, hf'] at hf
    rw [Except.ok.inj hf]
  · intro h
    obtain ⟨-, -, -, hhash⟩ := computeRequestFingerprint_eq_ok hf
    obtain ⟨-, -, -, hhash'⟩ := computeRequestFingerprint_eq_ok hf'
    rw [hhash, hhash'] at h
    have hbytes := hsha (.inl (.inr ⟨f, hf, rfl⟩)) (.inr (.inr ⟨f', hf', rfl⟩)) h
    exact sameInput_of_canonicalJson hjson hf hf' hsha (toUTF8_toList_injective hbytes)
  · exact computeRequestFingerprint_eq_error

/-! ## The bytes of a text, as a Base64 image and as a reference -/

def helloHash : String :=
  "2cf24dba5fb0a30e26e83b2ac5b9e29e1b161e5c1fa7425e73043362938b9824"

def fixture (image : ImageIdentityInput) : RequestFingerprintInput where
  principal := "aaaaa-aa"
  modelId := "ltx-video"
  prompt := "make a video"
  negativePrompt := none
  aspectRatio := "16:9"
  duration := 5
  resolution := "720p"
  seed := some 42
  generateAudio := true
  uploadHandling := "server"
  tokenType := "delegated_identity"
  image := image

def base64Text : String :=
  Json.compact (fun _ => []) (canonical (fixture .none) "base64" (some helloHash))

def referenceText : String :=
  Json.compact (fun _ => []) (canonical (fixture .none) "reference" (some helloHash))

def fixtureCrates : Crates where
  principalFromStr := .ok
  decodeBase64 text := if text = "aGVsbG8=" then some (utf8 "hello") else none
  sha256Hex message :=
    if message = utf8 "hello" then helloHash
    else if message = utf8 base64Text then
      "15b927bbad8432bbe86388e55e4183d39076007a13cb572e58808a729d616ed7"
    else "47021147fc3097c81a9f954c9db5bfd18256cc197e6d76df226b9be2cdee04fe"
  hmacSha256 _ _ := []
  hexEncode _ := ""
  hexDecode _ := none
  jsonText := Json.compact fun _ => []
  parseJson _ := .error ""
  bodyText _ := ""
  statusText _ := ""

theorem identity_base64 : computeImageIdentity fixtureCrates (.base64 "aGVsbG8=") =
    .ok ("base64", some helloHash) := by
  simp [computeImageIdentity, fixtureCrates]

theorem identity_reference : computeImageIdentity fixtureCrates (.reference "hello") =
    .ok ("reference", some helloHash) := by
  simp [computeImageIdentity, fixtureCrates]

/-- What is hashed for the two: the bytes of the text and the two objects. -/
theorem hashed_fixtures :
    hashed fixtureCrates (fixture (.base64 "aGVsbG8=")) ∪
      hashed fixtureCrates (fixture (.reference "hello")) ⊆
    {utf8 "hello", utf8 base64Text, utf8 referenceText} := by
  rintro message ((himage | ⟨f, hf, rfl⟩) | (himage | ⟨f, hf, rfl⟩))
  · simp [imageBytes, fixture, fixtureCrates] at himage
    exact .inl himage.symm
  · obtain ⟨identity, hidentity, htext, -⟩ := computeRequestFingerprint_eq_ok hf
    obtain rfl := Except.ok.inj (identity_base64.symm.trans hidentity)
    exact .inr (.inl (congrArg utf8 htext))
  · simp [imageBytes, fixture] at himage
    exact .inl himage.symm
  · obtain ⟨identity, hidentity, htext, -⟩ := computeRequestFingerprint_eq_ok hf
    obtain rfl := Except.ok.inj (identity_reference.symm.trans hidentity)
    exact .inr (.inr (congrArg utf8 htext))

theorem canonicalText_ne {input : RequestFingerprintInput} {imageType : String}
    {image : Option String} {floatText : F64 → List Char} :
    Json.compact floatText (canonical input imageType image) ≠ "hello" := by
  intro h
  have hhead := Json.head?_compact_object.symm.trans
    (congrArg (fun text : String => text.toList.head?) h)
  exact absurd hhead (by decide)

theorem referenceText_ne : referenceText ≠ base64Text := by
  intro h
  have hobject := Json.compact_injective (integral_canonical _ _ _)
    (integral_canonical _ _ _) h
  exact absurd (canonical_inj hobject).2.1 (by decide)

/-- The three messages have three hashes. -/
theorem sha256_injOn : Set.InjOn fixtureCrates.sha256Hex
    {utf8 "hello", utf8 base64Text, utf8 referenceText} := by
  have hhello : fixtureCrates.sha256Hex (utf8 "hello") = helloHash := if_pos rfl
  have hbase64 : fixtureCrates.sha256Hex (utf8 base64Text) =
      "15b927bbad8432bbe86388e55e4183d39076007a13cb572e58808a729d616ed7" := by
    refine (if_neg ?_).trans (if_pos rfl)
    exact fun h => canonicalText_ne (toUTF8_toList_injective h)
  have hreference : fixtureCrates.sha256Hex (utf8 referenceText) =
      "47021147fc3097c81a9f954c9db5bfd18256cc197e6d76df226b9be2cdee04fe" := by
    refine (if_neg ?_).trans (if_neg ?_)
    · exact fun h => canonicalText_ne (toUTF8_toList_injective h)
    · exact fun h => referenceText_ne (toUTF8_toList_injective h)
  rintro x (rfl | rfl | rfl) y (rfl | rfl | rfl) h
  · rfl
  · exact absurd (hhello.symm.trans (h.trans hbase64)) (by decide)
  · exact absurd (hhello.symm.trans (h.trans hreference)) (by decide)
  · exact absurd (hbase64.symm.trans (h.trans hhello)) (by decide)
  · rfl
  · exact absurd (hbase64.symm.trans (h.trans hreference)) (by decide)
  · exact absurd (hreference.symm.trans (h.trans hhello)) (by decide)
  · exact absurd (hreference.symm.trans (h.trans hbase64)) (by decide)
  · rfl

theorem fingerprint_injective_fixtures : ∃ f f',
    computeRequestFingerprint fixtureCrates (fixture (.base64 "aGVsbG8=")) = .ok f ∧
    computeRequestFingerprint fixtureCrates (fixture (.reference "hello")) = .ok f' ∧
    (f.canonicalJson = f'.canonicalJson ↔ SameInput fixtureCrates
      (fixture (.base64 "aGVsbG8=")) (fixture (.reference "hello"))) ∧
    (f.requestFingerprint = f'.requestFingerprint → SameInput fixtureCrates
      (fixture (.base64 "aGVsbG8=")) (fixture (.reference "hello"))) := by
  obtain ⟨f, hf⟩ := computeRequestFingerprint_of_identity
    (a := fixture (.base64 "aGVsbG8=")) identity_base64
  obtain ⟨f', hf'⟩ := computeRequestFingerprint_of_identity
    (a := fixture (.reference "hello")) identity_reference
  have h := fingerprint_injective fixtureCrates (fun _ => []) rfl
    (fixture (.base64 "aGVsbG8=")) (fixture (.reference "hello"))
  exact ⟨f, f', hf, hf', h.1 f f' hf hf' (sha256_injOn.mono hashed_fixtures)⟩

end VideoStorage.Videogen
