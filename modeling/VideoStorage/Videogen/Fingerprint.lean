import VideoStorage.Videogen.Types

/-!
# The request fingerprint

A canonical object of the request's fields and the hash of its text. An image
enters by its hash: the decoded bytes of a Base64 one, the reference of another.
-/

namespace VideoStorage.Videogen

open Foundation

inductive ImageIdentityInput
  | none
  | base64 (image : String)
  | reference (reference : String)
  deriving DecidableEq, Repr

structure RequestFingerprintInput where
  principal : String
  modelId : String
  prompt : String
  negativePrompt : Option String
  aspectRatio : String
  duration : UInt32
  resolution : String
  seed : Option Int64
  generateAudio : Bool
  uploadHandling : String
  tokenType : String
  image : ImageIdentityInput
  deriving DecidableEq

structure RequestFingerprint where
  version : ℕ
  canonicalJson : String
  requestFingerprint : String
  imageHashHex : String
  deriving DecidableEq, Repr

/-- The second one never arises: an object under text keys always has a text. -/
inductive FingerprintError
  | invalidBase64Image
  | serializeCanonicalJson
  deriving DecidableEq, Repr

def FingerprintError.text : FingerprintError → String
  | .invalidBase64Image => "image base64 is invalid"
  | .serializeCanonicalJson => "failed to serialize canonical fingerprint json"

variable (crates : Crates)

def computeImageIdentity :
    ImageIdentityInput → Except FingerprintError (String × Option String)
  | .none => .ok ("none", none)
  | .base64 image =>
      match crates.decodeBase64 image with
      | none => .error .invalidBase64Image
      | some bytes => .ok ("base64", some (crates.sha256Hex bytes))
  | .reference reference =>
      .ok ("reference", some (crates.sha256Hex (utf8 reference)))

/-- The members of the canonical object. -/
def canonical (input : RequestFingerprintInput) (imageIdentityType : String)
    (imageIdentity : Option String) : Json :=
  Json.object [
    ("aspect_ratio", .str input.aspectRatio),
    ("duration", .ofInt input.duration.toNat),
    ("fingerprint_version", .ofInt 1),
    ("generate_audio", .bool input.generateAudio),
    ("image_identity", .ofOptStr imageIdentity),
    ("image_identity_type", .str imageIdentityType),
    ("model_id", .str input.modelId),
    ("negative_prompt", .ofOptStr input.negativePrompt),
    ("principal", .str input.principal),
    ("prompt", .str input.prompt),
    ("resolution", .str input.resolution),
    ("seed", input.seed.elim .null fun s => .ofInt s.toInt),
    ("token_type", .str input.tokenType),
    ("upload_handling", .str input.uploadHandling)]

def computeRequestFingerprint (input : RequestFingerprintInput) :
    Except FingerprintError RequestFingerprint :=
  match computeImageIdentity crates input.image with
  | .error e => .error e
  | .ok (imageIdentityType, imageIdentity) =>
      let canonicalJson :=
        crates.jsonText (canonical input imageIdentityType imageIdentity)
      .ok {
        version := 1
        canonicalJson := canonicalJson
        requestFingerprint := crates.sha256Hex (utf8 canonicalJson)
        imageHashHex := imageIdentity.getD "" }

/-- The only image that has no fingerprint is one that does not decode. -/
theorem computeRequestFingerprint_isOk {input : RequestFingerprintInput} :
    (∃ f, computeRequestFingerprint crates input = .ok f) ↔
      ∀ image, input.image = .base64 image →
        (crates.decodeBase64 image).isSome := by
  unfold computeRequestFingerprint
  cases hi : input.image with
  | none => simp [computeImageIdentity]
  | reference r => simp [computeImageIdentity]
  | base64 image =>
      cases hd : crates.decodeBase64 image <;>
        simp [computeImageIdentity, hd]

/-! ## The canonical object says what the fields are -/

variable {input input' : RequestFingerprintInput} {imageType imageType' : String}
  {image image' : Option String}

theorem get?_canonical {k : String} :
    (canonical input imageType image).get? k = Json.find k [
      ("aspect_ratio", .str input.aspectRatio),
      ("duration", .ofInt input.duration.toNat),
      ("fingerprint_version", .ofInt 1),
      ("generate_audio", .bool input.generateAudio),
      ("image_identity", .ofOptStr image),
      ("image_identity_type", .str imageType),
      ("model_id", .str input.modelId),
      ("negative_prompt", .ofOptStr input.negativePrompt),
      ("principal", .str input.principal),
      ("prompt", .str input.prompt),
      ("resolution", .str input.resolution),
      ("seed", input.seed.elim .null fun s => .ofInt s.toInt),
      ("token_type", .str input.tokenType),
      ("upload_handling", .str input.uploadHandling)] :=
  Json.get?_object (by simp)

theorem ofOptStr_injective {s s' : Option String}
    (h : Json.ofOptStr s = .ofOptStr s') : s = s' := by
  cases s <;> cases s' <;> simp_all [Json.ofOptStr]

theorem ofInt_injective {m n : ℤ} (h : Json.ofInt m = .ofInt n) : m = n := by
  simpa [Json.ofInt] using h

theorem seed_injective {s s' : Option Int64}
    (h : (s.elim .null fun s => .ofInt s.toInt : Json) =
      s'.elim .null fun s => .ofInt s.toInt) : s = s' := by
  cases s with
  | none => cases s' with
    | none => rfl
    | some s' => cases h
  | some s => cases s' with
    | none => cases h
    | some s' =>
        rw [Int64.toInt_inj.mp (ofInt_injective h)]

/-- **Equal canonical objects have equal fields**, the image's identity among
them. -/
theorem canonical_inj
    (h : canonical input imageType image = canonical input' imageType' image') :
    { input with image := .none } = { input' with image := .none } ∧
      imageType = imageType' ∧ image = image' := by
  have hfield (k : String) := congrArg (·.get? k) h
  simp only [get?_canonical] at hfield
  have haspect : input.aspectRatio = input'.aspectRatio := by
    simpa [Json.find] using hfield "aspect_ratio"
  have hduration : input.duration = input'.duration := by
    have hint := ofInt_injective (Option.some.inj (hfield "duration"))
    exact UInt32.toNat_inj.mp (by omega)
  have haudio : input.generateAudio = input'.generateAudio := by
    simpa [Json.find] using hfield "generate_audio"
  have himage : Json.ofOptStr image = .ofOptStr image' := by
    simpa [Json.find] using hfield "image_identity"
  have htype : imageType = imageType' := by
    simpa [Json.find] using hfield "image_identity_type"
  have hmodel : input.modelId = input'.modelId := by
    simpa [Json.find] using hfield "model_id"
  have hnegative : Json.ofOptStr input.negativePrompt =
      .ofOptStr input'.negativePrompt := by
    simpa [Json.find] using hfield "negative_prompt"
  have hprincipal : input.principal = input'.principal := by
    simpa [Json.find] using hfield "principal"
  have hprompt : input.prompt = input'.prompt := by
    simpa [Json.find] using hfield "prompt"
  have hresolution : input.resolution = input'.resolution := by
    simpa [Json.find] using hfield "resolution"
  have hseed : input.seed = input'.seed :=
    seed_injective (Option.some.inj (hfield "seed"))
  have htoken : input.tokenType = input'.tokenType := by
    simpa [Json.find] using hfield "token_type"
  have hupload : input.uploadHandling = input'.uploadHandling := by
    simpa [Json.find] using hfield "upload_handling"
  refine ⟨?_, htype, ofOptStr_injective himage⟩
  rw [RequestFingerprintInput.mk.injEq]
  exact ⟨hprincipal, hmodel, hprompt, ofOptStr_injective hnegative, haspect,
    hduration, hresolution, hseed, haudio, hupload, htoken, rfl⟩
end VideoStorage.Videogen
