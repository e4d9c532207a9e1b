import VideoStorage.Foundation.Program
import VideoStorage.Foundation.Text
import VideoStorage.Videogen.Fingerprint

/-!
# The generate handler

`generate_inner` as a program over its dependencies. The request is checked
first; a Base64 image is staged, the content moderated, the request recorded and
then submitted. Each of these is a definition of its own below, in that order.
-/

namespace VideoStorage.Videogen

open Foundation

/-- What `generate_inner` asks of the world: the operations of `GenerateDeps`,
then what it takes from its own process. -/
inductive GenerateCall
  | moderate (input : ModerationInput)
  | recordPending (request : GenerateRequest) (requestId : String)
  | markRequestFailed (requestKey : RateLimiterRequestKey) (reason : String)
  | reserveUploadDestination (userPrincipal : String)
  | releaseUploadDestination (requestKey : RateLimiterRequestKey)
      (destination : UploadDestination)
  | stageImage (image : Option ImageSource) (userPrincipal : String)
      (timeoutSecs : UInt64)
  | workflowJson (request : GenerateRequest) (stagedImageUrl : Option String)
  | submitVast (request : VastSubmitRequest)
  | newUuid
  /-- Nanoseconds since the epoch, unless the clock stands before it. -/
  | systemTime
  /-- The key read from the environment, then the encryption. -/
  | encryptIdentity (wire : Json)
  /-- A task that deletes the staged object, spawned and not waited for. -/
  | spawnUplinkRm (key : String)

/-- The storage key comes with the URL of an image that was uploaded. -/
abbrev StageReply : Type :=
  Except ImageStageError (Option (String × Option String))

@[reducible] def GenerateCall.Reply : GenerateCall → Type
  | .moderate _ => Except ModerationError ModerationDecision
  | .recordPending _ _ => Option UInt64
  | .markRequestFailed _ _ => Unit
  | .reserveUploadDestination _ => Except UploadDestinationError UploadDestination
  | .releaseUploadDestination _ _ => Except UploadDestinationError Unit
  | .stageImage _ _ _ => StageReply
  | .workflowJson _ _ => Except WorkflowError Json
  | .submitVast _ => Except VastSubmitError VastSubmitAccepted
  | .newUuid => String
  | .systemTime => Option ℕ
  | .encryptIdentity _ => Except String String
  | .spawnUplinkRm _ => Unit

abbrev Gen : Type → Type := Prog GenerateCall GenerateCall.Reply

/-- One call and its reply. -/
abbrev GenExchange : Type := Prog.Exchange GenerateCall GenerateCall.Reply

namespace Gen

abbrev moderate (input : ModerationInput) :
    Gen (Except ModerationError ModerationDecision) :=
  Prog.issue (GenerateCall.moderate input)

abbrev recordPending (request : GenerateRequest) (requestId : String) :
    Gen (Option UInt64) :=
  Prog.issue (GenerateCall.recordPending request requestId)

abbrev markRequestFailed (requestKey : RateLimiterRequestKey)
    (reason : String) : Gen Unit :=
  Prog.issue (GenerateCall.markRequestFailed requestKey reason)

abbrev reserveUploadDestination (userPrincipal : String) :
    Gen (Except UploadDestinationError UploadDestination) :=
  Prog.issue (GenerateCall.reserveUploadDestination userPrincipal)

abbrev releaseUploadDestination (requestKey : RateLimiterRequestKey)
    (destination : UploadDestination) : Gen (Except UploadDestinationError Unit) :=
  Prog.issue (GenerateCall.releaseUploadDestination requestKey destination)

abbrev stageImage (image : Option ImageSource) (userPrincipal : String)
    (timeoutSecs : UInt64) : Gen StageReply :=
  Prog.issue (GenerateCall.stageImage image userPrincipal timeoutSecs)

abbrev workflowJson (request : GenerateRequest)
    (stagedImageUrl : Option String) : Gen (Except WorkflowError Json) :=
  Prog.issue (GenerateCall.workflowJson request stagedImageUrl)

abbrev submitVast (request : VastSubmitRequest) :
    Gen (Except VastSubmitError VastSubmitAccepted) :=
  Prog.issue (GenerateCall.submitVast request)

abbrev newUuid : Gen String := Prog.issue GenerateCall.newUuid

abbrev systemTime : Gen (Option ℕ) := Prog.issue GenerateCall.systemTime

abbrev encryptIdentity (wire : Json) : Gen (Except String String) :=
  Prog.issue (GenerateCall.encryptIdentity wire)

abbrev spawnUplinkRm (key : String) : Gen Unit :=
  Prog.issue (GenerateCall.spawnUplinkRm key)

end Gen

/-! ## Checks -/

def maxPromptChars : ℕ := 2000

def fingerprintInput (request : GenerateRequest) : RequestFingerprintInput where
  principal := request.userId
  modelId := request.modelId
  prompt := request.prompt
  negativePrompt := request.negativePrompt
  aspectRatio := request.aspectRatio.getD "16:9"
  duration := (request.durationSeconds.getD 5).toUInt32
  resolution := request.resolution.getD "720p"
  seed := request.seed.map UInt64.toInt64
  generateAudio := request.generateAudio.getD false
  uploadHandling := "ServerDraft"
  tokenType := (request.tokenType.getD .free).debug
  image :=
    match request.image with
    | none => .none
    | some (.url url) => .reference url
    | some (.base64 image) => .base64 image.data

/-- The request under its canonical principal, and its fingerprint. The identity
is compared before the principal is made canonical. -/
def checks (crates : Crates) (request : GenerateRequest) :
    Except GenerateError (GenerateRequest × RequestFingerprint) :=
  match crates.principalFromStr request.userId with
  | .error e => .error (.invalidInput ("Invalid user_id: " ++ e))
  | .ok claimed =>
      if request.identityPrincipal ≠ claimed then .error .identityMismatch
      else if request.uploadHandling ≠ .serverDraft then
        .error (.invalidInput "Only ServerDraft upload_handling is supported")
      else if request.modelId ≠ "ltx2" then
        .error (.workflow (.unsupported request.modelId))
      else if trim request.prompt = "" then
        .error (.invalidInput "Prompt must not be empty")
      else if maxPromptChars < request.prompt.length then
        .error (.invalidInput ("Prompt must be at most " ++
          toString maxPromptChars ++ " characters"))
      else
        let request := { request with userId := claimed }
        match computeRequestFingerprint crates (fingerprintInput request) with
        | .error e => .error (.invalidInput e.text)
        | .ok fingerprint => .ok (request, fingerprint)

/-! ## Staging and moderation -/

/-- The URL and the key out of a staging. -/
def staged : StageReply → Except ImageStageError (Option String × Option String)
  | .ok (some (url, key)) => .ok (some url, key)
  | .ok none => .ok (none, none)
  | .error e => .error e

def stage (config : GenerateConfig) (request : GenerateRequest) :
    Gen (Except ImageStageError (Option String × Option String)) := do
  let reply ← Gen.stageImage request.image request.userId
    config.vastImageStageTimeoutSecs
  pure (staged reply)

/-- A Base64 image is staged before moderation, which only takes URLs. -/
def preStage (config : GenerateConfig) (request : GenerateRequest) :
    Gen (Except ImageStageError (Option String × Option String)) :=
  match request.image with
  | some (.base64 _) => stage config request
  | _ => pure (.ok (none, none))

def moderationSubject (image : Option ImageSource)
    (preStagedUrl : Option String) : ModerationSubject :=
  match image with
  | none => .textOnly
  | some (.url url) => .imageUrl url
  | some (.base64 _) => preStagedUrl.elim .textOnly .imageUrl

/-- What moderation is asked. -/
def moderationInput (request : GenerateRequest)
    (fingerprint : RequestFingerprint) (preStagedUrl : Option String) :
    ModerationInput where
  requestId := fingerprint.requestFingerprint
  userPrincipal := request.userId
  prompt := request.prompt
  subject := moderationSubject request.image preStagedUrl

def spawnDelete (preStagedKey : Option String) : Gen Unit :=
  match preStagedKey with
  | some key => Gen.spawnUplinkRm key
  | none => pure ()

def moderateContent (request : GenerateRequest)
    (fingerprint : RequestFingerprint) (preStagedUrl preStagedKey : Option String) :
    Gen (Except GenerateError Unit) := do
  match ← Gen.moderate (moderationInput request fingerprint preStagedUrl) with
  | .error e => do
      spawnDelete preStagedKey
      pure (.error (.moderation e))
  | .ok .notSafe => do
      spawnDelete preStagedKey
      pure (.error (.invalidInput "Content violates safety guidelines"))
  | .ok .safe => pure (.ok ())

/-! ## Recording -/

/-- Never zero, and never below the store's sequence in practice. -/
def fallbackCounter (elapsed : Option ℕ) : UInt64 :=
  max ((elapsed.map UInt64.ofNat).getD (UInt64.ofNat (2 ^ 64 - 1))) 1

/-- The counter of the stored row, or one off the clock if none was stored. -/
def requestCounter (request : GenerateRequest) (requestId : String) :
    Gen UInt64 := do
  match ← Gen.recordPending request requestId with
  | some counter => pure counter
  | none => do
      let elapsed ← Gen.systemTime
      pure (fallbackCounter elapsed)

def operationId (key : RateLimiterRequestKey) : String :=
  key.principal ++ "_" ++ toString key.counter.toNat

/-! ## Submission -/

/-- A release that fails is logged; the caller returns its own error. -/
def failAfterSubmit (requestKey : RateLimiterRequestKey)
    (uploadDestination : Option UploadDestination) (reason : String) :
    Gen Unit := do
  Gen.markRequestFailed requestKey reason
  match uploadDestination with
  | none => pure ()
  | some destination => do
      let _ ← Gen.releaseUploadDestination requestKey destination
      pure ()

/-- The payload's defaults, the staged image over them, and the client's extra
parameters over both. -/
def vastInput (request : GenerateRequest) (stagedImageUrl : Option String) :
    Json :=
  let input := Json.Map.empty.insertAll [
    ("prompt", .str request.prompt),
    ("negative_prompt", .ofOptStr request.negativePrompt),
    ("aspect_ratio", .str (request.aspectRatio.getD "16:9")),
    ("duration_seconds", .ofInt (request.durationSeconds.getD 5).toNat),
    ("resolution", .str (request.resolution.getD "720p")),
    ("generate_audio", .bool (request.generateAudio.getD false)),
    ("seed", request.seed.elim .null fun s => .ofInt s.toNat)]
  let input :=
    match stagedImageUrl with
    | some url => input.insert "image_url" (.str url)
    | none => input
  .obj (input.extend request.extraParams).members

def vastRequest (config : GenerateConfig) (request : GenerateRequest)
    (requestId : String) (requestKey : RateLimiterRequestKey)
    (stagedImageUrl stagedImageKey : Option String) (workflow : Json)
    (destination : UploadDestination) : VastSubmitRequest where
  requestId := requestId
  requestKey := requestKey
  userPrincipal := request.userId
  modelId := request.modelId
  workflowJson := workflow
  input := vastInput request stagedImageUrl
  callbackUrl := config.callbackUrl
  uploadUrlRefreshUrl := config.uploadUrlRefreshUrl
  uploadDestination := destination
  stagedImageKey := stagedImageKey

def isAcceptedStatus (status : String) : Bool :=
  status == "submitted" || status == "queued"

/-- An answer that does not echo the request or has another status. -/
def refusal (requestId : String) (accepted : VastSubmitAccepted) : String :=
  "Vast did not accept request: status=" ++ accepted.status ++
    ", echoed_request_id_matches=" ++
    toString (accepted.requestId == requestId)

/-- What the answer to a submission makes of it: the reason to record and the
error to return, or nothing if it was accepted. -/
def rejected (requestId : String) :
    Except VastSubmitError VastSubmitAccepted → Option (String × VastSubmitError)
  | .ok accepted =>
      if accepted.requestId = requestId ∧ isAcceptedStatus accepted.status then
        none
      else
        some (refusal requestId accepted,
          .requestFailed (refusal requestId accepted))
  | .error e => some ("Vast submit failed: " ++ e.text, e)

def ltxProvider : String := "Ltx2"

/-- From the staged image on. An image staged before moderation is not staged
again. -/
def submitStaged (config : GenerateConfig) (request : GenerateRequest)
    (requestId : String) (requestKey : RateLimiterRequestKey)
    (stagedImageUrl stagedImageKey : Option String) :
    Gen (Except GenerateError GenerateResponse) := do
  match ← Gen.workflowJson request stagedImageUrl with
  | .error e => do
      failAfterSubmit requestKey none ("workflow selection failed: " ++ e.text)
      pure (.error (.workflow e))
  | .ok workflow => do
      match ← Gen.reserveUploadDestination request.userId with
      | .error e => do
          failAfterSubmit requestKey none
            ("upload destination reservation failed: " ++ e.text)
          pure (.error (.uploadDestination e))
      | .ok destination => do
          let encrypted ← Gen.encryptIdentity request.delegatedIdentityWire
          let destination := { destination with
            encryptedIdentity := encrypted.toOption }
          let answer ← Gen.submitVast (vastRequest config request requestId
            requestKey stagedImageUrl stagedImageKey workflow destination)
          match rejected requestId answer with
          | some (reason, e) => do
              failAfterSubmit requestKey (some destination) reason
              pure (.error (.vast e))
          | none => pure (.ok {
              operationId := operationId requestKey
              provider := ltxProvider
              requestKey := requestKey })

def submitRecorded (config : GenerateConfig) (request : GenerateRequest)
    (requestId : String) (requestKey : RateLimiterRequestKey)
    (preStagedUrl preStagedKey : Option String) :
    Gen (Except GenerateError GenerateResponse) :=
  if preStagedUrl.isSome then
    submitStaged config request requestId requestKey preStagedUrl preStagedKey
  else do
    match ← stage config request with
    | .error e => do
        failAfterSubmit requestKey none ("image staging failed: " ++ e.text)
        pure (.error (.imageStage e))
    | .ok (url, key) => submitStaged config request requestId requestKey url key

/-! ## The handler -/

def generateChecked (config : GenerateConfig) (request : GenerateRequest)
    (fingerprint : RequestFingerprint) :
    Gen (Except GenerateError GenerateResponse) := do
  match ← preStage config request with
  | .error e => pure (.error (.imageStage e))
  | .ok (preStagedUrl, preStagedKey) =>
      match ← moderateContent request fingerprint preStagedUrl preStagedKey with
      | .error e => pure (.error e)
      | .ok () => do
          let requestId ← Gen.newUuid
          let counter ← requestCounter request requestId
          submitRecorded config request requestId ⟨request.userId, counter⟩
            preStagedUrl preStagedKey

def generateInner (crates : Crates) (config : GenerateConfig)
    (request : GenerateRequest) : Gen (Except GenerateError GenerateResponse) :=
  match checks crates request with
  | .error e => pure (.error e)
  | .ok (request, fingerprint) => generateChecked config request fingerprint

end VideoStorage.Videogen
