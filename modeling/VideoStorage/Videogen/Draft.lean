import VideoStorage.Videogen.Callback
import VideoStorage.Videogen.RequestStore

/-!
# Completion in the running service

`RuntimeCompletionDeps`: each dependency of the completion handler as a program
over what it asks of the service's surroundings. The draft is registered in the
process: the identity is decrypted, its sender compared with the post's creator,
the upload finalized, the post added on the canister.
-/

namespace VideoStorage.Videogen

open Foundation

/-! ## Posts -/

inductive PostStatusFromFrontend
  | draft
  | published
  deriving DecidableEq, Repr

structure PostDetails where
  id : String
  videoUid : String
  creatorPrincipal : String
  status : PostStatusFromFrontend
  hashtags : List String
  description : String
  deriving DecidableEq, Repr

/-- The errors of `AppError` that `update_metadata_impl` returns. -/
inductive AppError
  | storageError (message : String)
  | internalError (message : String)
  | agentError (message : String)
  | invalidDelegatedIdentity (message : String)
  | unauthorized (message : String)
  | canisterError (message : String)
  | serializationError (message : String)
  deriving DecidableEq, Repr

def AppError.text : AppError → String
  | .storageError m => "Storage error: " ++ m
  | .internalError m => "Internal server error: " ++ m
  | .agentError m => "Agent error: " ++ m
  | .invalidDelegatedIdentity m => "Invalid delegated identity: " ++ m
  | .unauthorized m => "Unauthorized: " ++ m
  | .canisterError m => "Canister error: " ++ m
  | .serializationError m => "Serialization error: " ++ m

/-- What the draft flow computes with the help of crates. -/
structure DraftCrates where
  /-- `Principal::from_text`, the principal printed back. -/
  principalFromText : String → Except String String
  /-- The sender of an identity whose chain of delegations verifies. -/
  verifiedSender : Json → Except String String
  /-- `serde_json::to_string` of a `RequestPostDetails`. -/
  postDetailsText : PostDetails → Except String String

/-- Which of the optional services are configured. -/
structure UploadServices where
  events : Bool
  notifications : Bool

/-! ## The surroundings -/

structure ReleaseRequest where
  requestKey : RateLimiterRequestKey
  videoId : String
  objectKey : String
  deriving DecidableEq, Repr

inductive RuntimeCall
  /-- The key read from the environment, then the decryption. -/
  | decryptIdentity (blob : String)
  | publicBaseUrl
  | finalizeViaHttp (base publisherUserId videoId : String) (isNsfw : Bool)
      (metadata : List (String × String))
  | addPostV1 (details : PostDetails)
  | sendVideoUploadSuccessfulEvent (details : PostDetails)
  | sendVideoEventUnsuccessful (error : String) (details : PostDetails)
  | sendNotification (details : PostDetails)
  | onVideoIngested (videoId bucketUrl : String)
  | recordTerminal (principal : String) (counter : UInt64) (terminal : Terminal)
  /-- `UploadDestinationReleaseClient::release`. -/
  | release (request : ReleaseRequest)
  | spawnUplinkRm (key : String)

@[reducible] def RuntimeCall.Reply : RuntimeCall → Type
  | .decryptIdentity _ => Except String Json
  | .publicBaseUrl => Option String
  | .finalizeViaHttp _ _ _ _ _ => Except String Unit
  | .addPostV1 _ => Except String (Except String Unit)
  | .sendVideoUploadSuccessfulEvent _ => Except String Unit
  | .sendVideoEventUnsuccessful _ _ => Except String Unit
  | .sendNotification _ => Unit
  | .onVideoIngested _ _ => Unit
  | .recordTerminal _ _ _ => Unit
  | .release _ => Except String Unit
  | .spawnUplinkRm _ => Unit

abbrev Runtime : Type → Type := Prog RuntimeCall RuntimeCall.Reply

abbrev RuntimeExchange : Type := Prog.Exchange RuntimeCall RuntimeCall.Reply

/-! ## The draft -/

def draftPostDetails (lib : DraftCrates) (videoId userPrincipal : String) :
    Except DraftServiceError PostDetails :=
  match lib.principalFromText userPrincipal with
  | .error e => .error (.rejected ("invalid user principal: " ++ e))
  | .ok creator => .ok {
      id := videoId
      videoUid := videoId
      creatorPrincipal := creator
      status := .draft
      hashtags := []
      description := "" }

def authorizePublisher (lib : DraftCrates) (wire : Json)
    (details : PostDetails) : Except AppError String := do
  let publisher ← (lib.verifiedSender wire).mapError
    AppError.invalidDelegatedIdentity
  if publisher ≠ details.creatorPrincipal then
    .error (.unauthorized ("Publisher user id does not match creator " ++
      "principal in post details"))
  else .ok publisher

/-- The metadata of a draft is the post's details alone. -/
def injectPostDetails (lib : DraftCrates) (details : PostDetails) :
    Except AppError (List (String × String)) := do
  let text ← (lib.postDetailsText details).mapError AppError.serializationError
  .ok [("post_details", text)]

/-- Event and notification, once the post is added. -/
def announcePost (services : UploadServices) (details : PostDetails) :
    Runtime Unit := do
  Prog.when (details.status == .published && services.events) do
    let _ ← Prog.issue (RuntimeCall.sendVideoUploadSuccessfulEvent details)
    pure ()
  Prog.when services.notifications
    (Prog.issue (RuntimeCall.sendNotification details))

def announceFailure (services : UploadServices) (error : String)
    (details : PostDetails) : Runtime Unit :=
  Prog.when services.events do
    let _ ← Prog.issue (RuntimeCall.sendVideoEventUnsuccessful error details)
    pure ()

def uploadVideoCanister (services : UploadServices) (details : PostDetails) :
    Runtime (Except AppError Unit) := do
  match ← Prog.issue (RuntimeCall.addPostV1 details) with
  | .error e => pure (.error (.agentError e))
  | .ok (.ok ()) => do
      announcePost services details
      pure (.ok ())
  | .ok (.error e) => do
      announceFailure services e details
      pure (.error (.canisterError e))

/-- Before anything is asked: the publisher and the metadata. -/
def prepareUpdate (lib : DraftCrates) (wire : Json) (details : PostDetails) :
    Except AppError (String × List (String × String)) := do
  let publisher ← authorizePublisher lib wire details
  let metadata ← injectPostDetails lib details
  .ok (publisher, metadata)

def updateMetadataImpl (lib : DraftCrates) (services : UploadServices)
    (wire : Json) (details : PostDetails) : Runtime (Except AppError Unit) :=
  match prepareUpdate lib wire details with
  | .error e => pure (.error e)
  | .ok (publisher, metadata) => do
      match ← Prog.issue RuntimeCall.publicBaseUrl with
      | none => pure (.error (.internalError "PUBLIC_BASE_URL not set"))
      | some base => do
          match ← Prog.issue (RuntimeCall.finalizeViaHttp base publisher
              details.id false metadata) with
          | .error e => pure (.error (.storageError e))
          | .ok () => uploadVideoCanister services details

/-- `InProcessDraftServiceClient::create_draft`. A request without an identity
is taken for done. -/
def createDraft (lib : DraftCrates) (services : UploadServices)
    (request : DraftCreationRequest) : Runtime (Except DraftServiceError Unit) :=
  match request.encryptedIdentity with
  | none => pure (.ok ())
  | some blob => do
      match ← Prog.issue (RuntimeCall.decryptIdentity blob) with
      | .error e =>
          pure (.error (.unavailable ("identity decrypt failed: " ++ e)))
      | .ok wire =>
          match draftPostDetails lib request.videoId request.userPrincipal with
          | .error e => pure (.error e)
          | .ok details => do
              let result ← updateMetadataImpl lib services wire details
              pure (result.mapError fun e => .unavailable e.text)

/-! ## The other dependencies -/

/-- Without either of the two there is nothing to release. -/
def releaseUploadDestination (requestKey : RateLimiterRequestKey)
    (videoId objectKey : Option String) : Runtime (Except String Unit) :=
  match videoId, objectKey with
  | some vid, some key => Prog.issue (RuntimeCall.release ⟨requestKey, vid, key⟩)
  | _, _ => pure (.ok ())

def RequestOutcome.terminal : RequestOutcome → Terminal
  | .complete videoId bucketUrl => .complete videoId bucketUrl
  | .failed reason => .failed reason

/-- `RuntimeCompletionDeps`. -/
def runtimeDeps (lib : DraftCrates) (services : UploadServices) :
    (e : CompletionCall) → Runtime e.Reply
  | .releaseUploadDestination requestKey videoId objectKey =>
      releaseUploadDestination requestKey videoId objectKey
  | .createDraft request => createDraft lib services request
  | .registerIngested videoId bucketUrl =>
      Prog.issue (RuntimeCall.onVideoIngested videoId bucketUrl)
  | .closeRequest requestKey outcome =>
      Prog.issue (RuntimeCall.recordTerminal requestKey.principal
        requestKey.counter outcome.terminal)
  | .spawnUplinkRm key => Prog.issue (RuntimeCall.spawnUplinkRm key)

/-- An admitted callback in the running service. -/
def runtimeCompletion (lib : DraftCrates) (services : UploadServices)
    (req : CompleteVideoRequest) : Runtime CallbackResult :=
  (completeAdmitted req).interpret (runtimeDeps lib services)

/-- `complete_video`. -/
def completeVideo (lib : DraftCrates) (services : UploadServices)
    (crates : Crates) (env : CallbackEnv)
    (parse : Bytes → Except String CompleteVideoRequest) (headers : HeaderMap)
    (rawBody : Bytes) : Runtime CallbackResult :=
  (completeWithDependencies crates env parse headers rawBody
    completePath).interpret (runtimeDeps lib services)

end VideoStorage.Videogen
