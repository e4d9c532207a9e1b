import VideoStorage.Foundation.Fallible
import VideoStorage.Foundation.Program
import VideoStorage.Foundation.Text
import VideoStorage.Videogen.Hmac

/-!
# Signed callbacks

The two endpoints that Vast calls: `complete` reports the end of a generation,
`upload-url/refresh` asks for another upload URL. Either admits a request before
it does anything: the headers sign the body for the endpoint's own path, the
body parses, and its two principals agree (`admitted`). What an admitted request
does is a program over the dependencies of its endpoint.
-/

namespace VideoStorage.Videogen

open Foundation Prog

/-! ## Headers -/

/-- Names in lower case, in the order the headers came. -/
abbrev HeaderMap : Type := List (String × Bytes)

def isVisibleAscii (b : UInt8) : Bool := (32 ≤ b && b < 127) || b == 9

/-- `HeaderValue::to_str`. -/
def headerText (value : Bytes) : Option String :=
  if value.all isVisibleAscii then
    some (String.ofList (value.map fun b => Char.ofNat b.toNat))
  else none

/-- The first header of the name counts. -/
def headerStr (headers : HeaderMap) (name : String) : Option String :=
  (headers.find? (·.1 == name)).bind fun h => headerText h.2

/-! ## Errors -/

/-- The status beside a `CompletionError` or a `RefreshError`. -/
structure CallbackError where
  status : ℕ
  code : String
  message : String
  deriving DecidableEq, Repr

namespace CallbackError

def unauthorized (message : String) : CallbackError :=
  ⟨401, "unauthorized", message⟩

def conflict (message : String) : CallbackError := ⟨409, "conflict", message⟩

def internal (message : String) : CallbackError :=
  ⟨503, "internal_error", message⟩

def badRequest (message : String) : CallbackError :=
  ⟨400, "bad_request", message⟩

end CallbackError

def HmacError.callbackText : HmacError → String
  | .unknownKeyId => "unknown key id"
  | .timestampOutsideSkew => "timestamp outside allowed skew"
  | .invalidSignature => "invalid signature"
  | other => other.text

/-! ## Verification -/

/-- What verification reads besides the request. -/
structure CallbackEnv where
  hmacRegistry : Except String HmacKeyRegistry
  hmacSkewSecs : Int64
  now : Int64

def authorizationScheme : String := "HMAC-SHA256 "

/-- `verify_hmac` of either handler; they differ in the path alone. -/
def verifyHmac (crates : Crates) (env : CallbackEnv) (headers : HeaderMap)
    (rawBody : Bytes) (path : String) : Except CallbackError Unit := do
  let keyId ← okOr (headerStr headers "x-key-id")
    (.unauthorized "missing X-Key-Id header")
  let timestampStr ← okOr (headerStr headers "x-timestamp")
    (.unauthorized "missing X-Timestamp header")
  let bodyHash ← okOr (headerStr headers "x-body-sha256")
    (.unauthorized "missing X-Body-SHA256 header")
  let auth ← okOr (headerStr headers "authorization")
    (.unauthorized "missing Authorization header")
  let timestamp ← okOr (parseI64 timestampStr)
    (.unauthorized "invalid X-Timestamp")
  let sigHex ← okOr (stripPrefix authorizationScheme auth)
    (.unauthorized "Authorization must be HMAC-SHA256 <hex>")
  if crates.sha256Hex rawBody ≠ bodyHash then
    .error (.unauthorized "body SHA-256 mismatch")
  else do
    let registry ← env.hmacRegistry.mapError fun e =>
      CallbackError.internal ("HMAC registry error: " ++ e)
    (verifyCompletionSignature crates registry keyId "POST" path timestamp
      bodyHash sigHex env.now env.hmacSkewSecs).mapError fun e =>
        CallbackError.unauthorized e.callbackText

/-- The first steps of either handler, over the request it parses. -/
def admitted {R : Type} (crates : Crates) (env : CallbackEnv)
    (parse : Bytes → Except String R) (userPrincipal keyPrincipal : R → String)
    (headers : HeaderMap) (rawBody : Bytes) (path : String) :
    Except CallbackError R := do
  verifyHmac crates env headers rawBody path
  let req ← (parse rawBody).mapError fun e =>
    CallbackError.badRequest ("invalid JSON body: " ++ e)
  if userPrincipal req ≠ keyPrincipal req then
    .error (.conflict "user_principal does not match request_key.principal")
  else .ok req

/-! ## Completion -/

inductive CompletionStatus
  | success
  | failure
  deriving DecidableEq, Repr

structure CompleteVideoRequest where
  requestKey : RateLimiterRequestKey
  userPrincipal : String
  requestId : String
  status : CompletionStatus
  bucketUrl : Option String
  videoId : Option String
  objectKey : Option String
  failureReason : Option String
  encryptedIdentity : Option String
  stagedImageKey : Option String
  deriving DecidableEq, Repr

structure DraftCreationRequest where
  requestId : String
  requestKey : RateLimiterRequestKey
  userPrincipal : String
  videoId : String
  objectKey : String
  encryptedIdentity : Option String
  deriving DecidableEq, Repr

inductive DraftServiceError
  | unavailable (message : String)
  | rejected (message : String)
  deriving DecidableEq, Repr

def DraftServiceError.text : DraftServiceError → String
  | .unavailable m => "draft service unavailable: " ++ m
  | .rejected m => "draft service rejected request: " ++ m

inductive RequestOutcome
  | complete (videoId bucketUrl : String)
  | failed (reason : String)
  deriving DecidableEq, Repr

/-- `CompletionDeps`, and the deletion that is spawned and not waited for. -/
inductive CompletionCall
  | releaseUploadDestination (requestKey : RateLimiterRequestKey)
      (videoId objectKey : Option String)
  | createDraft (request : DraftCreationRequest)
  | registerIngested (videoId bucketUrl : String)
  | closeRequest (requestKey : RateLimiterRequestKey) (outcome : RequestOutcome)
  | spawnUplinkRm (key : String)

@[reducible] def CompletionCall.Reply : CompletionCall → Type
  | .releaseUploadDestination _ _ _ => Except String Unit
  | .createDraft _ => Except DraftServiceError Unit
  | .registerIngested _ _ => Unit
  | .closeRequest _ _ => Unit
  | .spawnUplinkRm _ => Unit

abbrev Completion : Type → Type := Prog CompletionCall CompletionCall.Reply

/-- A status code or an error. -/
abbrev CallbackResult : Type := Except CallbackError ℕ

namespace Completion

abbrev releaseUploadDestination (requestKey : RateLimiterRequestKey)
    (videoId objectKey : Option String) : Completion (Except String Unit) :=
  Prog.issue (CompletionCall.releaseUploadDestination requestKey videoId objectKey)

abbrev createDraft (request : DraftCreationRequest) :
    Completion (Except DraftServiceError Unit) :=
  Prog.issue (CompletionCall.createDraft request)

abbrev registerIngested (videoId bucketUrl : String) : Completion Unit :=
  Prog.issue (CompletionCall.registerIngested videoId bucketUrl)

abbrev closeRequest (requestKey : RateLimiterRequestKey)
    (outcome : RequestOutcome) : Completion Unit :=
  Prog.issue (CompletionCall.closeRequest requestKey outcome)

abbrev spawnUplinkRm (key : String) : Completion Unit :=
  Prog.issue (CompletionCall.spawnUplinkRm key)

end Completion

/-- The bucket URL, video id and object key a success has to report. -/
def successFields (req : CompleteVideoRequest) :
    Except CallbackError (String × String × String) := do
  let bucketUrl ← okOr req.bucketUrl
    (.badRequest "bucket_url required for success")
  let videoId ← okOr req.videoId (.badRequest "video_id required for success")
  let objectKey ← okOr req.objectKey
    (.badRequest "object_key required for success")
  .ok (bucketUrl, videoId, objectKey)

def draftRequest (req : CompleteVideoRequest) (videoId objectKey : String) :
    DraftCreationRequest where
  requestId := req.requestId
  requestKey := req.requestKey
  userPrincipal := req.userPrincipal
  videoId := videoId
  objectKey := objectKey
  encryptedIdentity := req.encryptedIdentity

def handleSuccessCompletion (req : CompleteVideoRequest) :
    Completion CallbackResult :=
  match successFields req with
  | .error e => pure (.error e)
  | .ok (bucketUrl, videoId, objectKey) => do
      match ← Completion.createDraft (draftRequest req videoId objectKey) with
      | .error e => pure (.error (.internal ("draft service: " ++ e.text)))
      | .ok () => do
          Completion.registerIngested videoId bucketUrl
          Completion.closeRequest req.requestKey (.complete videoId bucketUrl)
          pure (.ok 200)

/-- A release that fails is logged. -/
def handleFailureCompletion (req : CompleteVideoRequest) :
    Completion CallbackResult := do
  let _ ← Completion.releaseUploadDestination req.requestKey req.videoId
    req.objectKey
  Completion.closeRequest req.requestKey
    (.failed (req.failureReason.getD "unknown failure reason"))
  pure (.ok 200)

def handleCompletion (req : CompleteVideoRequest) : Completion CallbackResult :=
  match req.status with
  | .success => handleSuccessCompletion req
  | .failure => handleFailureCompletion req

/-- The staged image is deleted whatever came of the request. -/
def deleteStagedImage (req : CompleteVideoRequest) : Completion Unit :=
  match req.stagedImageKey with
  | some key => Completion.spawnUplinkRm key
  | none => pure ()

def completeAdmitted (req : CompleteVideoRequest) :
    Completion CallbackResult := do
  let result ← handleCompletion req
  deleteStagedImage req
  pure result

def completeWithDependencies (crates : Crates) (env : CallbackEnv)
    (parse : Bytes → Except String CompleteVideoRequest) (headers : HeaderMap)
    (rawBody : Bytes) (path : String) : Completion CallbackResult :=
  match admitted crates env parse (·.userPrincipal) (·.requestKey.principal)
      headers rawBody path with
  | .error e => pure (.error e)
  | .ok req => completeAdmitted req

/-- The path `complete_video` passes. -/
def completePath : String := "/api/v2/videogen/complete"

/-! ## Refresh -/

structure UploadRefreshRequest where
  requestKey : RateLimiterRequestKey
  userPrincipal : String
  requestId : String
  videoId : String
  objectKey : String
  deriving DecidableEq, Repr

structure UploadRefreshResponse where
  videoId : String
  objectKey : String
  uploadUrl : String
  expiresAt : ℤ
  deriving DecidableEq, Repr

/-- `UploadRefreshDeps`. -/
inductive RefreshCall
  | generateFreshUploadUrl (requestKey : RateLimiterRequestKey)
      (videoId objectKey : String)

@[reducible] def RefreshCall.Reply : RefreshCall → Type
  | .generateFreshUploadUrl _ _ _ => Except String UploadDestination

abbrev Refresh : Type → Type := Prog RefreshCall RefreshCall.Reply

def refreshAdmitted (req : UploadRefreshRequest) :
    Refresh (Except CallbackError UploadRefreshResponse) := do
  match ← Prog.issue (RefreshCall.generateFreshUploadUrl req.requestKey
      req.videoId req.objectKey) with
  | .error e => pure (.error (.internal e))
  | .ok destination => pure (.ok {
      videoId := destination.videoId
      objectKey := destination.objectKey
      uploadUrl := destination.uploadUrl
      expiresAt := destination.expiresAt })

def refreshPath : String := "/api/v2/videogen/upload-url/refresh"

def refreshWithDependencies (crates : Crates) (env : CallbackEnv)
    (parse : Bytes → Except String UploadRefreshRequest) (headers : HeaderMap)
    (rawBody : Bytes) : Refresh (Except CallbackError UploadRefreshResponse) :=
  match admitted crates env parse (·.userPrincipal) (·.requestKey.principal)
      headers rawBody refreshPath with
  | .error e => pure (.error e)
  | .ok req => refreshAdmitted req

end VideoStorage.Videogen
