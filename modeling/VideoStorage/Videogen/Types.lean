import VideoStorage.Foundation.Json

/-!
# Video generation: data

The requests, payloads and errors that pass between the generate handler, the
request store, the moderation service and Vast. What the service takes from
crates (parsing, hashing, rendering) is a record of functions, `Crates`.
-/

namespace VideoStorage.Videogen

open Foundation

abbrev Bytes : Type := List UInt8

def utf8 (s : String) : Bytes := s.toUTF8.toList

/-- What the service computes with the help of crates. -/
structure Crates where
  /-- The principal a text names, printed back. -/
  principalFromStr : String → Except String String
  decodeBase64 : String → Option Bytes
  sha256Hex : Bytes → String
  /-- HMAC-SHA256 of a message under a key. -/
  hmacSha256 : Bytes → Bytes → Bytes
  hexEncode : Bytes → String
  hexDecode : String → Option Bytes
  jsonText : Json → String
  parseJson : Bytes → Except String Json
  /-- A response body as text, whatever its bytes. -/
  bodyText : Bytes → String
  statusText : ℕ → String

/-! ## The request -/

inductive VideoUploadHandling
  | client
  | serverDraft
  deriving DecidableEq, Repr

inductive GenerateTokenType
  | sats
  | dolr
  | free
  | yralProSubscription
  deriving DecidableEq, Repr

def GenerateTokenType.debug : GenerateTokenType → String
  | .sats => "Sats"
  | .dolr => "Dolr"
  | .free => "Free"
  | .yralProSubscription => "YralProSubscription"

structure ImageInput where
  data : String
  mimeType : String
  deriving DecidableEq, Repr

inductive ImageSource
  | base64 (image : ImageInput)
  | url (url : String)
  deriving DecidableEq, Repr

structure GenerateRequest where
  userId : String
  identityPrincipal : String
  uploadHandling : VideoUploadHandling
  /-- Only encrypted, never looked into. -/
  delegatedIdentityWire : Json
  prompt : String
  modelId : String
  tokenType : Option GenerateTokenType
  negativePrompt : Option String
  image : Option ImageSource
  aspectRatio : Option String
  durationSeconds : Option UInt8
  resolution : Option String
  generateAudio : Option Bool
  seed : Option UInt64
  extraParams : Json.Map

structure GenerateConfig where
  vastImageStageTimeoutSecs : UInt64
  callbackUrl : String
  uploadUrlRefreshUrl : Option String

structure RateLimiterRequestKey where
  principal : String
  counter : UInt64
  deriving DecidableEq, Repr

structure GenerateResponse where
  operationId : String
  provider : String
  requestKey : RateLimiterRequestKey
  deriving DecidableEq, Repr

/-! ## Moderation -/

inductive ModerationSubject
  | textOnly
  | imageUrl (url : String)
  deriving DecidableEq, Repr

structure ModerationInput where
  requestId : String
  userPrincipal : String
  prompt : String
  subject : ModerationSubject
  deriving DecidableEq, Repr

inductive ModerationDecision
  | safe
  | notSafe
  deriving DecidableEq, Repr

inductive ModerationError
  | requestFailed (message : String)
  deriving DecidableEq, Repr

/-! ## Submission to Vast -/

structure UploadDestination where
  videoId : String
  objectKey : String
  uploadUrl : String
  expiresAt : ℤ
  bucketUrl : Option String
  /-- Absent when encryption is not configured. -/
  encryptedIdentity : Option String
  deriving DecidableEq, Repr

structure VastSubmitRequest where
  requestId : String
  requestKey : RateLimiterRequestKey
  userPrincipal : String
  modelId : String
  workflowJson : Json
  input : Json
  callbackUrl : String
  uploadUrlRefreshUrl : Option String
  uploadDestination : UploadDestination
  /-- Storage key of the staged input image, for image-to-video requests. -/
  stagedImageKey : Option String

structure VastSubmitAccepted where
  requestId : String
  status : String
  acceptedAt : ℤ
  deriving DecidableEq, Repr

/-! ## Errors -/

inductive UploadDestinationError
  | unavailable (message : String)
  deriving DecidableEq, Repr

def UploadDestinationError.text : UploadDestinationError → String
  | .unavailable m => "upload destination unavailable: " ++ m

inductive ImageStageError
  | timeout
  | failed (message : String)
  deriving DecidableEq, Repr

def ImageStageError.text : ImageStageError → String
  | .timeout => "image staging timed out"
  | .failed m => "image staging failed: " ++ m

inductive WorkflowError
  | unsupported (model : String)
  | unavailable (message : String)
  deriving DecidableEq, Repr

def WorkflowError.text : WorkflowError → String
  | .unsupported m => "unsupported workflow: " ++ m
  | .unavailable m => "workflow unavailable: " ++ m

inductive VastSubmitError
  | buildRequest (message : String)
  | serializeRequest (message : String)
  | requestFailed (message : String)
  deriving DecidableEq, Repr

def VastSubmitError.text : VastSubmitError → String
  | .buildRequest m => "failed to build Vast submit request: " ++ m
  | .serializeRequest m => "failed to serialize Vast submit request: " ++ m
  | .requestFailed m => "Vast submit request failed: " ++ m

inductive GenerateError
  | identityMismatch
  | invalidInput (message : String)
  | moderation (e : ModerationError)
  | uploadDestination (e : UploadDestinationError)
  | imageStage (e : ImageStageError)
  | workflow (e : WorkflowError)
  | vast (e : VastSubmitError)
  deriving DecidableEq, Repr

end VideoStorage.Videogen
