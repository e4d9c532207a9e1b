import VideoStorage.Videogen.Callback

/-!
# Authentication of callbacks

`SignedBy` says what the headers of an admitted request are: `verifyHmac`
accepts just these (`verifyHmac_eq_ok`). A run of either endpoint that calls
anything comes from an admitted request, so it is signed for that endpoint and
that body (`callbacks_authenticated`).
-/

namespace VideoStorage.Videogen

open Foundation Prog

/-- What a callback is signed with. -/
structure Credentials where
  key : HmacKey
  timestamp : Int64
  signatureHex : String
  deriving DecidableEq, Repr

/-- The headers carry a fresh signature of this body for this path, under a
registered key. -/
structure SignedBy (crates : Crates) (env : CallbackEnv) (headers : HeaderMap)
    (rawBody : Bytes) (path : String) (c : Credentials) : Prop where
  keyId : headerStr headers "x-key-id" = some c.key.id
  registered : ∃ registry, env.hmacRegistry = .ok registry ∧
    registry.get c.key.id = some c.key
  timestamp : ∃ text, headerStr headers "x-timestamp" = some text ∧
    parseI64 text = some c.timestamp
  fresh : ((env.now.toInt - c.timestamp.toInt).natAbs : ℤ) ≤
    max env.hmacSkewSecs.toInt 0
  bodyHash : headerStr headers "x-body-sha256" = some (crates.sha256Hex rawBody)
  authorization : headerStr headers "authorization" =
    some (authorizationScheme ++ c.signatureHex)
  mac : crates.hexDecode c.signatureHex = some (crates.hmacSha256 c.key.bytes
    (utf8 (signatureMessage "POST" path c.timestamp
      (crates.sha256Hex rawBody))))

section Callbacks

variable {crates : Crates} {env : CallbackEnv} {headers : HeaderMap}
  {rawBody : Bytes} {path : String} {R : Type}
  {parse : Bytes → Except String R} {userPrincipal keyPrincipal : R → String}

theorem verifyHmac_eq_ok :
    verifyHmac crates env headers rawBody path = .ok () ↔
      ∃ c, SignedBy crates env headers rawBody path c := by
  unfold verifyHmac
  simp only [bind_eq_ok, okOr_eq_ok, ite_error_eq_ok, mapError_eq_ok,
    stripPrefix_eq_some]
  constructor
  · rintro ⟨keyId, hkeyId, text, htext, bodyHash, hhash, auth, hauth, timestamp,
      hparse, sigHex, rfl, heq, registry, hregistry, hverify⟩
    obtain ⟨hfresh, key, hkey, hmac⟩ := verifyCompletionSignature_ok hverify
    obtain rfl : crates.sha256Hex rawBody = bodyHash := not_not.mp heq
    obtain ⟨-, rfl⟩ := HmacKeyRegistry.id_of_get hkey
    exact ⟨⟨key, timestamp, sigHex⟩, hkeyId, ⟨registry, hregistry, hkey⟩,
      ⟨text, htext, hparse⟩, hfresh, hhash, hauth, hmac⟩
  · rintro ⟨c, h⟩
    obtain ⟨registry, hregistry, hkey⟩ := h.registered
    obtain ⟨text, htext, hparse⟩ := h.timestamp
    have hverified : Verified crates registry c.key.id "POST" path c.timestamp
        (crates.sha256Hex rawBody) c.signatureHex env.now env.hmacSkewSecs :=
      ⟨h.fresh, c.key, hkey, h.mac⟩
    exact ⟨_, h.keyId, _, htext, _, h.bodyHash, _, h.authorization, _, hparse,
      _, rfl, not_not.mpr rfl, registry, hregistry, hverified.accepted⟩

/-- **Admitted requests** are signed, parse and agree on the principal. -/
theorem admit_eq_ok {req : R} :
    admitted crates env parse userPrincipal keyPrincipal headers rawBody path =
        .ok req ↔
      (∃ c, SignedBy crates env headers rawBody path c) ∧
        parse rawBody = .ok req ∧ userPrincipal req = keyPrincipal req := by
  unfold admitted
  simp only [bind_eq_ok, mapError_eq_ok, ite_error_eq_ok]
  constructor
  · rintro ⟨⟨⟩, hverify, req', hparse, heq, hreq⟩
    obtain rfl := Except.ok.inj hreq
    exact ⟨verifyHmac_eq_ok.mp hverify, hparse, not_not.mp heq⟩
  · rintro ⟨hsigned, hparse, heq⟩
    exact ⟨(), verifyHmac_eq_ok.mpr hsigned, req, hparse, not_not.mpr heq, rfl⟩

/-! ## Nothing happens without it -/

/-- The request in the body is signed for the path, and names one principal. -/
def Authenticated (crates : Crates) (env : CallbackEnv)
    (parse : Bytes → Except String R) (userPrincipal keyPrincipal : R → String)
    (headers : HeaderMap) (rawBody : Bytes) (path : String) : Prop :=
  (∃ c, SignedBy crates env headers rawBody path c) ∧
    ∃ req, parse rawBody = .ok req ∧ userPrincipal req = keyPrincipal req

/-- A program that returns at once when the request is refused. -/
theorem authenticated_of_call {E : Type} {Rep : E → Type} {α : Type}
    {p : Prog E Rep α} {tr : List (Exchange E Rep)} {out : α}
    (hrefused : ∀ e, admitted crates env parse userPrincipal keyPrincipal headers
      rawBody path = .error e → ∃ a, p = .ret a)
    (h : Runs p tr out) (hcall : tr ≠ []) :
    Authenticated crates env parse userPrincipal keyPrincipal headers rawBody
      path := by
  cases hadmit : admitted crates env parse userPrincipal keyPrincipal headers
      rawBody path with
  | error e =>
      obtain ⟨a, rfl⟩ := hrefused e hadmit
      exact absurd (runs_ret.mp h).1 hcall
  | ok req =>
      obtain ⟨hsigned, hparse, heq⟩ := admit_eq_ok.mp hadmit
      exact ⟨hsigned, req, hparse, heq⟩

theorem complete_authenticated
    {parse : Bytes → Except String CompleteVideoRequest}
    {tr : List (Exchange CompletionCall CompletionCall.Reply)}
    {out : CallbackResult}
    (h : Runs (completeWithDependencies crates env parse headers rawBody path)
      tr out) (hcall : tr ≠ []) :
    Authenticated crates env parse (·.userPrincipal) (·.requestKey.principal)
      headers rawBody path := by
  refine authenticated_of_call (fun e he => ⟨.error e, ?_⟩) h hcall
  unfold completeWithDependencies
  rw [he]
  rfl

theorem refresh_authenticated
    {parse : Bytes → Except String UploadRefreshRequest}
    {tr : List (Exchange RefreshCall RefreshCall.Reply)}
    {out : Except CallbackError UploadRefreshResponse}
    (h : Runs (refreshWithDependencies crates env parse headers rawBody) tr out)
    (hcall : tr ≠ []) :
    Authenticated crates env parse (·.userPrincipal) (·.requestKey.principal)
      headers rawBody refreshPath := by
  refine authenticated_of_call (fun e he => ⟨.error e, ?_⟩) h hcall
  unfold refreshWithDependencies
  rw [he]
  rfl

theorem complete_admitted {parse : Bytes → Except String CompleteVideoRequest}
    {req : CompleteVideoRequest}
    (h : admitted crates env parse (·.userPrincipal) (·.requestKey.principal)
      headers rawBody path = .ok req) :
    completeWithDependencies crates env parse headers rawBody path =
      completeAdmitted req := by
  unfold completeWithDependencies
  rw [h]

/-! ## One message for one callback -/

variable {env' : CallbackEnv} {headers' : HeaderMap} {rawBody' : Bytes}
  {path' : String} {c c' : Credentials}

theorem newline_not_mem_post : '\n' ∉ "POST".toList := by decide

/-- A signature that serves for two callbacks is the MAC of two messages. -/
theorem SignedBy.collision (h : SignedBy crates env headers rawBody path c)
    (h' : SignedBy crates env' headers' rawBody' path' c')
    (hsig : c.signatureHex = c'.signatureHex) (hpath : '\n' ∉ path.toList)
    (hpath' : '\n' ∉ path'.toList)
    (hsha : crates.sha256Hex rawBody = crates.sha256Hex rawBody' →
      rawBody = rawBody')
    (hne : (path, c.timestamp, rawBody) ≠ (path', c'.timestamp, rawBody')) :
    ∃ m m', m ≠ m' ∧
      crates.hmacSha256 c.key.bytes m = crates.hmacSha256 c'.key.bytes m' := by
  refine ⟨_, _, fun hm => hne ?_, Option.some.inj
    (h.mac.symm.trans ((congrArg crates.hexDecode hsig).trans h'.mac))⟩
  obtain ⟨-, rfl, hts, hhash⟩ := signatureMessage_inj newline_not_mem_post
    newline_not_mem_post hpath hpath' (toUTF8_toList_injective hm)
  rw [hts, hsha hhash]

/-- **Authentication before effect**: what either endpoint calls, it calls for
a request signed for its own path and for the bytes it received; and a signature
fits one path, timestamp and body. -/
theorem callbacks_authenticated (crates : Crates) :
    (∀ env parse headers rawBody path tr out,
      Runs (completeWithDependencies crates env parse headers rawBody path)
        tr out → tr ≠ [] →
      Authenticated crates env parse (·.userPrincipal) (·.requestKey.principal)
        headers rawBody path) ∧
    (∀ env parse headers rawBody tr out,
      Runs (refreshWithDependencies crates env parse headers rawBody) tr out →
      tr ≠ [] →
      Authenticated crates env parse (·.userPrincipal) (·.requestKey.principal)
        headers rawBody refreshPath) ∧
    (∀ method method' path path' timestamp timestamp' body body',
      '\n' ∉ method.toList → '\n' ∉ method'.toList →
      '\n' ∉ path.toList → '\n' ∉ path'.toList →
      (crates.sha256Hex body = crates.sha256Hex body' → body = body') →
      utf8 (signatureMessage method path timestamp (crates.sha256Hex body)) =
        utf8 (signatureMessage method' path' timestamp'
          (crates.sha256Hex body')) →
      path = path' ∧ timestamp = timestamp' ∧ body = body') ∧
    (∀ env env' headers headers' body body' path path' c c',
      SignedBy crates env headers body path c →
      SignedBy crates env' headers' body' path' c' →
      c.signatureHex = c'.signatureHex →
      '\n' ∉ path.toList → '\n' ∉ path'.toList →
      (crates.sha256Hex body = crates.sha256Hex body' → body = body') →
      (path, c.timestamp, body) ≠ (path', c'.timestamp, body') →
      ∃ m m', m ≠ m' ∧
        crates.hmacSha256 c.key.bytes m = crates.hmacSha256 c'.key.bytes m') ∧
    completePath ≠ refreshPath ∧ '\n' ∉ completePath.toList ∧
      '\n' ∉ refreshPath.toList := by
  refine ⟨?_, ?_, ?_, ?_, by decide, by decide, by decide⟩
  · intro env parse headers rawBody path tr out h hcall
    exact complete_authenticated h hcall
  · intro env parse headers rawBody tr out h hcall
    exact refresh_authenticated h hcall
  · intro method method' path path' timestamp timestamp' body body' hm hm' hp
      hp' hsha h
    obtain ⟨-, hpath, hts, hhash⟩ := signatureMessage_inj hm hm' hp hp'
      (toUTF8_toList_injective h)
    exact ⟨hpath, hts, hsha hhash⟩
  · intro env env' headers headers' body body' path path' c c' h h' hsig hp hp'
      hsha hne
    exact h.collision h' hsig hp hp' hsha hne

end Callbacks

/-! Two callbacks for one request, signed as Vast signs them. -/

/-- The bytes of a text in ASCII. -/
def ascii (s : String) : Bytes := s.toList.map fun c => UInt8.ofNat c.toNat

/-- A body with its hash and the MAC of its message. -/
structure SignedBody where
  rawBody : Bytes
  bodyHash : String
  mac : Bytes
  signatureHex : String

namespace SignedBody

variable (b : SignedBody)

/-- The hashes of this body, the rest idle. -/
def crates : Crates where
  principalFromStr := .ok
  decodeBase64 _ := none
  sha256Hex _ := b.bodyHash
  hmacSha256 _ _ := b.mac
  hexEncode _ := b.signatureHex
  hexDecode _ := some b.mac
  jsonText _ := ""
  parseJson _ := .error "EOF while parsing a value at line 1 column 0"
  bodyText _ := ""
  statusText _ := "200 OK"

def credentials : Credentials where
  key := ⟨"v1", utf8 "test-auth-token-secret"⟩
  timestamp := 1777000000
  signatureHex := b.signatureHex

def env : CallbackEnv where
  hmacRegistry := .ok ⟨[b.credentials.key], List.pairwise_singleton _ _⟩
  hmacSkewSecs := 120
  now := 1777000001

def headers : HeaderMap := [
  ("x-key-id", ascii "v1"), ("x-timestamp", ascii "1777000000"),
  ("x-body-sha256", ascii b.bodyHash),
  ("authorization", ascii ("HMAC-SHA256 " ++ b.signatureHex))]

end SignedBody

def failureBody : SignedBody where
  rawBody := utf8 ("\x7b\"request_key\":\x7b\"principal\":\"aaaaa-aa\"," ++
    "\"counter\":17\x7d,\"user_principal\":\"aaaaa-aa\"," ++
    "\"request_id\":\"11111111-1111-1111-1111-111111111111\"," ++
    "\"provider\":\"Ltx2\",\"status\":\"failure\"," ++
    "\"failure_reason\":\"generation timed out\"\x7d")
  bodyHash := "4d4a69161ea44582dcd1792a6d3c463b01757099cd3cdbdda8adc51302f0e112"
  mac := [237, 214, 250, 207, 212, 49, 233, 216, 3, 32, 86, 127, 28, 59, 242,
    176, 103, 123, 246, 187, 215, 201, 62, 222, 145, 190, 209, 27, 31, 43, 3, 10]
  signatureHex :=
    "edd6facfd431e9d80320567f1c3bf2b0677bf6bbd7c93ede91bed11b1f2b030a"

def successBody : SignedBody where
  rawBody := utf8 ("\x7b\"bucket_url\":" ++
    "\"https://bucket.example.test/video-17.mp4\"," ++
    "\"object_key\":\"generated/video-17.mp4\",\"provider\":\"Ltx2\"," ++
    "\"request_id\":\"11111111-1111-1111-1111-111111111111\"," ++
    "\"request_key\":\x7b\"counter\":17,\"principal\":\"aaaaa-aa\"\x7d," ++
    "\"status\":\"success\",\"user_principal\":\"aaaaa-aa\"," ++
    "\"video_id\":\"video-17\"\x7d")
  bodyHash := "69c827ce94b3ce4cde57a65b12bbd15a6333e430fd0a4670c44ce35687a0e44a"
  mac := [51, 25, 247, 142, 44, 10, 159, 240, 5, 223, 180, 53, 46, 131, 151, 205,
    100, 231, 237, 166, 61, 140, 178, 127, 106, 193, 178, 128, 7, 176, 187, 181]
  signatureHex :=
    "3319f78e2c0a9ff005dfb4352e8397cd64e7eda63d8cb27f6ac1b28007b0bbb5"

def failureRequest : CompleteVideoRequest where
  requestKey := ⟨"aaaaa-aa", 17⟩
  userPrincipal := "aaaaa-aa"
  requestId := "11111111-1111-1111-1111-111111111111"
  status := .failure
  bucketUrl := none
  videoId := none
  objectKey := none
  failureReason := some "generation timed out"
  encryptedIdentity := none
  stagedImageKey := none

def successRequest : CompleteVideoRequest where
  requestKey := ⟨"aaaaa-aa", 17⟩
  userPrincipal := "aaaaa-aa"
  requestId := "11111111-1111-1111-1111-111111111111"
  status := .success
  bucketUrl := some "https://bucket.example.test/video-17.mp4"
  videoId := some "video-17"
  objectKey := some "generated/video-17.mp4"
  failureReason := none
  encryptedIdentity := none
  stagedImageKey := none

theorem failureBody_signed : SignedBy failureBody.crates failureBody.env
    failureBody.headers failureBody.rawBody completePath
    failureBody.credentials where
  keyId := by decide
  registered := ⟨_, rfl, rfl⟩
  timestamp := ⟨"1777000000", by decide, by decide⟩
  fresh := by decide
  bodyHash := by decide +kernel
  authorization := by decide +kernel
  mac := rfl

theorem successBody_signed : SignedBy successBody.crates successBody.env
    successBody.headers successBody.rawBody completePath
    successBody.credentials where
  keyId := by decide
  registered := ⟨_, rfl, rfl⟩
  timestamp := ⟨"1777000000", by decide, by decide⟩
  fresh := by decide
  bodyHash := by decide +kernel
  authorization := by decide +kernel
  mac := rfl

theorem callbacks_authenticated_failure :
    Authenticated failureBody.crates failureBody.env
      (fun _ => .ok failureRequest) (·.userPrincipal) (·.requestKey.principal)
      failureBody.headers failureBody.rawBody completePath := by
  have hadmit : admitted failureBody.crates failureBody.env
      (fun _ => .ok failureRequest) (·.userPrincipal) (·.requestKey.principal)
      failureBody.headers failureBody.rawBody completePath = .ok failureRequest :=
    admit_eq_ok.mpr ⟨⟨_, failureBody_signed⟩, rfl, rfl⟩
  have hrun : Runs (completeWithDependencies failureBody.crates failureBody.env
      (fun _ => .ok failureRequest) failureBody.headers failureBody.rawBody
      completePath)
      [⟨.releaseUploadDestination ⟨"aaaaa-aa", 17⟩ none none, .ok ()⟩,
        ⟨.closeRequest ⟨"aaaaa-aa", 17⟩ (.failed "generation timed out"), ()⟩]
      (.ok 200) := by
    rw [complete_admitted hadmit]
    exact .call (.call (.ret _))
  exact (callbacks_authenticated failureBody.crates).1 _ _ _ _ _ _ _ hrun
    (List.cons_ne_nil _ _)

end VideoStorage.Videogen
