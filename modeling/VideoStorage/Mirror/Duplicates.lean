import VideoStorage.Foundation.Int64
import VideoStorage.Foundation.Percent
import VideoStorage.Foundation.Fallible

/-!
# The duplicates route

`MirrorClient::video_duplicates` puts an id into a path, signs that path and sends
it; the service routes on the path that arrives, checks the signature against
it and decodes the last segment. The id takes three forms on the way: as it is
signed, as it is sent, and as it is decoded.

What the client sends for a path and the MAC come from crates (`HttpCrates`).
-/

namespace VideoStorage.Mirror

open Foundation

/-- reqwest and its URLs, HMAC-SHA256, hex. -/
structure HttpCrates where
  /-- A character that may stand in the path of a URL. -/
  allowed : Char → Bool
  /-- The path in the request line, for a URL with this text after the host. -/
  requestPath : String → String
  requestQuery : String → Option String
  hmacSha256 : List UInt8 → List UInt8 → List UInt8
  hexEncode : List UInt8 → String
  hexDecode : String → Option (List UInt8)

/-- `.` and `..`, also when the dots are escaped. -/
def isDotSegment (segment : List Char) : Bool :=
  (["." , "..", "%2e", ".%2e", "%2e.", "%2e%2e"].map String.toList).contains
    (segment.map Char.toLower)

/-- A path that a URL keeps as it is. -/
structure NormalPath (allowed : Char → Bool) (path : String) : Prop where
  allowed : ∀ c ∈ path.toList, allowed c = true
  noDots : ∀ segment ∈ path.toList.splitOn '/', isDotSegment segment = false

/-- What the crates document: a character that is not allowed in a path is
escaped, `?` and `#` end the path, dot segments are resolved, and a normal path
is sent as it is. -/
structure HttpCrates.Documented (crates : HttpCrates) : Prop where
  sent : ∀ path, NormalPath crates.allowed (crates.requestPath path)
  kept : ∀ path, path.toList.head? = some '/' → NormalPath crates.allowed path →
    crates.requestPath path = path
  cut : crates.allowed '?' = false ∧ crates.allowed '#' = false
  letters : ∀ c ∈ "/mirror/duplicates/".toList, crates.allowed c = true
  hex : ∀ bs, crates.hexDecode (crates.hexEncode bs) = some bs

/-! ## The client -/

/-- A header's value as text, `none` when it has bytes that are no visible
ASCII. -/
abbrev HeaderValue : Type := Option String

structure Request where
  method : String
  /-- `uri().path()`, as it arrived. -/
  path : String
  query : Option String
  headers : List (String × HeaderValue)

def Request.header (request : Request) (name : String) : Option HeaderValue :=
  (request.headers.find? (·.1 == name)).map Prod.snd

def signedMessage (method path timestamp : String) : String :=
  method ++ "\n" ++ path ++ "\n" ++ timestamp

section Client

variable (crates : HttpCrates) (secret : String)

/-- The timestamp and the signature; `now` is in seconds. -/
def sign (now : ℕ) (method path : String) : String × String :=
  let ts := decimalText now
  let message := signedMessage method path ts
  (ts, crates.hexEncode (crates.hmacSha256 (utf8Bytes secret) (utf8Bytes message)))

/-- The request of `video_duplicates`. -/
def videoDuplicatesRequest (now : ℕ) (videoId : String) : Request :=
  let path := "/mirror/duplicates/" ++ videoId
  let (ts, sig) := sign crates secret now "GET" path
  { method := "GET"
    path := crates.requestPath path
    query := crates.requestQuery path
    headers := [("x-timestamp", some ts),
      ("authorization", some ("HMAC-SHA256 " ++ sig))] }

end Client

/-! ## The service -/

def badRequest : ℕ := 400

def unauthorized : ℕ := 401

/-- `split_once('=')` on the pairs of a query; the last pair of a name counts. -/
def queryValue (query name : String) : Option String :=
  (query.toList.splitOn '&').foldl
    (fun found pair =>
      let key := pair.takeWhile (· ≠ '=')
      if key.length < pair.length ∧ key = name.toList then
        some (String.ofList (pair.drop (key.length + 1)))
      else found)
    none

section Service

variable (crates : HttpCrates) (secret : String)

/-- The timestamp and the signature of a request, from its headers or else from
its query. -/
def credentials (request : Request) : Except ℕ (String × String) :=
  match request.header "x-timestamp", request.header "authorization" with
  | some tsHdr, some authHdr => do
      let ts ← okOr tsHdr badRequest
      let auth ← okOr authHdr badRequest
      let sig ← okOr (stripPrefix "HMAC-SHA256 " auth) unauthorized
      .ok (ts, sig)
  | _, _ =>
      let query := request.query.getD ""
      match queryValue query "timestamp", queryValue query "sig" with
      | some ts, some sig => .ok (ts, sig)
      | _, _ => .error unauthorized

/-- `now` is `as_secs() as i64`; a difference out of range wraps. -/
def authorize (now : Int64) (request : Request) : Except ℕ Unit := do
  let (tsStr, sigHex) ← credentials request
  let ts ← okOr (parseI64 tsStr) badRequest
  if 300 < (now - ts).abs then .error unauthorized
  else
    let sigBytes ← okOr (crates.hexDecode sigHex) badRequest
    let message := signedMessage request.method request.path tsStr
    if crates.hmacSha256 (utf8Bytes secret) (utf8Bytes message) = sigBytes then .ok ()
    else .error unauthorized

/-- `/mirror/duplicates/{video_id}`: one segment, not empty, as it arrived. -/
def routeSegment (path : String) : Option String :=
  (stripPrefix "/mirror/duplicates/" path).filter fun segment =>
    segment ≠ "" ∧ '/' ∉ segment.toList

/-- `Path<String>`: the segment percent-decoded, if that is UTF-8. -/
def pathParameter (segment : String) : Option String :=
  fromUtf8 (percentDecode (utf8Bytes segment))

inductive Refusal
  | otherRoute
  | status (code : ℕ)
  deriving DecidableEq, Repr

/-- The id with which a request reaches the handler `video_duplicates`. -/
def serve (now : Int64) (request : Request) : Except Refusal String := do
  let segment ← okOr (routeSegment request.path) .otherRoute
  (authorize crates secret now request).mapError .status
  okOr (pathParameter segment) (.status badRequest)

end Service

/-! ## Ids that arrive -/

/-- **An id that is the same in all three forms**: one segment, of characters that
a URL keeps, that is neither a dot segment nor holds an escape. -/
structure PlainId (crates : HttpCrates) (videoId : String) : Prop where
  ne_empty : videoId ≠ ""
  segment : '/' ∉ videoId.toList
  allowed : ∀ c ∈ videoId.toList, crates.allowed c = true
  noDots : isDotSegment videoId.toList = false
  noEscape : ¬ HasEscape (utf8Bytes videoId)

/-- The service's clock is within five minutes of the client's. -/
structure RightClock (sentAt : ℕ) (now : Int64) : Prop where
  range : sentAt < 2 ^ 63
  near : (now.toInt - sentAt).natAbs ≤ 300

/-- The MAC tells the path that is signed from the one that is sent. -/
def TellsApart (crates : HttpCrates) (secret : String) (sentAt : ℕ) (path : String) :
    Prop :=
  crates.hmacSha256 (utf8Bytes secret)
      (utf8Bytes (signedMessage "GET" (crates.requestPath path) (decimalText sentAt))) =
    crates.hmacSha256 (utf8Bytes secret)
      (utf8Bytes (signedMessage "GET" path (decimalText sentAt))) →
  crates.requestPath path = path

section Arrives

variable {crates : HttpCrates} {secret path videoId segment : String} {sentAt : ℕ}
  {now : Int64}

theorem routeSegment_eq_some :
    routeSegment path = some segment ↔
      path = "/mirror/duplicates/" ++ segment ∧ segment ≠ "" ∧
        '/' ∉ segment.toList := by
  unfold routeSegment
  rw [Option.filter_eq_some_iff, stripPrefix_eq_some, decide_eq_true_eq]

theorem pathParameter_eq_self :
    pathParameter videoId = some videoId ↔ ¬ HasEscape (utf8Bytes videoId) := by
  unfold pathParameter
  rw [fromUtf8_eq_some, ← percentDecode_eq_self, eq_comm]

/-- The path of an id is normal when the id's characters are kept and it is no
dot segment. -/
theorem normalPath_iff (hdoc : crates.Documented) (hsegment : '/' ∉ videoId.toList) :
    NormalPath crates.allowed ("/mirror/duplicates/" ++ videoId) ↔
      (∀ c ∈ videoId.toList, crates.allowed c = true) ∧
        isDotSegment videoId.toList = false := by
  -- the id is the last of four segments
  have hsegments : ("/mirror/duplicates/" ++ videoId).toList.splitOn '/' =
      ["".toList, "mirror".toList, "duplicates".toList, videoId.toList] := by
    rw [String.toList_append]
    show (([] ++ '/' :: ("mirror".toList ++ '/' :: ("duplicates".toList ++
      '/' :: videoId.toList)))).splitOn '/' = _
    rw [List.splitOn_append_cons_self_of_not_mem (by decide),
      List.splitOn_append_cons_self_of_not_mem (by decide),
      List.splitOn_append_cons_self_of_not_mem (by decide),
      List.splitOn_eq_singleton hsegment]
    rfl
  constructor
  · intro h
    refine ⟨fun c hc => h.allowed c ?_, h.noDots _ ?_⟩
    · rw [String.toList_append]
      exact List.mem_append_right _ hc
    · rw [hsegments]
      simp
  · rintro ⟨hallowed, hdots⟩
    refine ⟨?_, ?_⟩
    · intro c hc
      rw [String.toList_append] at hc
      rcases List.mem_append.mp hc with hc | hc
      · exact hdoc.letters c hc
      · exact hallowed c hc
    · rw [hsegments]
      intro segment hmem
      simp only [List.mem_cons, List.not_mem_nil, or_false] at hmem
      rcases hmem with rfl | rfl | rfl | rfl
      · decide
      · decide
      · decide
      · exact hdots

theorem credentials_request :
    credentials (videoDuplicatesRequest crates secret sentAt videoId) =
      .ok (sign crates secret sentAt "GET" ("/mirror/duplicates/" ++ videoId)) := by
  have hsig : stripPrefix "HMAC-SHA256 " ("HMAC-SHA256 " ++
      (sign crates secret sentAt "GET" ("/mirror/duplicates/" ++ videoId)).2) =
        some (sign crates secret sentAt "GET" ("/mirror/duplicates/" ++ videoId)).2 :=
    stripPrefix_eq_some.mpr rfl
  have hts : (videoDuplicatesRequest crates secret sentAt videoId).header "x-timestamp" =
      some (some (sign crates secret sentAt "GET"
        ("/mirror/duplicates/" ++ videoId)).1) := rfl
  have hauth : (videoDuplicatesRequest crates secret sentAt videoId).header
      "authorization" = some (some ("HMAC-SHA256 " ++
        (sign crates secret sentAt "GET" ("/mirror/duplicates/" ++ videoId)).2)) := rfl
  unfold credentials
  rw [hts, hauth]
  dsimp only
  rw [bind_eq_ok]
  refine ⟨_, rfl, ?_⟩
  rw [bind_eq_ok]
  refine ⟨_, rfl, ?_⟩
  rw [bind_eq_ok]
  exact ⟨_, okOr_eq_ok.mpr hsig, rfl⟩

/-- What a request of the client is checked for: the MAC of the path that
arrives is the one of the path that was signed. -/
theorem authorize_eq_ok (hdoc : crates.Documented) (hclock : RightClock sentAt now) :
    authorize crates secret now (videoDuplicatesRequest crates secret sentAt videoId) =
        .ok () ↔
      crates.hmacSha256 (utf8Bytes secret) (utf8Bytes (signedMessage "GET"
          (crates.requestPath ("/mirror/duplicates/" ++ videoId)) (decimalText sentAt))) =
        crates.hmacSha256 (utf8Bytes secret) (utf8Bytes (signedMessage "GET"
          ("/mirror/duplicates/" ++ videoId) (decimalText sentAt))) := by
  have hpos : (0 : ℤ) ≤ sentAt := Int.natCast_nonneg sentAt
  have hrange : (sentAt : ℤ) < 2 ^ 63 := by exact_mod_cast hclock.range
  have hsent : (Int64.ofInt sentAt).toInt = sentAt :=
    Int64.toInt_ofInt_of_le (by omega) hrange
  have hinTime : ¬ 300 < (now - .ofInt sentAt).abs := by
    have hnear := hclock.near
    rw [Int64.lt_iff_toInt_lt, toInt_abs_sub (by rw [hsent]; omega), hsent]
    show ¬ (300 : ℤ) < _
    omega
  unfold authorize
  rw [credentials_request]
  show (do
    let ts ← okOr (parseI64 (decimalText sentAt)) badRequest
    if 300 < (now - ts).abs then .error unauthorized
    else
      let sigBytes ← okOr (crates.hexDecode (crates.hexEncode _)) badRequest
      if _ = sigBytes then .ok () else .error unauthorized : Except ℕ Unit) = _ ↔ _
  rw [parseI64_decimalText hclock.range, hdoc.hex]
  show (if 300 < (now - .ofInt sentAt).abs then Except.error unauthorized
    else if _ then Except.ok () else Except.error unauthorized) = _ ↔ _
  rw [if_neg hinTime]
  split_ifs with hmac
  · exact iff_of_true rfl hmac
  · exact iff_of_false (by rintro ⟨⟩) hmac

/-- **Client and service agree on an id** when it is plain, and only then. -/
theorem video_duplicates_iff (crates : HttpCrates) (hdoc : crates.Documented)
    (secret : String) (sentAt : ℕ) (now : Int64) (hclock : RightClock sentAt now)
    (videoId : String)
    (hmac : TellsApart crates secret sentAt ("/mirror/duplicates/" ++ videoId)) :
    serve crates secret now (videoDuplicatesRequest crates secret sentAt videoId) =
        .ok videoId ↔
      PlainId crates videoId := by
  have hhead : ("/mirror/duplicates/" ++ videoId).toList.head? = some '/' := by
    rw [String.toList_append]
    rfl
  unfold serve
  simp only [bind_eq_ok, okOr_eq_ok, mapError_eq_ok, exists_and_left, exists_const,
    authorize_eq_ok hdoc hclock]
  constructor
  · rintro ⟨segment, hroute, hauthorized, hparameter⟩
    -- what was signed is what arrived, so the segment is the id as it was signed
    have hsent := hmac hauthorized
    have hnormal : NormalPath crates.allowed ("/mirror/duplicates/" ++ videoId) := by
      rw [← hsent]
      exact hdoc.sent _
    have hpath : (videoDuplicatesRequest crates secret sentAt videoId).path =
        "/mirror/duplicates/" ++ videoId := hsent
    rw [hpath, routeSegment_eq_some] at hroute
    obtain ⟨hsegment, hne, hslash⟩ := hroute
    obtain rfl : videoId = segment := String.append_right_inj _ |>.mp hsegment
    obtain ⟨hallowed, hdots⟩ := (normalPath_iff hdoc hslash).mp hnormal
    exact ⟨hne, hslash, hallowed, hdots, pathParameter_eq_self.mp hparameter⟩
  · intro hplain
    have hsent : crates.requestPath ("/mirror/duplicates/" ++ videoId) =
        "/mirror/duplicates/" ++ videoId :=
      hdoc.kept _ hhead
        ((normalPath_iff hdoc hplain.segment).mpr ⟨hplain.allowed, hplain.noDots⟩)
    refine ⟨videoId, ?_, ?_, pathParameter_eq_self.mpr hplain.noEscape⟩
    · show routeSegment (crates.requestPath _) = _
      rw [hsent]
      exact routeSegment_eq_some.mpr ⟨rfl, hplain.ne_empty, hplain.segment⟩
    · rw [hsent]

end Arrives

/-! ## Concrete requests -/

instance (allowed : Char → Bool) (path : String) : Decidable (NormalPath allowed path) :=
  decidable_of_iff
    (path.toList.all allowed = true ∧
      (path.toList.splitOn '/').all (fun segment => !isDotSegment segment) = true)
    ⟨fun h => ⟨List.all_eq_true.mp h.1, by simpa using h.2⟩,
      fun h => ⟨List.all_eq_true.mpr h.1, by simpa using h.2⟩⟩

def unreserved (c : Char) : Bool := c.isAlphanum || "/-._~".toList.contains c

/-- Crates for normal paths, with one MAC. -/
def normalCrates (mac : List UInt8) : HttpCrates where
  allowed := unreserved
  requestPath path := if NormalPath unreserved path then path else "/"
  requestQuery _ := none
  hmacSha256 _ _ := mac
  hexEncode bs := String.ofList ((hexBytes bs).map fun b => Char.ofUInt8 b)
  hexDecode s := unhexBytes (s.toList.map Char.toUInt8)

theorem normalCrates_documented (mac : List UInt8) :
    (normalCrates mac).Documented where
  sent path := by
    show NormalPath unreserved (if _ then _ else _)
    split_ifs with h
    · exact h
    · decide
  kept path _ h := if_pos h
  cut := by
    show unreserved '?' = false ∧ unreserved '#' = false
    decide
  letters := by
    -- not by deciding the quantifier, which goes through every character there is
    show ∀ c ∈ "/mirror/duplicates/".toList, unreserved c = true
    exact List.all_eq_true.mp (by decide)
  hex bs := by
    have hchars : ((hexBytes bs).map fun b => Char.ofUInt8 b).map Char.toUInt8 =
        hexBytes bs := by
      rw [List.map_map]
      exact List.map_id'' (fun b => UInt8.toUInt8_toUInt32 b) _
    show unhexBytes ((String.ofList _).toList.map Char.toUInt8) = _
    rw [String.toList_ofList, hchars, unhexBytes_hexBytes]

/-- The MAC of `GET`, `/mirror/duplicates/video-1` and `1777000000`. -/
def videoMac : List UInt8 :=
  [214, 228, 76, 108, 62, 122, 152, 126, 150, 73, 185, 84, 249, 174, 96, 41, 60,
    239, 80, 77, 26, 2, 102, 137, 217, 60, 169, 249, 171, 156, 34, 101]

theorem video_duplicates_video_1 :
    serve (normalCrates videoMac) "test-secret" 1777000001
        (videoDuplicatesRequest (normalCrates videoMac) "test-secret" 1777000000
          "video-1") = .ok "video-1" := by
  have hnormal : NormalPath unreserved ("/mirror/duplicates/" ++ "video-1") := by decide
  have hkept := (normalCrates_documented videoMac).kept
    ("/mirror/duplicates/" ++ "video-1") rfl hnormal
  refine (video_duplicates_iff _ (normalCrates_documented videoMac) "test-secret"
    1777000000 1777000001 ⟨by decide, by decide⟩ "video-1" fun _ => hkept).mpr
    ⟨by decide, by decide, ?_, by decide, ?_⟩
  · show ∀ c ∈ "video-1".toList, unreserved c = true
    exact List.all_eq_true.mp (by decide)
  · rw [← percentDecode_eq_self]
    decide

/-- **An id with a slash matches no route**: every id of a publisher's folder. -/
theorem publisher_id_unroutable :
    serve (normalCrates videoMac) "test-secret" 1777000001
        (videoDuplicatesRequest (normalCrates videoMac) "test-secret" 1777000000
          "publisher/video-1") = .error .otherRoute ∧
      RightClock 1777000000 1777000001 ∧
      ¬ serve (normalCrates videoMac) "test-secret" 1777000001
        (videoDuplicatesRequest (normalCrates videoMac) "test-secret" 1777000000
          "publisher/video-1") = .ok "publisher/video-1" := by
  refine ⟨rfl, ⟨by decide, by decide⟩, ?_⟩
  rintro ⟨⟩

end VideoStorage.Mirror
