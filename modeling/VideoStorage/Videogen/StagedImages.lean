import VideoStorage.Videogen.Effects

/-!
# Staged images

An input image that was put under a storage key belongs to the request: either the
request is handed to Vast, which gets the key and has the image deleted when it is
done, or it fails and nobody else will delete it. The handler cleans up behind
moderation, and behind none of the failures that come later (`notLeaked_iff`).
-/

namespace VideoStorage.Videogen

open Foundation
open Prog (Runs runs_call runs_ret)

/-! ## What a trace says of the image -/

/-- The storage key a staging put the image under. -/
def stagedKey : GenExchange → Option String
  | ⟨.stageImage _ _ _, .ok (some (_, some key))⟩ => some key
  | _ => none

/-- The key whose deletion is scheduled. -/
def deleted : GenExchange → Option String
  | ⟨.spawnUplinkRm key, _⟩ => some key
  | _ => none

/-- The failure of a call that comes after the image is in place. -/
def lateFailure : GenExchange → Option GenerateError
  | ⟨.workflowJson _ _, .error e⟩ => some (.workflow e)
  | ⟨.reserveUploadDestination _, .error e⟩ => some (.uploadDestination e)
  | ⟨.submitVast v, answer⟩ =>
      (rejected v.requestId answer).map fun r => .vast r.2
  | _ => none

/-- **No leak** in a run that answers `out`. -/
structure NotLeaked (tr : List GenExchange)
    (out : Except GenerateError GenerateResponse) : Prop where
  cleaned : ∀ e, out = .error e → ∀ key ∈ tr.filterMap stagedKey,
    tr.filterMap deleted = [key]
  handedOver : ∀ r, out = .ok r → ∀ key ∈ tr.filterMap stagedKey,
    ∃ v ∈ tr.filterMap submitted, v.stagedImageKey = some key
  kept : ∀ r, out = .ok r → tr.filterMap deleted = []

/-! ## The parts of the handler -/

variable {crates : Crates} {config : GenerateConfig}
  {request received : GenerateRequest} {fingerprint : RequestFingerprint}
  {requestId : String} {requestKey : RateLimiterRequestKey}
  {url imageKey : Option String} {tr : List GenExchange}
  {out : Except GenerateError GenerateResponse}

/-- Staging deletes nothing and fails before it has a key. -/
theorem preStage_staged {r : Except ImageStageError (Option String × Option String)}
    (h : Runs (preStage config request) tr r) :
    tr.filterMap deleted = [] ∧ tr.filterMap lateFailure = [] ∧
      tr.filterMap stagedKey
        = match r with
          | .ok (_, imageKey) => imageKey.toList
          | .error _ => [] := by
  rcases preStage_runs h with ⟨-, rfl, rfl⟩ | ⟨_, reply, -, rfl, rfl⟩
  · simp
  · rcases reply with e | _ | ⟨url, _ | key⟩ <;>
      simp [staged, stagedKey, deleted, lateFailure]

/-- A staging without a URL has no key. -/
theorem preStage_key {imageKey : Option String}
    (h : Runs (preStage config request) tr (.ok (none, imageKey))) :
    imageKey = none := by
  rcases preStage_runs h with ⟨-, -, hr⟩ | ⟨_, reply, -, -, hr⟩
  · cases hr
    rfl
  · rcases reply with e | _ | ⟨url, key⟩ <;> cases hr
    rfl

theorem spawnDelete_deleted {u : Unit} (h : Runs (spawnDelete imageKey) tr u) :
    tr.filterMap deleted = imageKey.toList ∧ tr.filterMap stagedKey = [] ∧
      tr.filterMap lateFailure = [] := by
  cases imageKey with
  | none =>
      obtain ⟨rfl, -⟩ := runs_ret.mp h
      simp
  | some key =>
      have h' : Runs (Prog.call (GenerateCall.spawnUplinkRm key) Prog.ret) tr u := h
      simp only [runs_call, runs_ret] at h'
      obtain ⟨_, _, rfl, rfl, -⟩ := h'
      simp [deleted, stagedKey, lateFailure]

/-- A refusal of moderation deletes the image. -/
theorem moderateContent_deleted {e : GenerateError} (h : Runs (moderateContent
    request fingerprint url imageKey) tr (.error e)) :
    tr.filterMap deleted = imageKey.toList ∧ tr.filterMap stagedKey = [] ∧
      tr.filterMap lateFailure = [] := by
  rcases moderateContent_runs h with ⟨he, -⟩ | ⟨d, e', del, u, -, hdel, rfl, -⟩
  · cases he
  · -- the answer of moderation is none of the three
    obtain ⟨hdeleted, hstaged, hlate⟩ := spawnDelete_deleted hdel
    exact ⟨hdeleted, hstaged, hlate⟩

/-- What becomes of the image under `imageKey` once moderation has passed it. -/
structure Handled (imageKey : Option String) (tr : List GenExchange)
    (out : Except GenerateError GenerateResponse) : Prop where
  staged : tr.filterMap stagedKey = []
  deleted : tr.filterMap deleted = []
  failed : ∀ e, out = .error e → tr.filterMap lateFailure ≠ []
  succeeded : ∀ r, out = .ok r → tr.filterMap lateFailure = [] ∧
    ∃ v ∈ tr.filterMap submitted, v.stagedImageKey = imageKey

theorem SubmitEnds.handled
    (h : SubmitEnds config request requestId requestKey url imageKey tr out) :
    Handled imageKey tr out := by
  cases h with
  | noWorkflow e reason =>
      refine ⟨rfl, rfl, fun _ _ => List.cons_ne_nil _ _, fun _ hout => ?_⟩
      cases hout
  | notReserved w e reason =>
      refine ⟨rfl, rfl, fun _ _ => List.cons_ne_nil _ _, fun _ hout => ?_⟩
      cases hout
  | rejected w d c answer reason e r hr =>
      refine ⟨rfl, rfl, fun _ _ => ?_, fun _ hout => ?_⟩
      · simp [lateFailure, vastRequest, hr]
      · cases hout
  | accepted w d c a hr =>
      refine ⟨rfl, rfl, fun _ hout => ?_, fun _ _ => ?_⟩
      · cases hout
      · simp [lateFailure, submitted, vastRequest, hr]

/-- A run that ends before its request is recorded. -/
theorem notLeaked_of_deleted {e : GenerateError}
    (hdeleted : tr.filterMap deleted = imageKey.toList)
    (hstaged : tr.filterMap stagedKey = imageKey.toList) :
    NotLeaked tr (.error e) := by
  constructor
  · intro _ _ key hkey
    rw [hstaged, Option.mem_toList] at hkey
    rw [hdeleted, hkey]
    rfl
  · nofun
  · nofun

/-- A run that stages the image under `imageKey` and then does what `tr` says. -/
theorem notLeaked_iff_of_handled {all : List GenExchange}
    (h : Handled imageKey tr out)
    (hstaged : all.filterMap stagedKey = imageKey.toList)
    (hdeleted : all.filterMap deleted = tr.filterMap deleted)
    (hlate : all.filterMap lateFailure = tr.filterMap lateFailure)
    (hsubmitted : all.filterMap submitted = tr.filterMap submitted) :
    NotLeaked all out ↔
      all.filterMap stagedKey = [] ∨ all.filterMap lateFailure = [] := by
  rw [hstaged, hlate]
  cases imageKey with
  | none =>
      simp only [Option.toList_none, true_or, iff_true]
      constructor
      · simp [hstaged]
      · simp [hstaged]
      · intro r _
        exact hdeleted.trans h.deleted
  | some key =>
      simp only [Option.toList_some, reduceCtorEq, false_or]
      constructor
      · intro hleak
        cases out with
        | error e =>
            have hclean := hleak.cleaned e rfl key (by simp [hstaged])
            rw [hdeleted, h.deleted] at hclean
            cases hclean
        | ok r => exact (h.succeeded r rfl).1
      · intro hnone
        constructor
        · intro e he
          exact absurd hnone (h.failed e he)
        · intro r hr key' hkey'
          obtain rfl : key' = key := by simpa [hstaged] using hkey'
          rw [hsubmitted]
          exact (h.succeeded r hr).2
        · intro r _
          exact hdeleted.trans h.deleted

theorem notLeaked_iff_of_recordedEnds {pre rec : List GenExchange}
    {input : ModerationInput} {counter : UInt64}
    (hpre : Runs (preStage config request) pre (.ok (url, imageKey)))
    (hrec : Runs (requestCounter request requestId) rec counter)
    (h : RecordedEnds config request requestId requestKey url imageKey tr out) :
    NotLeaked (recordedTrace pre input requestId rec tr) out ↔
      (recordedTrace pre input requestId rec tr).filterMap stagedKey = [] ∨
        (recordedTrace pre input requestId rec tr).filterMap lateFailure = [] := by
  obtain ⟨hdeleted, hlate, hstaged⟩ := preStage_staged hpre
  dsimp only at hstaged
  have hquiet := filterMap_quiet (fun _ hx => hx.1) (preStage_quiet hpre)
  -- all that happens to the image is in the two stagings and in what follows
  have hpast : ∀ {α : Type} (f : GenExchange → Option α),
      f ⟨.newUuid, requestId⟩ = none → f ⟨.moderate input, .ok .safe⟩ = none →
      (∀ c, f ⟨.recordPending request requestId, c⟩ = none) →
      (∀ t, f ⟨.systemTime, t⟩ = none) →
      (recordedTrace pre input requestId rec tr).filterMap f
        = pre.filterMap f ++ tr.filterMap f := by
    intro α f hid hmod hrecord hclock
    rw [filterMap_recordedTrace hid, hmod,
      requestCounter_filterMap hrecord hclock hrec]
    rfl
  have hpastStaged := hpast stagedKey rfl rfl (fun _ => rfl) fun _ => rfl
  have hpastDeleted := hpast deleted rfl rfl (fun _ => rfl) fun _ => rfl
  have hpastLate := hpast lateFailure rfl rfl (fun _ => rfl) fun _ => rfl
  have hpastSubmitted := hpast submitted rfl rfl (fun _ => rfl) fun _ => rfl
  rw [hstaged] at hpastStaged
  rw [hdeleted, List.nil_append] at hpastDeleted
  rw [hlate, List.nil_append] at hpastLate
  rw [hquiet, List.nil_append] at hpastSubmitted
  cases h with
  | inPlace _ hends =>
      rw [hends.handled.staged, List.append_nil] at hpastStaged
      exact notLeaked_iff_of_handled hends.handled hpastStaged hpastDeleted
        hpastLate hpastSubmitted
  | notStaged hurl e reason =>
      subst hurl
      obtain rfl := preStage_key hpre
      simp only [hpastStaged]
      constructor
      · exact fun _ => .inl rfl
      · exact fun _ => @notLeaked_of_deleted none _ _ hpastDeleted hpastStaged
  | staged hurl image hends =>
      -- the image that staging before moderation left out is staged now
      subst hurl
      obtain rfl := preStage_key hpre
      have hkey : stagedKey ⟨.stageImage request.image request.userId
          config.vastImageStageTimeoutSecs, .ok image⟩ = image.bind Prod.snd := by
        rcases image with _ | ⟨url, _ | key⟩ <;> rfl
      refine notLeaked_iff_of_handled hends.handled ?_ hpastDeleted hpastLate
        hpastSubmitted
      rw [hpastStaged, List.filterMap_cons, hkey, hends.handled.staged]
      cases image.bind Prod.snd <;> rfl

/-- **When no staged image leaks**: in every run, the handler deletes the image of a
request that fails, once, and hands over that of a request that does not, exactly if
no image was put under a key or no call failed after moderation. -/
theorem notLeaked_iff (h : Runs (generateInner crates config received) tr out) :
    NotLeaked tr out ↔
      tr.filterMap stagedKey = [] ∨ tr.filterMap lateFailure = [] := by
  rcases generateInner_runs h with ⟨⟨e, rfl⟩, rfl⟩ | ⟨-, fingerprint, hgen⟩
  · simp only [List.filterMap_nil, true_or, iff_true]
    exact @notLeaked_of_deleted none _ _ rfl rfl
  · cases hgen with
    | notStaged hpre =>
        obtain ⟨hdeleted, hlate, hstaged⟩ := preStage_staged hpre
        simp only [hstaged, true_or, iff_true]
        exact @notLeaked_of_deleted none _ _ hdeleted hstaged
    | @notApproved pre tr url imageKey e hpre hmod =>
        obtain ⟨hdeleted, hlate, hstaged⟩ := preStage_staged hpre
        obtain ⟨hdeleted', hstaged', hlate'⟩ := moderateContent_deleted hmod
        simp only [List.filterMap_append, hlate, hlate', List.append_nil, or_true,
          iff_true]
        apply @notLeaked_of_deleted imageKey
        · rw [List.filterMap_append, hdeleted, hdeleted', List.nil_append]
        · rw [List.filterMap_append, hstaged, hstaged', List.append_nil]
    | recorded hpre hrec hends => exact notLeaked_iff_of_recordedEnds hpre hrec hends

/-! ## An image that is cleaned up, and one that is left behind

The image is staged and found unsafe; it is staged and found safe, and then there is
no upload destination.
-/

/-- The canonical text of the request below. -/
def pictureText : String :=
  "\x7b\"aspect_ratio\":\"16:9\",\"duration\":5," ++
    "\"fingerprint_version\":1,\"generate_audio\":false," ++
    "\"image_identity\":" ++
    "\"4c4b6a3be1314ab86138bef4314dde022e600960d8689a2c8f8631802d20dab6\"," ++
    "\"image_identity_type\":\"base64\",\"model_id\":\"ltx2\"," ++
    "\"negative_prompt\":null,\"principal\":\"aaaaa-aa\"," ++
    "\"prompt\":\"a cat\",\"resolution\":\"720p\",\"seed\":null," ++
    "\"token_type\":\"Free\",\"upload_handling\":\"ServerDraft\"\x7d"

/-- The crates on that request. -/
def pictureCrates : Crates where
  principalFromStr := .ok
  decodeBase64 _ := some [0x89, 0x50, 0x4e, 0x47, 0x0d, 0x0a, 0x1a, 0x0a]
  sha256Hex
    | 0x89 :: _ =>
        "4c4b6a3be1314ab86138bef4314dde022e600960d8689a2c8f8631802d20dab6"
    | _ => "7650ecf9b49ef6865c4ad40a3f16ebbcb1cc744badd0dce148894d0f07f29957"
  hmacSha256 _ _ := []
  hexEncode _ := ""
  hexDecode _ := some []
  jsonText _ := pictureText
  parseJson _ := .error "EOF while parsing a value at line 1 column 0"
  bodyText _ := ""
  statusText _ := "200 OK"

def pictureRequest : GenerateRequest :=
  { catRequest with image := some (.base64 ⟨"iVBORw0KGgo=", "image/png"⟩) }

def pictureKey : String := "_input/aaaaa-aa/2f8c6a54-8f1e-4a52-9c0d-0f2f6f0f3c11.png"

def pictureUrl : String := "https://link.example.test/raw/videos/" ++ pictureKey

def unsafeTrace : List GenExchange := [
  ⟨.stageImage pictureRequest.image "aaaaa-aa" 30,
    .ok (some (pictureUrl, some pictureKey))⟩,
  ⟨.moderate ⟨pictureCrates.sha256Hex (utf8 pictureText), "aaaaa-aa", "a cat",
    .imageUrl pictureUrl⟩, .ok .notSafe⟩,
  ⟨.spawnUplinkRm pictureKey, ()⟩]

theorem notLeaked_iff_unsafe : NotLeaked unsafeTrace
    (.error (.invalidInput "Content violates safety guidelines")) := by
  have hrun : Runs (generateInner pictureCrates catConfig pictureRequest)
      unsafeTrace (.error (.invalidInput "Content violates safety guidelines")) :=
    .call (.call (.call (.ret _)))
  exact (notLeaked_iff hrun).mpr (.inr rfl)

def pictureTrace (requestId : String) : List GenExchange := [
  ⟨.stageImage pictureRequest.image "aaaaa-aa" 30,
    .ok (some (pictureUrl, some pictureKey))⟩,
  ⟨.moderate ⟨pictureCrates.sha256Hex (utf8 pictureText), "aaaaa-aa", "a cat",
    .imageUrl pictureUrl⟩, .ok .safe⟩,
  ⟨.newUuid, requestId⟩,
  ⟨.recordPending pictureRequest requestId, some 17⟩,
  ⟨.workflowJson pictureRequest (some pictureUrl), .ok .null⟩,
  ⟨.reserveUploadDestination "aaaaa-aa", .error (.unavailable "no response")⟩,
  ⟨.markRequestFailed catKey ("upload destination reservation failed: " ++
    "upload destination unavailable: no response"), ()⟩]

theorem staged_image_left :
    Runs (generateInner pictureCrates catConfig pictureRequest)
        (pictureTrace "018f5fa2-05c7-4b4a-8934-19b1f3c29d49")
        (.error (.uploadDestination (.unavailable "no response"))) ∧
      ¬ NotLeaked (pictureTrace "018f5fa2-05c7-4b4a-8934-19b1f3c29d49")
        (.error (.uploadDestination (.unavailable "no response"))) := by
  constructor
  · exact .call (.call (.call (.call (.call (.call (.call (.ret _)))))))
  · intro h
    have hclean := h.cleaned _ rfl pictureKey List.mem_cons_self
    cases hclean

end VideoStorage.Videogen
