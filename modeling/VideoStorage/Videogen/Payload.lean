import VideoStorage.Videogen.Effects
import VideoStorage.Videogen.Workflow

/-!
# What is submitted and what was moderated

The payload is put together from the request and from a map the client sends
along, whose members go over the payload's own. So what Vast is asked to make is
what moderation saw unless that map says otherwise (`submits_moderated_iff`).
-/

namespace VideoStorage.Videogen

open Foundation
open Prog (Runs runs_bind runs_call runs_ret)

/-! ## What is submitted was moderated -/

def ModerationSubject.url : ModerationSubject → Option String
  | .textOnly => none
  | .imageUrl url => some url

/-- The prompt and the image of a submission, in both places that carry them,
are those that were moderated. -/
structure SameContent (m : ModerationInput) (v : VastSubmitRequest) : Prop where
  inputPrompt : v.input.get? "prompt" = some (.str m.prompt)
  workflowPrompt : workflowPrompt v.workflowJson = some (.str m.prompt)
  inputImage : ∀ i, v.input.get? "image_url" = some i →
    m.subject.url.map .str = some i
  workflowImage : ∀ i, workflowImage v.workflowJson = some i →
    m.subject.url.map .str = some i

/-- Everything submitted in a run was moderated in it. -/
def SubmitsModerated (tr : List GenExchange) : Prop :=
  ∀ v ∈ tr.filterMap submitted, ∃ m ∈ tr.filterMap approved, SameContent m v

/-! ## The condition -/

def stageReply : GenExchange → Option StageReply
  | ⟨.stageImage _ _ _, reply⟩ => some reply
  | _ => none

def stagedUrl : StageReply → Option String
  | .ok image => image.map Prod.fst
  | .error _ => none

/-- The image as the client sent it, or as it was first staged. -/
def moderatedUrl (image : Option ImageSource) (replies : List StageReply) :
    Option String :=
  match image with
  | none => none
  | some (.url url) => some url
  | some (.base64 _) => replies.head?.bind stagedUrl

/-- The client's map names neither member, or names what was moderated. -/
def ExtraParamsAgree (request : GenerateRequest) (replies : List StageReply) :
    Prop :=
  (∀ i, request.extraParams.get "prompt" = some i → i = .str request.prompt) ∧
  ∀ i, request.extraParams.get "image_url" = some i →
    (moderatedUrl request.image replies).map .str = some i

/-- The last staging gives no image, or the moderated one. -/
def StagingAgrees (request : GenerateRequest) (replies : List StageReply) :
    Prop :=
  ∀ url, replies.getLast?.bind stagedUrl = some url →
    moderatedUrl request.image replies = some url

/-- The workflow dependency is that of the running service. -/
def RuntimeWorkflow (tr : List GenExchange) : Prop :=
  ∀ request url reply, ⟨.workflowJson request url, reply⟩ ∈ tr →
    reply = runtimeWorkflowJson request url

/-! ## The payload -/

variable {crates : Crates} {config : GenerateConfig}
  {request received : GenerateRequest} {fingerprint : RequestFingerprint}
  {requestId : String} {requestKey : RateLimiterRequestKey}
  {url imageKey : Option String} {tr : List GenExchange}
  {out : Except GenerateError GenerateResponse}

theorem vastInput_prompt : (vastInput request url).get? "prompt" =
    (request.extraParams.get "prompt").or (some (.str request.prompt)) := by
  show Json.Map.get _ "prompt" = _
  rw [Json.Map.get_extend]
  congr 1
  cases url with
  | none => exact Json.Map.get_insertAll (by simp)
  | some url =>
      exact (Json.Map.get_insert_ne (by decide)).trans
        (Json.Map.get_insertAll (by simp))

theorem vastInput_image : (vastInput request url).get? "image_url" =
    (request.extraParams.get "image_url").or (url.map .str) := by
  show Json.Map.get _ "image_url" = _
  rw [Json.Map.get_extend]
  congr 1
  cases url with
  | none => exact Json.Map.get_insertAll (by simp)
  | some url => exact Json.Map.get_insert_self

/-- A submission of these parts, with the moderation of those. -/
theorem sameContent_iff {m : ModerationInput} {w : Json} {d : UploadDestination}
    (hprompt : m.prompt = request.prompt)
    (hw : runtimeWorkflowJson request url = .ok w) :
    SameContent m (vastRequest config request requestId requestKey url imageKey
        w d) ↔
      (∀ i, request.extraParams.get "prompt" = some i →
        i = .str request.prompt) ∧
      (∀ i, request.extraParams.get "image_url" = some i →
        m.subject.url.map .str = some i) ∧
      ∀ u, url = some u → m.subject.url = some u := by
  obtain rfl : buildLtx2Workflow request url = w := by
    unfold runtimeWorkflowJson at hw
    split_ifs at hw
    exact Except.ok.inj hw
  constructor
  -- the workflow has the request's own prompt and the staged image
  · rintro ⟨hp, -, hi, hwi⟩
    simp only [vastRequest, vastInput_prompt, vastInput_image,
      workflowImage_build, hprompt] at hp hi hwi
    refine ⟨?_, ?_, ?_⟩
    · intro i hget
      rw [hget] at hp
      exact Option.some.inj hp
    · intro i hget
      exact hi i (by rw [hget]; rfl)
    · rintro u rfl
      have hu := hwi (.str u) rfl
      obtain ⟨u', hu', heq⟩ := Option.map_eq_some_iff.mp hu
      rw [hu', Json.str.inj heq]
  · rintro ⟨hp, hi, hu⟩
    have hurl : ∀ i, url.map Json.str = some i →
        m.subject.url.map .str = some i := by
      intro i himage
      obtain ⟨u, hsome, rfl⟩ := Option.map_eq_some_iff.mp himage
      rw [hu u hsome]
      rfl
    constructor
    · show (vastInput request url).get? "prompt" = _
      rw [vastInput_prompt, hprompt]
      -- an extra parameter overwrites what the request says
      cases hget : request.extraParams.get "prompt" with
      | none => rfl
      | some i => rw [hp i hget]; rfl
    · show workflowPrompt (buildLtx2Workflow request url) = _
      rw [workflowPrompt_build, hprompt]
    · intro i himage
      have himage' : (vastInput request url).get? "image_url" = some i := himage
      rw [vastInput_image] at himage'
      cases hget : request.extraParams.get "image_url" with
      | none => exact hurl i (by rw [hget] at himage'; exact himage')
      | some j =>
          rw [hget] at himage'
          exact hi i (hget.trans himage')
    · intro i himage
      have himage' : workflowImage (buildLtx2Workflow request url) = some i :=
        himage
      rw [workflowImage_build] at himage'
      exact hurl i himage'

/-! ## The running service -/

def imageExtension (mimeType : String) : String :=
  if mimeType = "image/jpeg" ∨ mimeType = "image/jpg" then "jpg"
  else if mimeType = "image/webp" then "webp"
  else "png"

/-- `stage_image` of the running service: a URL passes through, decoded bytes
are uploaded under a fresh key. `upload` is how the upload went. -/
def runtimeStageImage (crates : Crates) (shareUrl : Option String) (uuid : String)
    (upload : Except ImageStageError Unit) (badBase64 : String)
    (image : Option ImageSource) (userPrincipal : String) : StageReply :=
  match image with
  | none => .ok none
  | some (.url url) => .ok (some (url, none))
  | some (.base64 image) =>
      match crates.decodeBase64 image.data, shareUrl with
      | none, _ => .error (.failed badBase64)
      | some _, none => .error (.failed "SFW_SHARE_EU1_URL is required")
      | some _, some base =>
          let key := "_input/" ++ userPrincipal ++ "/" ++ uuid ++ "." ++
            imageExtension image.mimeType
          match upload with
          | .error e => .error e
          | .ok () => .ok (some (trimSlashes base ++ "/" ++ key, some key))

/-- Every staging of the run is one of the running service. -/
def RuntimeStaging (crates : Crates) (tr : List GenExchange) : Prop :=
  ∀ image user timeout reply, ⟨.stageImage image user timeout, reply⟩ ∈ tr →
    ∃ shareUrl uuid upload badBase64, reply =
      runtimeStageImage crates shareUrl uuid upload badBase64 image user

/-- A staging that gives no URL was of no image. -/
theorem runtimeStageImage_none {shareUrl : Option String} {uuid : String}
    {upload : Except ImageStageError Unit} {badBase64 user : String}
    {image : Option ImageSource}
    (h : runtimeStageImage crates shareUrl uuid upload badBase64 image user =
      .ok none) : image = none := by
  unfold runtimeStageImage at h
  split at h
  · rfl
  · cases h
  · split at h
    · cases h
    · cases h
    · dsimp only at h
      split at h <;> cases h

/-! ## The runs -/

/-- What is submitted with an image in place. -/
theorem SubmitEnds.submitted (h : SubmitEnds config request requestId requestKey
    url imageKey tr out) (hsub : tr.filterMap submitted ≠ []) :
    ∃ w d, ⟨.workflowJson request url, .ok w⟩ ∈ tr ∧
      tr.filterMap approved = [] ∧ tr.filterMap stageReply = [] ∧
      tr.filterMap submitted = [vastRequest config request requestId requestKey
        url imageKey w d] := by
  cases h with
  | noWorkflow e reason => exact absurd rfl hsub
  | notReserved w e reason => exact absurd rfl hsub
  | rejected w d c answer reason e r hr => exact ⟨w, _, by simp, rfl, rfl, rfl⟩
  | accepted w d c a hr => exact ⟨w, _, by simp, rfl, rfl, rfl⟩

/-- What is submitted once a request is recorded: the image staged before, or
the one staged now. -/
theorem RecordedEnds.submitted (h : RecordedEnds config request requestId
    requestKey url imageKey tr out) (hsub : tr.filterMap submitted ≠ []) :
    ∃ url' key' w d, ⟨.workflowJson request url', .ok w⟩ ∈ tr ∧
      tr.filterMap approved = [] ∧
      tr.filterMap submitted = [vastRequest config request requestId requestKey
        url' key' w d] ∧
      ((∃ u, url = some u ∧ url' = url ∧ tr.filterMap stageReply = []) ∨
        url = none ∧ ∃ image, url' = image.map Prod.fst ∧
          tr.filterMap stageReply = [.ok image] ∧
          ⟨.stageImage request.image request.userId
            config.vastImageStageTimeoutSecs, .ok image⟩ ∈ tr) := by
  cases h with
  | inPlace hurl h =>
      obtain ⟨w, d, hw, happ, hstage, hsubmit⟩ := h.submitted hsub
      obtain ⟨u, hu⟩ := Option.isSome_iff_exists.mp hurl
      exact ⟨url, imageKey, w, d, hw, happ, hsubmit, .inl ⟨u, hu, rfl, hstage⟩⟩
  | notStaged hurl e reason => exact absurd rfl hsub
  | staged hurl image h =>
      obtain ⟨w, d, hw, happ, hstage, hsubmit⟩ := h.submitted hsub
      refine ⟨_, _, w, d, List.mem_cons_of_mem _ hw, happ, hsubmit,
        .inr ⟨hurl, image, rfl, ?_, List.mem_cons_self⟩⟩
      rw [List.filterMap_cons_some (f := stageReply) rfl, hstage]

/-- Where the two images are found among the staging replies. -/
theorem images_staged {pre sub : List GenExchange} {url' : Option String}
    (hpre : Runs (preStage config request) pre (.ok (url, imageKey)))
    (hsub : (∃ u, url = some u ∧ url' = url ∧ sub.filterMap stageReply = []) ∨
      url = none ∧ ∃ image, url' = image.map Prod.fst ∧
        sub.filterMap stageReply = [.ok image] ∧
        ⟨.stageImage request.image request.userId
          config.vastImageStageTimeoutSecs, .ok image⟩ ∈ sub) :
    (moderationSubject request.image url).url = moderatedUrl request.image
        (pre.filterMap stageReply ++ sub.filterMap stageReply) ∧
      url' = (pre.filterMap stageReply ++
        sub.filterMap stageReply).getLast?.bind stagedUrl := by
  rcases preStage_runs hpre with ⟨hnot, rfl, hout⟩ | ⟨b, reply, himage, rfl, hout⟩
  · -- nothing was staged before moderation
    cases hout
    rcases hsub with ⟨u, hu, -⟩ | ⟨-, image, rfl, hrep, -⟩
    · cases hu
    · rw [hrep]
      refine ⟨?_, rfl⟩
      rcases hi : request.image with _ | ⟨b | u⟩
      · rfl
      · exact absurd hi (hnot b)
      · rfl
  -- the image was staged for moderation, and maybe once more
  · cases reply with
    | error e => cases hout
    | ok first =>
        rw [staged_ok] at hout
        cases hout
        have hsubject : (moderationSubject request.image
            (first.map Prod.fst)).url = first.map Prod.fst := by
          rw [himage]
          cases first <;> rfl
        rw [hsubject, himage]
        refine ⟨rfl, ?_⟩
        rcases hsub with ⟨u, hu, rfl, hnone⟩ | ⟨hu, second, rfl, hsecond, -⟩
        · rw [hnone]
          rfl
        · rw [hsecond]
          rfl

/-- In the running service the two images are one. -/
theorem images_runtime {pre sub : List GenExchange} {url' : Option String}
    (hpre : Runs (preStage config request) pre (.ok (url, imageKey)))
    (hsub : (∃ u, url = some u ∧ url' = url ∧ sub.filterMap stageReply = []) ∨
      url = none ∧ ∃ image, url' = image.map Prod.fst ∧
        sub.filterMap stageReply = [.ok image] ∧
        ⟨.stageImage request.image request.userId
          config.vastImageStageTimeoutSecs, .ok image⟩ ∈ sub)
    (hruntime : RuntimeStaging crates (pre ++ sub)) :
    (moderationSubject request.image url).url = url' := by
  rcases preStage_runs hpre with ⟨hnot, rfl, hout⟩ | ⟨b, reply, himage, rfl, hout⟩
  · cases hout
    rcases hsub with ⟨u, hu, -⟩ | ⟨-, image, rfl, -, hmem⟩
    · cases hu
    · obtain ⟨shareUrl, uuid, upload, bad, hreply⟩ :=
        hruntime _ _ _ _ (List.mem_append_right _ hmem)
      rcases hi : request.image with _ | ⟨b | u⟩
      · rw [hi] at hreply
        cases hreply
        rfl
      · exact absurd hi (hnot b)
      · rw [hi] at hreply
        cases hreply
        rfl
  · obtain ⟨shareUrl, uuid, upload, bad, hreply⟩ :=
      hruntime _ _ _ _ (List.mem_append_left _ (List.mem_singleton.mpr rfl))
    cases reply with
    | error e => cases hout
    | ok first =>
        rw [staged_ok] at hout
        cases hout
        cases first with
        | none =>
            -- a Base64 image that was uploaded has a URL
            rw [runtimeStageImage_none hreply.symm] at himage
            cases himage
        | some first =>
            rw [himage]
            rcases hsub with ⟨u, hu, rfl, -⟩ | ⟨hu, -⟩
            · rfl
            · cases hu

/-- What a run that submits moderated, submitted and staged. -/
theorem generated_submitted (crates : Crates)
    (h : Generated config request fingerprint tr out)
    (hsub : tr.filterMap submitted ≠ []) :
    ∃ m v url imageKey requestId requestKey w d,
      tr.filterMap approved = [m] ∧ tr.filterMap submitted = [v] ∧
      v = vastRequest config request requestId requestKey url imageKey w d ∧
      ⟨.workflowJson request url, .ok w⟩ ∈ tr ∧ m.prompt = request.prompt ∧
      m.subject.url = moderatedUrl request.image (tr.filterMap stageReply) ∧
      url = (tr.filterMap stageReply).getLast?.bind stagedUrl ∧
      (RuntimeStaging crates tr → m.subject.url = url) := by
  cases h with
  | notStaged hpre =>
      exact absurd (filterMap_quiet (fun _ hx => hx.1) (preStage_quiet hpre)) hsub
  | notApproved hpre hmod =>
      refine absurd (filterMap_quiet (fun _ hx => hx.1) ?_) hsub
      intro x hx
      rcases List.mem_append.mp hx with hx | hx
      · exact preStage_quiet hpre x hx
      · exact (moderateContent_error hmod).1 x hx
  | @recorded pre rec sub url imageKey requestId counter _ hpre hrec hends =>
      -- only what follows the record submits
      have hquiet := preStage_quiet hpre
      rw [filterMap_settling (fun _ hx => hx.1) (fun _ => rfl) (fun _ => rfl)
        hquiet hrec] at hsub ⊢
      obtain ⟨url', key', w, d, hw, happ, hsubmit, himage⟩ := hends.submitted hsub
      have hpreApproved : pre.filterMap approved = [] := by
        rcases preStage_runs hpre with ⟨-, rfl, -⟩ | ⟨_, _, -, rfl, -⟩
        · rfl
        · rfl
      obtain ⟨hsubject, hlast⟩ := images_staged hpre himage
      refine ⟨moderationInput request fingerprint url, _, url', key', requestId,
        ⟨request.userId, counter⟩, w, d, ?_, hsubmit, rfl, ?_, rfl, ?_, ?_, ?_⟩
      · rw [filterMap_recordedTrace rfl, hpreApproved, happ,
          requestCounter_filterMap (fun _ => rfl) (fun _ => rfl) hrec]
        rfl
      · simp [recordedTrace, hw]
      · rw [filterMap_recordedTrace rfl,
          requestCounter_filterMap (fun _ => rfl) (fun _ => rfl) hrec]
        exact hsubject
      · rw [filterMap_recordedTrace rfl,
          requestCounter_filterMap (fun _ => rfl) (fun _ => rfl) hrec]
        exact hlast
      -- in the running service both stagings give one URL
      · intro hruntime
        apply images_runtime hpre himage
        intro i u t reply hmem
        apply hruntime
        rcases List.mem_append.mp hmem with hmem | hmem
        · exact List.mem_append_left _ hmem
        · simp [recordedTrace, hmem]

/-- **What is submitted is what was moderated**, in a run that submits, exactly
if the client's extra parameters and the last staging agree with it. -/
theorem submits_moderated_iff
    (h : Runs (generateInner crates config received) tr out)
    (hworkflow : RuntimeWorkflow tr) (hsub : tr.filterMap submitted ≠ []) :
    SubmitsModerated tr ↔
      ExtraParamsAgree received (tr.filterMap stageReply) ∧
        StagingAgrees received (tr.filterMap stageReply) := by
  rcases generateInner_runs h with ⟨-, rfl⟩ | ⟨-, fingerprint, hgen⟩
  · exact absurd rfl hsub
  · obtain ⟨m, v, url, imageKey, requestId, requestKey, w, d, happ, hsubmit,
      rfl, hw, hprompt, hsubject, hlast, -⟩ :=
      generated_submitted crates hgen hsub
    have hsame : SameContent m (vastRequest config _ requestId requestKey url
        imageKey w d) ↔ _ :=
      sameContent_iff hprompt (hworkflow _ url (.ok w) hw).symm
    rw [hsubject, hlast] at hsame
    simp only [SubmitsModerated, happ, hsubmit, List.mem_singleton,
      forall_eq, exists_eq_left]
    rw [hlast, hsame, ← and_assoc]
    rfl

/-- With the stagings of the running service, the extra parameters decide. -/
theorem submits_moderated_runtime
    (h : Runs (generateInner crates config received) tr out)
    (hworkflow : RuntimeWorkflow tr) (hstaging : RuntimeStaging crates tr)
    (hsub : tr.filterMap submitted ≠ []) :
    SubmitsModerated tr ↔
      ExtraParamsAgree received (tr.filterMap stageReply) := by
  rw [submits_moderated_iff h hworkflow hsub, and_iff_left_iff_imp]
  intro _ url hurl
  rcases generateInner_runs h with ⟨-, rfl⟩ | ⟨-, fingerprint, hgen⟩
  · exact absurd rfl hsub
  · obtain ⟨m, _, url', _, _, _, _, _, -, -, -, -, -, hsubject, hlast, hsame⟩ :=
      generated_submitted crates hgen hsub
    rw [← hlast] at hurl
    have hmoderated : moderatedUrl received.image (tr.filterMap stageReply) =
        url' := hsubject.symm.trans (hsame hstaging)
    exact hmoderated.trans hurl

/-! ## A picture by its URL

The client's map says the prompt and the URL again.
-/

def catId : String := "018f5fa2-05c7-4b4a-8934-19b1f3c29d49"

def photoUrl : String := "https://cdn.example.test/cat.png"

def photoRequest : GenerateRequest :=
  { catRequest with
    image := some (.url photoUrl)
    extraParams := (Json.Map.empty.insert "prompt" (.str "a cat")).insert
      "image_url" (.str photoUrl) }

/-- The canonical text of that request. -/
def photoText : String :=
  "\x7b\"aspect_ratio\":\"16:9\",\"duration\":5," ++
    "\"fingerprint_version\":1,\"generate_audio\":false," ++
    "\"image_identity\":" ++
    "\"4262c34011344105793286d7bca3aff7d9f210f53c02e4ef1fc2d90c99b57982\"," ++
    "\"image_identity_type\":\"reference\",\"model_id\":\"ltx2\"," ++
    "\"negative_prompt\":null,\"principal\":\"aaaaa-aa\"," ++
    "\"prompt\":\"a cat\",\"resolution\":\"720p\",\"seed\":null," ++
    "\"token_type\":\"Free\",\"upload_handling\":\"ServerDraft\"\x7d"

/-- The crates on that request: the URL and the canonical text are hashed. -/
def photoCrates : Crates :=
  { catCrates with
    sha256Hex := fun
      | 0x68 :: _ =>
          "4262c34011344105793286d7bca3aff7d9f210f53c02e4ef1fc2d90c99b57982"
      | _ => "de1c8e93ca378fa08eac523c94a3845485fed8fe8aeca67e163bb491a7d8f9d5"
    jsonText := fun _ => photoText }

def photoTrace : List GenExchange := [
  ⟨.moderate ⟨photoCrates.sha256Hex (utf8 photoText), "aaaaa-aa", "a cat",
    .imageUrl photoUrl⟩, .ok .safe⟩,
  ⟨.newUuid, catId⟩,
  ⟨.recordPending photoRequest catId, some 17⟩,
  ⟨.stageImage (some (.url photoUrl)) "aaaaa-aa" 30,
    .ok (some (photoUrl, none))⟩,
  ⟨.workflowJson photoRequest (some photoUrl),
    .ok (buildLtx2Workflow photoRequest (some photoUrl))⟩,
  ⟨.reserveUploadDestination "aaaaa-aa", .ok catDestination⟩,
  ⟨.encryptIdentity .null, .error "INTERNAL_ENCRYPTION_SECRET must be set"⟩,
  ⟨.submitVast (vastRequest catConfig photoRequest catId catKey (some photoUrl)
    none (buildLtx2Workflow photoRequest (some photoUrl)) catDestination),
    .ok ⟨catId, "submitted", 1779879600⟩⟩]

theorem photoTrace_workflow : RuntimeWorkflow photoTrace := by
  intro r url reply hmem
  have hcall : (⟨.workflowJson r url, reply⟩ : GenExchange) =
      ⟨.workflowJson photoRequest (some photoUrl),
        .ok (buildLtx2Workflow photoRequest (some photoUrl))⟩ := by
    simpa [photoTrace] using hmem
  cases hcall
  rfl

theorem submits_moderated_photo : SubmitsModerated photoTrace := by
  have hrun : Runs (generateInner photoCrates catConfig photoRequest) photoTrace
      (.ok ⟨operationId catKey, ltxProvider, catKey⟩) :=
    .call (.call (.call (.call (.call (.call (.call (.call (.ret _))))))))
  have hprompt : photoRequest.extraParams.get "prompt" = some (.str "a cat") :=
    (Json.Map.get_insert_ne (by decide)).trans Json.Map.get_insert_self
  have himage : photoRequest.extraParams.get "image_url" =
      some (.str photoUrl) := Json.Map.get_insert_self
  refine (submits_moderated_iff hrun photoTrace_workflow nofun).mpr
    ⟨⟨?_, ?_⟩, ?_⟩
  · intro i hi
    exact (Option.some.inj (hprompt.symm.trans hi)).symm
  · intro i hi
    exact himage.symm.trans hi
  · intro url hurl
    exact hurl

/-! ## A prompt out of the client's map -/

/-- The request is accepted. -/
def acceptedTrace (request : GenerateRequest) : List GenExchange := [
  ⟨.moderate ⟨catCrates.sha256Hex [], "aaaaa-aa", "a cat", .textOnly⟩,
    .ok .safe⟩,
  ⟨.newUuid, catId⟩,
  ⟨.recordPending request catId, some 17⟩,
  ⟨.stageImage none "aaaaa-aa" 30, .ok none⟩,
  ⟨.workflowJson request none, .ok (buildLtx2Workflow request none)⟩,
  ⟨.reserveUploadDestination "aaaaa-aa", .ok catDestination⟩,
  ⟨.encryptIdentity .null, .error "INTERNAL_ENCRYPTION_SECRET must be set"⟩,
  ⟨.submitVast (vastRequest catConfig request catId catKey none none
    (buildLtx2Workflow request none) catDestination),
    .ok ⟨catId, "submitted", 1779879600⟩⟩]

theorem acceptedTrace_workflow {request : GenerateRequest}
    (hmodel : request.modelId = "ltx2") :
    RuntimeWorkflow (acceptedTrace request) := by
  intro r url reply hmem
  have hcall : (⟨.workflowJson r url, reply⟩ : GenExchange) =
      ⟨.workflowJson request none, .ok (buildLtx2Workflow request none)⟩ := by
    simpa [acceptedTrace] using hmem
  cases hcall
  simp [runtimeWorkflowJson, hmodel]

/-- A cat was moderated, a dog is submitted. -/
def overridingRequest : GenerateRequest :=
  { catRequest with extraParams := Json.Map.empty.insert "prompt" (.str "a dog") }

theorem submits_unmoderated : ∃ tr out,
    Runs (generateInner catCrates catConfig overridingRequest) tr out ∧
      RuntimeWorkflow tr ∧ ¬ SubmitsModerated tr := by
  refine ⟨acceptedTrace overridingRequest,
    .ok ⟨operationId catKey, ltxProvider, catKey⟩,
    .call (.call (.call (.call (.call (.call (.call (.call (.ret _)))))))),
    acceptedTrace_workflow rfl, ?_⟩
  intro hall
  obtain ⟨m, hm, hsame⟩ := hall _ List.mem_cons_self
  obtain rfl := List.mem_singleton.mp hm
  have hprompt : (vastInput overridingRequest none).get? "prompt" =
      some (.str "a cat") := hsame.inputPrompt
  rw [vastInput_prompt, overridingRequest, Json.Map.get_insert_self] at hprompt
  exact absurd hprompt (by decide)

end VideoStorage.Videogen
