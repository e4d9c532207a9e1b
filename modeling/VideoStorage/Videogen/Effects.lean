import VideoStorage.Videogen.Generate

/-!
# The effects of the generate handler

What `generate_inner` does to its dependencies, as a law of the whole trace: every
run is read off the program once (`Generated`), and the order of effects is
then a matter of the few traces there are.
-/

namespace VideoStorage.Videogen

open Foundation
open Prog (Runs runs_bind runs_call runs_ret)

/-! ## Reading a trace -/

/-- Content that moderation found safe. -/
def approved : GenExchange → Option ModerationInput
  | ⟨.moderate input, .ok .safe⟩ => some input
  | _ => none

def submitted : GenExchange → Option VastSubmitRequest
  | ⟨.submitVast v, _⟩ => some v
  | _ => none

def markedFailed : GenExchange → Option RateLimiterRequestKey
  | ⟨.markRequestFailed key _, _⟩ => some key
  | _ => none

def reserved : GenExchange → Option UploadDestination
  | ⟨.reserveUploadDestination _, .ok d⟩ => some d
  | _ => none

def released : GenExchange → Option (RateLimiterRequestKey × UploadDestination)
  | ⟨.releaseUploadDestination key d, _⟩ => some (key, d)
  | _ => none

def recorded : GenExchange → Option (String × Option UInt64)
  | ⟨.recordPending request _, counter⟩ => some (request.userId, counter)
  | _ => none

def clockRead : GenExchange → Option (Option ℕ)
  | ⟨.systemTime, elapsed⟩ => some elapsed
  | _ => none

/-- The error a reply stands for; the release's is nobody's. -/
def failure : GenExchange → Option GenerateError
  | ⟨.moderate _, .error e⟩ => some (.moderation e)
  | ⟨.moderate _, .ok .notSafe⟩ =>
      some (.invalidInput "Content violates safety guidelines")
  | ⟨.reserveUploadDestination _, .error e⟩ => some (.uploadDestination e)
  | ⟨.stageImage _ _ _, .error e⟩ => some (.imageStage e)
  | ⟨.workflowJson _ _, .error e⟩ => some (.workflow e)
  | ⟨.submitVast v, answer⟩ =>
      (rejected v.requestId answer).map fun r => .vast r.2
  | _ => none

/-- The key of the recorded request, which a submission carries. -/
def keyOf (tr : List GenExchange) : Option RateLimiterRequestKey :=
  match tr.filterMap recorded with
  | (principal, some counter) :: _ => some ⟨principal, counter⟩
  | (principal, none) :: _ =>
      (tr.filterMap clockRead).head?.map fun elapsed =>
        ⟨principal, fallbackCounter elapsed⟩
  | [] => none

/-! ## The law -/

/-- The request passes every check made before anything is called. -/
structure Passed (crates : Crates) (request : GenerateRequest) : Prop where
  identity : crates.principalFromStr request.userId =
    .ok request.identityPrincipal
  uploadHandling : request.uploadHandling = .serverDraft
  modelId : request.modelId = "ltx2"
  promptNotBlank : ∃ c ∈ request.prompt.toList, ¬ isWhiteSpace c
  promptBounded : request.prompt.length ≤ maxPromptChars
  fingerprint : ∃ f, computeRequestFingerprint crates (fingerprintInput
    { request with userId := request.identityPrincipal }) = .ok f

/-- **Effect order** of a run that answers `out`. -/
structure EffectOrder (crates : Crates) (received : GenerateRequest)
    (tr : List GenExchange) (out : Except GenerateError GenerateResponse) :
    Prop where
  checked : tr ≠ [] → Passed crates received
  approvedFirst : ∀ pre x post, tr = pre ++ x :: post →
    (submitted x).isSome → pre.filterMap approved ≠ []
  failedOnce : ∀ e, out = .error e → tr.filterMap recorded ≠ [] →
    ∃ key, keyOf tr = some key ∧ tr.filterMap markedFailed = [key]
  notFailed : ∀ r, out = .ok r → tr.filterMap markedFailed = []
  submittedKey : ∀ v ∈ tr.filterMap submitted, keyOf tr = some v.requestKey
  releasedOnce : ∀ e d, out = .error e → d ∈ tr.filterMap reserved →
    ∃ key c, tr.filterMap released = [(key, { d with encryptedIdentity := c })]
  notReleased : (∃ r, out = .ok r) ∨ tr.filterMap reserved = [] →
    tr.filterMap released = []
  /-- The one call that failed; a failed release is not it. -/
  original : ∀ e, out = .error e → tr ≠ [] → tr.filterMap failure = [e]
  accepted : ∀ r, out = .ok r → ∃ v a, ⟨.submitVast v, .ok a⟩ ∈ tr ∧
    a.requestId = v.requestId ∧ (a.status = "submitted" ∨ a.status = "queued") ∧
    r.requestKey = v.requestKey

/-! ## The runs of each part

One lemma for each definition of the handler, which says all it can do.
-/

variable {crates : Crates} {config : GenerateConfig}
  {request received : GenerateRequest} {fingerprint : RequestFingerprint}
  {requestId : String} {requestKey : RateLimiterRequestKey}
  {url imageKey : Option String} {tr : List GenExchange}
  {out : Except GenerateError GenerateResponse}

theorem failAfterSubmit_runs {d : Option UploadDestination} {reason : String}
    {u : Unit} (h : Runs (failAfterSubmit requestKey d reason) tr u) :
    (d = none ∧ tr = [⟨.markRequestFailed requestKey reason, ()⟩]) ∨
    ∃ d' r, d = some d' ∧ tr = [⟨.markRequestFailed requestKey reason, ()⟩,
      ⟨.releaseUploadDestination requestKey d', r⟩] := by
  cases d with
  | none =>
      left
      simp only [failAfterSubmit, Prog.bind_eq, Prog.issue_bind, runs_call,
        Prog.pure_eq, runs_ret] at h
      obtain ⟨-, _, rfl, rfl, -⟩ := h
      exact ⟨rfl, rfl⟩
  | some d' =>
      right
      simp only [failAfterSubmit, Prog.bind_eq, Prog.issue_bind, runs_call,
        Prog.pure_eq, runs_ret] at h
      obtain ⟨-, _, rfl, r, _, rfl, rfl, -⟩ := h
      exact ⟨d', r, rfl, rfl⟩

/-- How a request with its image in place ends. -/
inductive SubmitEnds (config : GenerateConfig) (request : GenerateRequest)
    (requestId : String) (requestKey : RateLimiterRequestKey)
    (url imageKey : Option String) :
    List GenExchange → Except GenerateError GenerateResponse → Prop
  | noWorkflow (e : WorkflowError) (reason : String) :
      SubmitEnds config request requestId requestKey url imageKey
        [⟨.workflowJson request url, .error e⟩,
          ⟨.markRequestFailed requestKey reason, ()⟩]
        (.error (.workflow e))
  | notReserved (w : Json) (e : UploadDestinationError) (reason : String) :
      SubmitEnds config request requestId requestKey url imageKey
        [⟨.workflowJson request url, .ok w⟩,
          ⟨.reserveUploadDestination request.userId, .error e⟩,
          ⟨.markRequestFailed requestKey reason, ()⟩]
        (.error (.uploadDestination e))
  | rejected (w : Json) (d : UploadDestination) (c : Except String String)
      (answer : Except VastSubmitError VastSubmitAccepted) (reason : String)
      (e : VastSubmitError) (r : Except UploadDestinationError Unit)
      (h : Videogen.rejected requestId answer = some (reason, e)) :
      SubmitEnds config request requestId requestKey url imageKey
        [⟨.workflowJson request url, .ok w⟩,
          ⟨.reserveUploadDestination request.userId, .ok d⟩,
          ⟨.encryptIdentity request.delegatedIdentityWire, c⟩,
          ⟨.submitVast (vastRequest config request requestId requestKey url
            imageKey w { d with encryptedIdentity := c.toOption }), answer⟩,
          ⟨.markRequestFailed requestKey reason, ()⟩,
          ⟨.releaseUploadDestination requestKey
            { d with encryptedIdentity := c.toOption }, r⟩]
        (.error (.vast e))
  | accepted (w : Json) (d : UploadDestination) (c : Except String String)
      (a : VastSubmitAccepted)
      (h : Videogen.rejected requestId (.ok a) = none) :
      SubmitEnds config request requestId requestKey url imageKey
        [⟨.workflowJson request url, .ok w⟩,
          ⟨.reserveUploadDestination request.userId, .ok d⟩,
          ⟨.encryptIdentity request.delegatedIdentityWire, c⟩,
          ⟨.submitVast (vastRequest config request requestId requestKey url
            imageKey w { d with encryptedIdentity := c.toOption }), .ok a⟩]
        (.ok ⟨operationId requestKey, ltxProvider, requestKey⟩)

theorem submitStaged_runs (h : Runs (submitStaged config request requestId
    requestKey url imageKey) tr out) :
    SubmitEnds config request requestId requestKey url imageKey tr out := by
  simp only [submitStaged, Prog.bind_eq, Prog.issue_bind, runs_call] at h
  obtain ⟨workflow, tr₁, rfl, h⟩ := h
  -- each failure so far is before a destination is reserved
  cases workflow with
  | error e =>
      rw [runs_bind] at h
      obtain ⟨u, tr₂, tr₃, rfl, hfail, hret⟩ := h
      obtain ⟨rfl, rfl⟩ := runs_ret.mp hret
      rcases failAfterSubmit_runs hfail with ⟨-, rfl⟩ | ⟨_, _, hd, -⟩
      · exact .noWorkflow e _
      · cases hd
  | ok w =>
      simp only [runs_call] at h
      obtain ⟨destination, tr₂, rfl, h⟩ := h
      cases destination with
      | error e =>
          rw [runs_bind] at h
          obtain ⟨u, tr₃, tr₄, rfl, hfail, hret⟩ := h
          obtain ⟨rfl, rfl⟩ := runs_ret.mp hret
          rcases failAfterSubmit_runs hfail with ⟨-, rfl⟩ | ⟨_, _, hd, -⟩
          · exact .notReserved w e _
          · cases hd
      | ok d =>
          simp only [runs_call] at h
          obtain ⟨c, tr₃, rfl, answer, tr₄, rfl, h⟩ := h
          -- from here on a refusal releases the destination
          cases hr : rejected requestId answer with
          | none =>
              rw [hr] at h
              obtain ⟨rfl, rfl⟩ := runs_ret.mp h
              cases answer with
              | error e => cases hr
              | ok a => exact .accepted w d c a hr
          | some r =>
              obtain ⟨reason, e⟩ := r
              rw [hr] at h
              simp only [runs_bind] at h
              obtain ⟨u, tr₅, tr₆, rfl, hfail, hret⟩ := h
              obtain ⟨rfl, rfl⟩ := runs_ret.mp hret
              rcases failAfterSubmit_runs hfail with ⟨hd, -⟩ | ⟨d', r, hd, rfl⟩
              · cases hd
              · cases hd
                exact .rejected w d c answer reason e r hr

/-- How a recorded request ends: its image is in place, or staged now. -/
inductive RecordedEnds (config : GenerateConfig) (request : GenerateRequest)
    (requestId : String) (requestKey : RateLimiterRequestKey)
    (url imageKey : Option String) :
    List GenExchange → Except GenerateError GenerateResponse → Prop
  | inPlace {tr : List GenExchange}
      {out : Except GenerateError GenerateResponse} (hurl : url.isSome)
      (h : SubmitEnds config request requestId requestKey url imageKey tr out) :
      RecordedEnds config request requestId requestKey url imageKey tr out
  | notStaged (hurl : url = none) (e : ImageStageError) (reason : String) :
      RecordedEnds config request requestId requestKey url imageKey
        [⟨.stageImage request.image request.userId
            config.vastImageStageTimeoutSecs, .error e⟩,
          ⟨.markRequestFailed requestKey reason, ()⟩]
        (.error (.imageStage e))
  | staged {tr : List GenExchange}
      {out : Except GenerateError GenerateResponse} (hurl : url = none)
      (image : Option (String × Option String))
      (h : SubmitEnds config request requestId requestKey (image.map Prod.fst)
        (image.bind Prod.snd) tr out) :
      RecordedEnds config request requestId requestKey url imageKey
        (⟨.stageImage request.image request.userId
          config.vastImageStageTimeoutSecs, .ok image⟩ :: tr) out

theorem staged_ok {image : Option (String × Option String)} :
    staged (.ok image) = .ok (image.map Prod.fst, image.bind Prod.snd) := by
  cases image <;> rfl

theorem submitRecorded_runs (h : Runs (submitRecorded config request requestId
    requestKey url imageKey) tr out) :
    RecordedEnds config request requestId requestKey url imageKey tr out := by
  unfold submitRecorded at h
  split_ifs at h with hurl
  · exact .inPlace hurl (submitStaged_runs h)
  · have hnone : url = none := Option.not_isSome_iff_eq_none.mp hurl
    simp only [stage, Prog.bind_eq, Prog.issue_bind, Prog.call_bind,
      Prog.pure_eq, Prog.ret_bind, runs_call] at h
    obtain ⟨reply, tr₁, rfl, h⟩ := h
    cases reply with
    | error e =>
        simp only [staged, runs_bind] at h
        obtain ⟨u, tr₂, tr₃, rfl, hfail, hret⟩ := h
        obtain ⟨rfl, rfl⟩ := runs_ret.mp hret
        rcases failAfterSubmit_runs hfail with ⟨-, rfl⟩ | ⟨_, _, hd, -⟩
        · exact .notStaged hnone e _
        · cases hd
    | ok image =>
        rw [staged_ok] at h
        exact .staged hnone image (submitStaged_runs h)

/-- The trace of a request that was recorded. -/
def recordedTrace (pre : List GenExchange) (input : ModerationInput)
    (requestId : String) (rec tr : List GenExchange) : List GenExchange :=
  pre ++ ⟨.moderate input, .ok .safe⟩ :: ⟨.newUuid, requestId⟩ :: (rec ++ tr)

/-- How a checked request fares. -/
inductive Generated (config : GenerateConfig) (request : GenerateRequest)
    (fingerprint : RequestFingerprint) :
    List GenExchange → Except GenerateError GenerateResponse → Prop
  | notStaged {pre : List GenExchange} {e : ImageStageError}
      (hpre : Runs (preStage config request) pre (.error e)) :
      Generated config request fingerprint pre (.error (.imageStage e))
  | notApproved {pre tr : List GenExchange} {url imageKey : Option String}
      {e : GenerateError}
      (hpre : Runs (preStage config request) pre (.ok (url, imageKey)))
      (h : Runs (moderateContent request fingerprint url imageKey) tr (.error e)) :
      Generated config request fingerprint (pre ++ tr) (.error e)
  | recorded {pre rec tr : List GenExchange} {url imageKey : Option String}
      {requestId : String} {counter : UInt64}
      {out : Except GenerateError GenerateResponse}
      (hpre : Runs (preStage config request) pre (.ok (url, imageKey)))
      (hrec : Runs (requestCounter request requestId) rec counter)
      (h : RecordedEnds config request requestId ⟨request.userId, counter⟩ url
        imageKey tr out) :
      Generated config request fingerprint (recordedTrace pre
        (moderationInput request fingerprint url) requestId rec tr) out

/-- Only a Base64 image is staged before moderation. -/
theorem preStage_runs {r : Except ImageStageError (Option String × Option String)}
    (h : Runs (preStage config request) tr r) :
    ((∀ b, request.image ≠ some (.base64 b)) ∧ tr = [] ∧ r = .ok (none, none)) ∨
    ∃ b reply, request.image = some (.base64 b) ∧
      tr = [⟨.stageImage request.image request.userId
        config.vastImageStageTimeoutSecs, reply⟩] ∧ r = staged reply := by
  unfold preStage at h
  split at h
  · rename_i b himage
    right
    simp only [stage, Prog.bind_eq, Prog.issue_bind, runs_call, Prog.pure_eq,
      runs_ret] at h
    obtain ⟨reply, _, rfl, rfl, rfl⟩ := h
    exact ⟨b, reply, himage, rfl, rfl⟩
  · rename_i hnot
    left
    obtain ⟨rfl, rfl⟩ := runs_ret.mp h
    exact ⟨hnot, rfl, rfl⟩

/-- Moderation lets pass what it found safe, and only that. -/
theorem moderateContent_runs {r : Except GenerateError Unit}
    (h : Runs (moderateContent request fingerprint url imageKey) tr r) :
    (r = .ok () ∧
      tr = [⟨.moderate (moderationInput request fingerprint url), .ok .safe⟩]) ∨
    ∃ decision e del u, r = .error e ∧ Runs (spawnDelete imageKey) del u ∧
      tr = ⟨.moderate (moderationInput request fingerprint url), decision⟩ ::
        del ∧
      failure ⟨.moderate (moderationInput request fingerprint url), decision⟩ =
        some e := by
  simp only [moderateContent, Prog.bind_eq, Prog.issue_bind, runs_call] at h
  obtain ⟨decision, tr₁, rfl, h⟩ := h
  rcases decision with e | _ | _
  · right
    simp only [runs_bind, Prog.pure_eq, runs_ret] at h
    obtain ⟨u, del, _, rfl, hdel, rfl, rfl⟩ := h
    rw [List.append_nil]
    exact ⟨_, _, del, u, rfl, hdel, rfl, rfl⟩
  · left
    obtain ⟨rfl, rfl⟩ := runs_ret.mp h
    exact ⟨rfl, rfl⟩
  · right
    simp only [runs_bind, Prog.pure_eq, runs_ret] at h
    obtain ⟨u, del, _, rfl, hdel, rfl, rfl⟩ := h
    rw [List.append_nil]
    exact ⟨_, _, del, u, rfl, hdel, rfl, rfl⟩

theorem generateChecked_runs
    (h : Runs (generateChecked config request fingerprint) tr out) :
    Generated config request fingerprint tr out := by
  simp only [generateChecked, Prog.bind_eq, runs_bind] at h
  obtain ⟨pre, tr₁, tr₂, rfl, hpre, h⟩ := h
  cases pre with
  | error e =>
      obtain ⟨rfl, rfl⟩ := runs_ret.mp h
      rw [List.append_nil]
      exact .notStaged hpre
  | ok r =>
      obtain ⟨url, imageKey⟩ := r
      simp only [runs_bind] at h
      obtain ⟨verdict, tr₃, tr₄, rfl, hmod, h⟩ := h
      cases verdict with
      | error e =>
          obtain ⟨rfl, rfl⟩ := runs_ret.mp h
          rw [List.append_nil]
          exact .notApproved hpre hmod
      | ok u =>
          simp only [Prog.issue_bind, runs_call, runs_bind] at h
          obtain ⟨requestId, tr₅, rfl, counter, rec, tr₆, rfl, hrec, h⟩ := h
          rcases moderateContent_runs hmod with ⟨-, rfl⟩ | ⟨_, _, _, _, he, -⟩
          · exact .recorded hpre hrec (submitRecorded_runs h)
          · cases he

/-! ## The effects of each part -/

/-- Nothing that the law is about, apart from moderation and failures. -/
def Quiet (x : GenExchange) : Prop :=
  submitted x = none ∧ markedFailed x = none ∧ reserved x = none ∧
    released x = none ∧ recorded x = none ∧ clockRead x = none

theorem preStage_quiet {r : Except ImageStageError (Option String × Option String)}
    (h : Runs (preStage config request) tr r) : ∀ x ∈ tr, Quiet x := by
  intro x hx
  rcases preStage_runs h with ⟨-, rfl, -⟩ | ⟨_, reply, -, rfl, -⟩
  · cases hx
  · obtain rfl := List.mem_singleton.mp hx
    exact ⟨rfl, rfl, rfl, rfl, rfl, rfl⟩

theorem preStage_failure {r : Except ImageStageError (Option String × Option String)}
    (h : Runs (preStage config request) tr r) :
    tr.filterMap failure =
      match r with
      | .ok _ => []
      | .error e => [.imageStage e] := by
  rcases preStage_runs h with ⟨-, rfl, rfl⟩ | ⟨_, reply, -, rfl, rfl⟩
  · rfl
  · cases reply with
    | error e => rfl
    | ok image => cases image <;> rfl

theorem spawnDelete_runs {u : Unit} (h : Runs (spawnDelete imageKey) tr u) :
    (∀ x ∈ tr, Quiet x) ∧ tr.filterMap failure = [] := by
  cases imageKey with
  | none =>
      obtain ⟨rfl, -⟩ := runs_ret.mp h
      exact ⟨by simp, rfl⟩
  | some key =>
      have h' : Runs (Prog.call (GenerateCall.spawnUplinkRm key) Prog.ret) tr u := h
      simp only [runs_call, runs_ret] at h'
      obtain ⟨_, _, rfl, rfl, -⟩ := h'
      refine ⟨?_, rfl⟩
      intro x hx
      obtain rfl := List.mem_singleton.mp hx
      exact ⟨rfl, rfl, rfl, rfl, rfl, rfl⟩

theorem moderateContent_error {e : GenerateError} (h : Runs (moderateContent
    request fingerprint url imageKey) tr (.error e)) :
    (∀ x ∈ tr, Quiet x) ∧ tr.filterMap failure = [e] := by
  rcases moderateContent_runs h with ⟨he, -⟩ | ⟨d, e', del, u, he, hdel, rfl, hf⟩
  · cases he
  · cases he
    obtain ⟨hquiet, hnone⟩ := spawnDelete_runs hdel
    refine ⟨?_, ?_⟩
    · intro x hx
      rcases List.mem_cons.mp hx with rfl | hx
      · exact ⟨rfl, rfl, rfl, rfl, rfl, rfl⟩
      · exact hquiet x hx
    · rw [List.filterMap_cons_some hf, hnone]

/-- The recorded request and its counter. -/
theorem requestCounter_runs {counter : UInt64}
    (h : Runs (requestCounter request requestId) tr counter) :
    tr = [⟨.recordPending request requestId, some counter⟩] ∨
    ∃ elapsed, counter = fallbackCounter elapsed ∧
      tr = [⟨.recordPending request requestId, none⟩, ⟨.systemTime, elapsed⟩] := by
  simp only [requestCounter, Prog.bind_eq, Prog.issue_bind, runs_call] at h
  obtain ⟨stored, tr₁, rfl, h⟩ := h
  cases stored with
  | some counter =>
      obtain ⟨rfl, rfl⟩ := runs_ret.mp h
      exact .inl rfl
  | none =>
      simp only [runs_call, Prog.pure_eq, runs_ret] at h
      obtain ⟨elapsed, _, rfl, rfl, rfl⟩ := h
      exact .inr ⟨elapsed, rfl, rfl⟩

/-- What a recorded request leaves behind. -/
structure Settled (requestKey : RateLimiterRequestKey) (tr : List GenExchange)
    (out : Except GenerateError GenerateResponse) : Prop where
  recorded : tr.filterMap recorded = []
  clockRead : tr.filterMap clockRead = []
  submittedKey : ∀ v ∈ tr.filterMap submitted, v.requestKey = requestKey
  failed : ∀ e, out = .error e →
    tr.filterMap markedFailed = [requestKey] ∧ tr.filterMap failure = [e] ∧
      ((tr.filterMap reserved = [] ∧ tr.filterMap released = []) ∨
        ∃ d c, tr.filterMap reserved = [d] ∧ tr.filterMap released =
          [(requestKey, { d with encryptedIdentity := c })])
  succeeded : ∀ r, out = .ok r →
    tr.filterMap markedFailed = [] ∧ tr.filterMap released = [] ∧
      ∃ v a, ⟨.submitVast v, .ok a⟩ ∈ tr ∧ a.requestId = v.requestId ∧
        (a.status = "submitted" ∨ a.status = "queued") ∧
        r.requestKey = v.requestKey

theorem accepted_of_not_rejected {a : VastSubmitAccepted}
    (h : rejected requestId (.ok a) = none) :
    a.requestId = requestId ∧ (a.status = "submitted" ∨ a.status = "queued") := by
  simp only [rejected] at h
  split_ifs at h with ha
  simpa [isAcceptedStatus] using ha

theorem SubmitEnds.settled
    (h : SubmitEnds config request requestId requestKey url imageKey tr out) :
    Settled requestKey tr out := by
  cases h with
  | noWorkflow e reason =>
      refine ⟨rfl, rfl, by simp [submitted], ?_, nofun⟩
      rintro _ ⟨⟩
      exact ⟨rfl, rfl, .inl ⟨rfl, rfl⟩⟩
  | notReserved w e reason =>
      refine ⟨rfl, rfl, by simp [submitted], ?_, nofun⟩
      rintro _ ⟨⟩
      exact ⟨rfl, rfl, .inl ⟨rfl, rfl⟩⟩
  | rejected w d c answer reason e r hr =>
      refine ⟨rfl, rfl, by simp [submitted, vastRequest], ?_, nofun⟩
      rintro _ ⟨⟩
      refine ⟨rfl, ?_, .inr ⟨d, c.toOption, rfl, rfl⟩⟩
      -- the submission is the one call that failed
      have hsubmit : failure ⟨.submitVast (vastRequest config request requestId
          requestKey url imageKey w { d with encryptedIdentity := c.toOption }),
          answer⟩ = some (.vast e) := by
        show (Videogen.rejected requestId answer).map _ = _
        rw [hr]
        rfl
      rw [List.filterMap_cons_none (f := failure) rfl,
        List.filterMap_cons_none (f := failure) rfl,
        List.filterMap_cons_none (f := failure) rfl,
        List.filterMap_cons_some hsubmit]
      rfl
  | accepted w d c a hr =>
      refine ⟨rfl, rfl, by simp [submitted, vastRequest], nofun, ?_⟩
      rintro _ ⟨⟩
      obtain ⟨hid, hstatus⟩ := accepted_of_not_rejected hr
      refine ⟨rfl, rfl, vastRequest config request requestId requestKey url
        imageKey w { d with encryptedIdentity := c.toOption }, a, ?_, hid,
        hstatus, rfl⟩
      simp

theorem Settled.cons {x : GenExchange} (hx : Quiet x) (hf : failure x = none)
    (h : Settled requestKey tr out) : Settled requestKey (x :: tr) out := by
  obtain ⟨hsub, hmark, hres, hrel, hrec, hclock⟩ := hx
  constructor
  · rw [List.filterMap_cons_none hrec]
    exact h.recorded
  · rw [List.filterMap_cons_none hclock]
    exact h.clockRead
  · rw [List.filterMap_cons_none hsub]
    exact h.submittedKey
  · rw [List.filterMap_cons_none hmark, List.filterMap_cons_none hf,
      List.filterMap_cons_none hres, List.filterMap_cons_none hrel]
    exact h.failed
  · rw [List.filterMap_cons_none hmark, List.filterMap_cons_none hrel]
    intro r hr
    obtain ⟨hm, hl, v, a, hmem, hacc⟩ := h.succeeded r hr
    exact ⟨hm, hl, v, a, List.mem_cons_of_mem x hmem, hacc⟩

theorem RecordedEnds.settled
    (h : RecordedEnds config request requestId requestKey url imageKey tr out) :
    Settled requestKey tr out := by
  cases h with
  | inPlace _ h => exact h.settled
  | notStaged _ e reason =>
      refine ⟨rfl, rfl, by simp [submitted], ?_, nofun⟩
      rintro _ ⟨⟩
      exact ⟨rfl, rfl, .inl ⟨rfl, rfl⟩⟩
  | staged _ image h =>
      apply h.settled.cons
      · exact ⟨rfl, rfl, rfl, rfl, rfl, rfl⟩
      · rfl

/-! ## The order of effects -/

theorem checks_ok {r : GenerateRequest × RequestFingerprint}
    (h : checks crates received = .ok r) : Passed crates received ∧
      r.1 = { received with userId := received.identityPrincipal } := by
  unfold checks at h
  split at h
  · cases h
  · rename_i claimed hclaimed
    split_ifs at h with hid hupload hmodel hblank hlong
    rw [not_ne_iff] at hid hupload hmodel
    dsimp only at h
    split at h
    · cases h
    · rename_i f hf
      cases h
      subst hid
      refine ⟨⟨hclaimed, hupload, hmodel, ?_, not_lt.mp hlong, f, hf⟩, rfl⟩
      rw [trim_eq_empty, not_forall] at hblank
      obtain ⟨c, hc⟩ := hblank
      exact ⟨c, Classical.not_imp.mp hc⟩

theorem filterMap_quiet {α : Type} {f : GenExchange → Option α}
    (hf : ∀ x, Quiet x → f x = none) (h : ∀ x ∈ tr, Quiet x) :
    tr.filterMap f = [] :=
  List.filterMap_eq_nil_iff.mpr fun x hx => hf x (h x hx)

section Recorded

variable {pre rec : List GenExchange} {input : ModerationInput} {counter : UInt64}

theorem filterMap_recordedTrace {α : Type} {f : GenExchange → Option α}
    (hid : f ⟨.newUuid, requestId⟩ = none) :
    (recordedTrace pre input requestId rec tr).filterMap f =
      pre.filterMap f ++ ((f ⟨.moderate input, .ok .safe⟩).toList ++
        (rec.filterMap f ++ tr.filterMap f)) := by
  rw [recordedTrace, List.filterMap_append, List.filterMap_cons,
    List.filterMap_cons_none hid, List.filterMap_append]
  cases f ⟨.moderate input, .ok .safe⟩ <;> rfl

/-- Storing the request neither submits nor fails anything. -/
theorem requestCounter_filterMap {α : Type} {f : GenExchange → Option α}
    (hrecord : ∀ c, f ⟨.recordPending request requestId, c⟩ = none)
    (hclock : ∀ t, f ⟨.systemTime, t⟩ = none)
    (hrec : Runs (requestCounter request requestId) rec counter) :
    rec.filterMap f = [] := by
  rcases requestCounter_runs hrec with rfl | ⟨elapsed, -, rfl⟩
  · simp [hrecord]
  · simp [hrecord, hclock]

theorem keyOf_recordedTrace (hpre : ∀ x ∈ pre, Quiet x)
    (hrec : Runs (requestCounter request requestId) rec counter)
    (h : Settled requestKey tr out) :
    keyOf (recordedTrace pre input requestId rec tr) =
      some ⟨request.userId, counter⟩ := by
  unfold keyOf
  rw [filterMap_recordedTrace rfl, filterMap_recordedTrace rfl,
    filterMap_quiet (fun _ hx => hx.2.2.2.2.1) hpre,
    filterMap_quiet (fun _ hx => hx.2.2.2.2.2) hpre, h.recorded, h.clockRead]
  rcases requestCounter_runs hrec with rfl | ⟨elapsed, rfl, rfl⟩
  · rfl
  · rfl

/-- Past the storing of the request. -/
theorem filterMap_settling {α : Type} {f : GenExchange → Option α}
    (hquiet : ∀ x, Quiet x → f x = none)
    (hrecord : ∀ c, f ⟨.recordPending request requestId, c⟩ = none)
    (hclock : ∀ t, f ⟨.systemTime, t⟩ = none) (hpre : ∀ x ∈ pre, Quiet x)
    (hrec : Runs (requestCounter request requestId) rec counter) :
    (recordedTrace pre input requestId rec tr).filterMap f =
      tr.filterMap f := by
  have hmod : f ⟨.moderate input, .ok .safe⟩ = none :=
    hquiet _ ⟨rfl, rfl, rfl, rfl, rfl, rfl⟩
  rw [filterMap_recordedTrace (hquiet _ ⟨rfl, rfl, rfl, rfl, rfl, rfl⟩),
    filterMap_quiet hquiet hpre, hmod,
    requestCounter_filterMap hrecord hclock hrec]
  rfl

theorem Settled.effectOrder (hpassed : Passed crates received)
    (hpre : ∀ x ∈ pre, Quiet x) (hok : pre.filterMap failure = [])
    (hrec : Runs (requestCounter request requestId) rec counter)
    (h : Settled ⟨request.userId, counter⟩ tr out) :
    EffectOrder crates received (recordedTrace pre input requestId rec tr)
      out := by
  -- recording the request adds nothing that is submitted, failed, reserved
  -- or released
  have hsubmitted : (recordedTrace pre input requestId rec tr).filterMap
      submitted = tr.filterMap submitted :=
    filterMap_settling (fun _ hx => hx.1) (fun _ => rfl) (fun _ => rfl) hpre hrec
  have hmarked : (recordedTrace pre input requestId rec tr).filterMap
      markedFailed = tr.filterMap markedFailed :=
    filterMap_settling (fun _ hx => hx.2.1) (fun _ => rfl) (fun _ => rfl) hpre
      hrec
  have hreserved : (recordedTrace pre input requestId rec tr).filterMap
      reserved = tr.filterMap reserved :=
    filterMap_settling (fun _ hx => hx.2.2.1) (fun _ => rfl) (fun _ => rfl) hpre
      hrec
  have hreleased : (recordedTrace pre input requestId rec tr).filterMap
      released = tr.filterMap released :=
    filterMap_settling (fun _ hx => hx.2.2.2.1) (fun _ => rfl) (fun _ => rfl)
      hpre hrec
  have hfailure : (recordedTrace pre input requestId rec tr).filterMap
      failure = tr.filterMap failure := by
    rw [filterMap_recordedTrace rfl, hok,
      requestCounter_filterMap (fun _ => rfl) (fun _ => rfl) hrec]
    rfl
  have hkey : keyOf (recordedTrace pre input requestId rec tr) =
      some ⟨request.userId, counter⟩ := keyOf_recordedTrace hpre hrec h
  constructor
  · exact fun _ => hpassed
  -- the approval comes before the record, and every submission after it
  · intro before x post hsplit hx
    have hmem : (⟨.moderate input, .ok .safe⟩ : GenExchange) ∈ before := by
      refine Prog.mem_before hsplit ?_ ?_
      · intro hxpre
        rw [(hpre x hxpre).1] at hx
        cases hx
      · rintro rfl
        cases hx
    intro hnone
    have := List.filterMap_eq_nil_iff.mp hnone _ hmem
    cases this
  · intro e he _
    exact ⟨_, hkey, hmarked.trans (h.failed e he).1⟩
  · intro r hr
    exact hmarked.trans (h.succeeded r hr).1
  · intro v hv
    rw [hsubmitted] at hv
    rw [hkey, h.submittedKey v hv]
  -- a failure behind a reservation released it, one before it had none
  · intro e d he hd
    rw [hreserved] at hd
    rw [hreleased]
    rcases (h.failed e he).2.2 with ⟨hnone, -⟩ | ⟨d', c, hres, hrel⟩
    · rw [hnone] at hd
      cases hd
    · rw [hres, List.mem_singleton] at hd
      exact ⟨_, c, hd ▸ hrel⟩
  · intro hcase
    rw [hreserved] at hcase
    rw [hreleased]
    rcases hcase with ⟨r, hr⟩ | hnone
    · exact (h.succeeded r hr).2.1
    · cases out with
      | ok r => exact (h.succeeded r rfl).2.1
      | error e =>
          rcases (h.failed e rfl).2.2 with ⟨-, hrel⟩ | ⟨d, c, hres, -⟩
          · exact hrel
          · rw [hnone] at hres
            cases hres
  · intro e he _
    exact hfailure.trans (h.failed e he).2.1
  · intro r hr
    obtain ⟨-, -, v, a, hmem, hacc⟩ := h.succeeded r hr
    refine ⟨v, a, ?_, hacc⟩
    simp [recordedTrace, hmem]

end Recorded

/-- A run that ends before anything is recorded. -/
theorem effectOrder_of_quiet {e : GenerateError}
    (hpassed : Passed crates received) (hquiet : ∀ x ∈ tr, Quiet x)
    (hfailure : tr.filterMap failure = [e]) :
    EffectOrder crates received tr (.error e) := by
  have hsubmitted := filterMap_quiet (fun _ hx => hx.1) hquiet
  have hreserved := filterMap_quiet (fun _ hx => hx.2.2.1) hquiet
  have hreleased := filterMap_quiet (fun _ hx => hx.2.2.2.1) hquiet
  have hrecorded := filterMap_quiet (fun _ hx => hx.2.2.2.2.1) hquiet
  constructor
  · exact fun _ => hpassed
  · rintro before x post rfl hx
    rw [(hquiet x (by simp)).1] at hx
    cases hx
  · exact fun _ _ hne => absurd hrecorded hne
  · exact nofun
  · intro v hv
    rw [hsubmitted] at hv
    cases hv
  · intro _ d _ hd
    rw [hreserved] at hd
    cases hd
  · exact fun _ => hreleased
  · rintro _ ⟨⟩ _
    exact hfailure
  · exact nofun

/-- The handler stops at a check, with nothing called, or goes on with the
request under its canonical principal. -/
theorem generateInner_runs
    (h : Runs (generateInner crates config received) tr out) :
    ((∃ e, out = .error e) ∧ tr = []) ∨
    Passed crates received ∧ ∃ fingerprint, Generated config
      { received with userId := received.identityPrincipal } fingerprint tr
      out := by
  unfold generateInner at h
  cases hc : checks crates received with
  | error e =>
      rw [hc] at h
      obtain ⟨rfl, rfl⟩ := runs_ret.mp h
      exact .inl ⟨⟨e, rfl⟩, rfl⟩
  | ok r =>
      obtain ⟨request, fingerprint⟩ := r
      rw [hc] at h
      obtain ⟨hpassed, hrequest⟩ := checks_ok hc
      obtain rfl : request = _ := hrequest
      exact .inr ⟨hpassed, fingerprint, generateChecked_runs h⟩

/-- **The effects of `generate_inner` come in order**, in every run. -/
theorem generate_effects
    (h : Runs (generateInner crates config received) tr out) :
    EffectOrder crates received tr out := by
  rcases generateInner_runs h with ⟨⟨e, rfl⟩, rfl⟩ | ⟨hpassed, fingerprint, hgen⟩
  · -- nothing was called
    refine ⟨?_, ?_, ?_, nofun, nofun, ?_, fun _ => rfl, ?_, nofun⟩
    · exact fun hne => absurd rfl hne
    · intro before x post hsplit
      cases before <;> cases hsplit
    · exact fun _ _ hne => absurd rfl hne
    · exact fun _ _ _ hd => nomatch hd
    · exact fun _ _ hne => absurd rfl hne
  · cases hgen with
    | notStaged hpre =>
        exact effectOrder_of_quiet hpassed (preStage_quiet hpre)
          (preStage_failure hpre)
    | notApproved hpre hmod =>
        obtain ⟨hquiet, hfailure⟩ := moderateContent_error hmod
        apply effectOrder_of_quiet hpassed
        · intro x hx
          rcases List.mem_append.mp hx with hx | hx
          · exact preStage_quiet hpre x hx
          · exact hquiet x hx
        · rw [List.filterMap_append, preStage_failure hpre, hfailure]
          rfl
    | recorded hpre hrec hends =>
        exact hends.settled.effectOrder hpassed (preStage_quiet hpre)
          (preStage_failure hpre) hrec

/-! ## A submission that fails

The submission times out and so does the release of its destination.
-/

/-- The crates on the request below. -/
def catCrates : Crates where
  principalFromStr := .ok
  decodeBase64 _ := none
  sha256Hex _ :=
    "a2c7cc102cec71551975c8019637d8a49ac3e0e3e3efd0cdc78496ac3155b725"
  hmacSha256 _ _ := []
  hexEncode _ := ""
  hexDecode _ := some []
  jsonText _ := "\x7b\"aspect_ratio\":\"16:9\",\"duration\":5," ++
    "\"fingerprint_version\":1,\"generate_audio\":false," ++
    "\"image_identity\":null,\"image_identity_type\":\"none\"," ++
    "\"model_id\":\"ltx2\",\"negative_prompt\":null," ++
    "\"principal\":\"aaaaa-aa\",\"prompt\":\"a cat\"," ++
    "\"resolution\":\"720p\",\"seed\":null,\"token_type\":\"Free\"," ++
    "\"upload_handling\":\"ServerDraft\"\x7d"
  parseJson _ := .error "EOF while parsing a value at line 1 column 0"
  bodyText _ := ""
  statusText _ := "200 OK"

def catRequest : GenerateRequest where
  userId := "aaaaa-aa"
  identityPrincipal := "aaaaa-aa"
  uploadHandling := .serverDraft
  delegatedIdentityWire := .null
  prompt := "a cat"
  modelId := "ltx2"
  tokenType := none
  negativePrompt := none
  image := none
  aspectRatio := none
  durationSeconds := none
  resolution := none
  generateAudio := none
  seed := none
  extraParams := .empty

def catConfig : GenerateConfig where
  vastImageStageTimeoutSecs := 30
  callbackUrl := "https://prakash.example.test/api/v2/videogen/complete"
  uploadUrlRefreshUrl := none

def catKey : RateLimiterRequestKey := ⟨"aaaaa-aa", 17⟩

def catDestination : UploadDestination where
  videoId := "video-17"
  objectKey := "video-17.mp4"
  uploadUrl := "https://upload.example.test/video-17"
  expiresAt := 1779883200
  bucketUrl := none
  encryptedIdentity := none

def catTrace (requestId : String) : List GenExchange := [
  ⟨.moderate ⟨catCrates.sha256Hex [], "aaaaa-aa", "a cat", .textOnly⟩,
    .ok .safe⟩,
  ⟨.newUuid, requestId⟩,
  ⟨.recordPending catRequest requestId, some 17⟩,
  ⟨.stageImage none "aaaaa-aa" 30, .ok none⟩,
  ⟨.workflowJson catRequest none, .ok .null⟩,
  ⟨.reserveUploadDestination "aaaaa-aa", .ok catDestination⟩,
  ⟨.encryptIdentity .null, .error "INTERNAL_ENCRYPTION_SECRET must be set"⟩,
  ⟨.submitVast (vastRequest catConfig catRequest requestId catKey none none
    .null catDestination), .error (.requestFailed "Vast submit timed out")⟩,
  ⟨.markRequestFailed catKey ("Vast submit failed: " ++
    "Vast submit request failed: Vast submit timed out"), ()⟩,
  ⟨.releaseUploadDestination catKey catDestination,
    .error (.unavailable "release endpoint down")⟩]

theorem generate_effects_leaked : EffectOrder catCrates catRequest
    (catTrace "018f5fa2-05c7-4b4a-8934-19b1f3c29d49")
    (.error (.vast (.requestFailed "Vast submit timed out"))) := by
  have hrun : Runs (generateInner catCrates catConfig catRequest)
      (catTrace "018f5fa2-05c7-4b4a-8934-19b1f3c29d49")
      (.error (.vast (.requestFailed "Vast submit timed out"))) :=
    .call (.call (.call (.call (.call (.call (.call (.call (.call (.call
      (.ret _))))))))))
  exact generate_effects hrun

end VideoStorage.Videogen
