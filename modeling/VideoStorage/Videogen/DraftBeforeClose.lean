import VideoStorage.Videogen.Authentication
import VideoStorage.Videogen.CompletionRuns

/-!
# The draft before the close

A request is to leave the in-progress list as complete only once its draft is
registered. `create_draft` reports a request without an encrypted identity as
done, and the handler closes it: the order holds of all callbacks but these
(`draft_before_close_iff`).
-/

namespace VideoStorage.Videogen

open Foundation Prog

/-- What closes a request as complete comes after its draft is registered. -/
def DraftBeforeClose (lib : DraftCrates) (tr : List RuntimeExchange) : Prop :=
  ∀ pre post principal counter videoId bucketUrl,
    tr = pre ++ ⟨.recordTerminal principal counter (.complete videoId bucketUrl),
      ()⟩ :: post → Registered lib principal videoId pre

/-- A full report of success that brings no identity to register a draft with. -/
structure SkipsDraft (req : CompleteVideoRequest) : Prop where
  status : req.status = .success
  fields : ∃ fields, successFields req = .ok fields
  identity : req.encryptedIdentity = none

variable {lib : DraftCrates} {services : UploadServices} {crates : Crates}
  {env : CallbackEnv} {parse : Bytes → Except String CompleteVideoRequest}
  {headers : HeaderMap} {rawBody : Bytes} {req : CompleteVideoRequest}
  {tr : List RuntimeExchange} {out : CallbackResult}

def RuntimeCall.Completes : RuntimeCall → Prop
  | .recordTerminal _ _ (.complete _ _) => True
  | _ => False

theorem RuntimeCall.IsDraft.not_completes {e : RuntimeCall} (h : e.IsDraft) :
    ¬ e.Completes := by
  cases e <;> first | exact id | exact absurd h id

theorem not_completes_stagedTrace {x : RuntimeExchange}
    (hx : x ∈ stagedTrace req) : ¬ x.1.Completes := by
  obtain ⟨key, -, rfl⟩ := List.mem_map.mp hx
  exact id

theorem not_completes_release {requestKey : RateLimiterRequestKey}
    {videoId objectKey : Option String} {r : Except String Unit}
    (h : Runs (releaseUploadDestination requestKey videoId objectKey) tr r)
    {x : RuntimeExchange} (hx : x ∈ tr) : ¬ x.1.Completes := by
  refine Only.runs (P := fun e => ¬ e.Completes) ?_ h x hx
  unfold releaseUploadDestination
  split
  · exact (only_issue _).mpr id
  · exact only_ret _

theorem not_completes_draft {request : DraftCreationRequest}
    {r : Except DraftServiceError Unit}
    (h : Runs (createDraft lib services request) tr r) {x : RuntimeExchange}
    (hx : x ∈ tr) : ¬ x.1.Completes :=
  (createDraft_only.runs h x hx).not_completes

/-- No completing call, nothing to come before it. -/
theorem DraftBeforeClose.of_none (h : ∀ x ∈ tr, ¬ x.1.Completes) :
    DraftBeforeClose lib tr := by
  rintro pre post principal counter videoId bucketUrl rfl
  exact absurd trivial (h _ (List.mem_append_right _ List.mem_cons_self))

theorem Completed.draftBeforeClose (h : Completed lib services req tr out)
    (hprincipal : req.userPrincipal = req.requestKey.principal)
    (hskips : ¬ SkipsDraft req) : DraftBeforeClose lib tr := by
  cases h with
  | incomplete hstatus e hfields =>
      exact .of_none fun x hx => not_completes_stagedTrace hx
  | noDraft hstatus bucketUrl videoId objectKey hfields draft e hdraft =>
      refine .of_none fun x hx => ?_
      rcases List.mem_append.mp hx with hx | hx
      · exact not_completes_draft hdraft hx
      · exact not_completes_stagedTrace hx
  | failed hstatus release r hrelease =>
      refine .of_none fun x hx => ?_
      rcases List.mem_append.mp hx with hx | hx
      · exact not_completes_release hrelease hx
      · rcases List.mem_cons.mp hx with rfl | hx
        · exact id
        · exact not_completes_stagedTrace hx
  | closed hstatus bucketUrl videoId objectKey hfields draft hdraft =>
      intro pre post principal counter v b hsplit
      have hidentity : req.encryptedIdentity ≠ none := fun hnone =>
        hskips ⟨hstatus, ⟨_, hfields⟩, hnone⟩
      have hregistered := createDraft_registers hdraft hidentity
      have hx : ⟨.recordTerminal principal counter (.complete v b), ()⟩ ∉ draft :=
        fun hmem => not_completes_draft hdraft hmem trivial
      -- the call that completes is the handler's own
      have hown : (⟨.recordTerminal principal counter (.complete v b), ()⟩ :
          RuntimeExchange) = closing req (.complete videoId bucketUrl) := by
        have hmem : (⟨.recordTerminal principal counter (.complete v b), ()⟩ :
            RuntimeExchange) ∈ draft ++ ⟨.onVideoIngested videoId bucketUrl, ()⟩
              :: closing req (.complete videoId bucketUrl) :: stagedTrace req := by
          rw [hsplit]
          exact List.mem_append_right _ List.mem_cons_self
        rcases List.mem_append.mp hmem with hmem | hmem
        · exact absurd hmem hx
        · rcases List.mem_cons.mp hmem with heq | hmem
          · cases heq
          · rcases List.mem_cons.mp hmem with heq | hmem
            · exact heq
            · exact absurd trivial (not_completes_stagedTrace hmem)
      injection hown with hcall
      injection hcall with hp _ hterminal
      injection hterminal with hv _
      subst hp hv
      exact hprincipal ▸ hregistered.mono (prefix_before hsplit hx).subset

/-- The trace that skips the draft. -/
theorem SkipsDraft.run (lib : DraftCrates) (services : UploadServices)
    (h : SkipsDraft req) : ∃ videoId bucketUrl,
    Runs (runtimeCompletion lib services req)
      (⟨.onVideoIngested videoId bucketUrl, ()⟩ ::
        closing req (.complete videoId bucketUrl) :: stagedTrace req)
      (.ok 200) := by
  obtain ⟨⟨bucketUrl, videoId, objectKey⟩, hfields⟩ := h.fields
  refine ⟨videoId, bucketUrl, ?_⟩
  refine runtimeCompletion_split.mpr ⟨[_, _], rfl, ?_⟩
  rw [success_runs h.status hfields, createDraft_skipped h.identity]
  exact .call (.call (.ret _))

theorem completeVideo_admitted (h : admitted crates env parse (·.userPrincipal)
    (·.requestKey.principal) headers rawBody completePath = .ok req) :
    completeVideo lib services crates env parse headers rawBody =
      runtimeCompletion lib services req := by
  unfold completeVideo
  rw [complete_admitted h]
  rfl

theorem completeVideo_refused {e : CallbackError}
    (h : admitted crates env parse (·.userPrincipal) (·.requestKey.principal)
      headers rawBody completePath = .error e) :
    completeVideo lib services crates env parse headers rawBody =
      .ret (.error e) := by
  unfold completeVideo completeWithDependencies
  rw [h]
  rfl

/-- **The draft comes first** for every callback but a success without an
identity. -/
theorem draft_before_close_iff (lib : DraftCrates) (services : UploadServices)
    (crates : Crates) (env : CallbackEnv)
    (parse : Bytes → Except String CompleteVideoRequest) (headers : HeaderMap)
    (rawBody : Bytes) :
    (∀ tr out, Runs (completeVideo lib services crates env parse headers rawBody)
      tr out → DraftBeforeClose lib tr) ↔
    ∀ req, admitted crates env parse (·.userPrincipal) (·.requestKey.principal)
      headers rawBody completePath = .ok req → ¬ SkipsDraft req := by
  constructor
  · intro h req hadmit hskips
    obtain ⟨videoId, bucketUrl, hrun⟩ := hskips.run lib services
    rw [← completeVideo_admitted hadmit] at hrun
    obtain ⟨owner, base, metadata, details, -, -, -, -, -, hfinalize, -⟩ :=
      h _ _ hrun [⟨.onVideoIngested videoId bucketUrl, ()⟩] (stagedTrace req)
        req.requestKey.principal req.requestKey.counter videoId bucketUrl rfl
    cases List.mem_singleton.mp hfinalize
  · intro h tr out hrun
    cases hadmit : admitted crates env parse (·.userPrincipal)
        (·.requestKey.principal) headers rawBody completePath with
    | error e =>
        rw [completeVideo_refused hadmit, runs_ret] at hrun
        exact .of_none fun x hx => absurd (hrun.1 ▸ hx) List.not_mem_nil
    | ok req =>
        rw [completeVideo_admitted hadmit] at hrun
        obtain ⟨-, -, hprincipal⟩ := admit_eq_ok.mp hadmit
        exact (runtimeCompletion_runs hrun).draftBeforeClose hprincipal
          (h req hadmit)

/-- No identity verifies. -/
def closedDraft : DraftCrates where
  principalFromText := .ok
  verifiedSender _ := .error "delegation chain is empty"
  postDetailsText _ := .ok "\x7b\x7d"

/-- The identity could not be encrypted at submission, so Vast has none to send
back: the request is complete, and no draft of it exists. -/
theorem draft_before_close_fails : ¬ ∀ tr out,
    Runs (completeVideo closedDraft ⟨false, false⟩ successBody.crates
      successBody.env (fun _ => .ok successRequest) successBody.headers
      successBody.rawBody) tr out → DraftBeforeClose closedDraft tr := by
  intro h
  have hadmit : admitted successBody.crates successBody.env
      (fun _ => .ok successRequest) (·.userPrincipal) (·.requestKey.principal)
      successBody.headers successBody.rawBody completePath = .ok successRequest :=
    admit_eq_ok.mpr ⟨⟨_, successBody_signed⟩, rfl, rfl⟩
  have hrun : Runs (completeVideo closedDraft ⟨false, false⟩ successBody.crates
      successBody.env (fun _ => .ok successRequest) successBody.headers
      successBody.rawBody)
      [⟨.onVideoIngested "video-17" "https://bucket.example.test/video-17.mp4",
          ()⟩,
        ⟨.recordTerminal "aaaaa-aa" 17 (.complete "video-17"
          "https://bucket.example.test/video-17.mp4"), ()⟩] (.ok 200) := by
    rw [completeVideo_admitted hadmit]
    exact .call (.call (.ret _))
  obtain ⟨owner, base, metadata, details, -, -, -, -, -, hfinalize, -⟩ :=
    h _ _ hrun [_] [] _ _ _ _ rfl
  cases List.mem_singleton.mp hfinalize

end VideoStorage.Videogen
