import VideoStorage.Videogen.Draft

/-!
# Runs of a completion

What an admitted callback does in the running service: `Completed` lists its
traces by the way it ends. A draft that `create_draft` reports as created is
registered, if the request brought an identity (`createDraft_registers`).
-/

namespace VideoStorage.Videogen

open Foundation Prog

variable {lib : DraftCrates} {services : UploadServices}
  {req : CompleteVideoRequest} {tr : List RuntimeExchange}
  {out : CallbackResult}

/-! ## The draft flow -/

/-- The calls of the draft flow. -/
def RuntimeCall.IsDraft : RuntimeCall → Prop
  | .decryptIdentity _ | .publicBaseUrl | .finalizeViaHttp _ _ _ _ _
  | .addPostV1 _ | .sendVideoUploadSuccessfulEvent _
  | .sendVideoEventUnsuccessful _ _ | .sendNotification _ => True
  | _ => False

theorem announcePost_only {details : PostDetails} :
    (announcePost services details).Only RuntimeCall.IsDraft := by
  have hevent : (Prog.issue (RuntimeCall.sendVideoUploadSuccessfulEvent details)
      >>= fun _ => pure () : Runtime Unit).Only RuntimeCall.IsDraft :=
    Only.bind ((only_issue _).mpr trivial) fun _ => only_ret _
  have hnotification : (Prog.issue (RuntimeCall.sendNotification details) :
      Runtime Unit).Only RuntimeCall.IsDraft := (only_issue _).mpr trivial
  exact Only.bind (hevent.when _) fun _ => hnotification.when _

theorem announceFailure_only {error : String} {details : PostDetails} :
    (announceFailure services error details).Only RuntimeCall.IsDraft := by
  have hevent : (Prog.issue (RuntimeCall.sendVideoEventUnsuccessful error details)
      >>= fun _ => pure () : Runtime Unit).Only RuntimeCall.IsDraft :=
    Only.bind ((only_issue _).mpr trivial) fun _ => only_ret _
  exact hevent.when _

theorem uploadVideoCanister_only {details : PostDetails} :
    (uploadVideoCanister services details).Only RuntimeCall.IsDraft := by
  simp only [uploadVideoCanister, bind_eq, issue_bind, pure_eq]
  refine ⟨trivial, fun r => ?_⟩
  rcases r with e | (e | ⟨⟩)
  · exact only_ret _
  · exact Only.bind announceFailure_only fun _ => only_ret _
  · exact Only.bind announcePost_only fun _ => only_ret _

theorem updateMetadataImpl_only {wire : Json} {details : PostDetails} :
    (updateMetadataImpl lib services wire details).Only
      RuntimeCall.IsDraft := by
  unfold updateMetadataImpl
  split
  · exact only_ret _
  · simp only [bind_eq, issue_bind, pure_eq]
    refine ⟨trivial, fun base => ?_⟩
    cases base with
    | none => exact only_ret _
    | some base =>
        refine ⟨trivial, fun r => ?_⟩
        rcases r with e | ⟨⟩
        · exact only_ret _
        · exact uploadVideoCanister_only

theorem createDraft_only {request : DraftCreationRequest} :
    (createDraft lib services request).Only RuntimeCall.IsDraft := by
  unfold createDraft
  split
  · exact only_ret _
  · simp only [bind_eq, issue_bind, pure_eq]
    refine ⟨trivial, fun wire => ?_⟩
    rcases wire with e | wire
    · exact only_ret _
    · dsimp only
      split
      · exact only_ret _
      · exact Only.bind updateMetadataImpl_only fun _ => only_ret _

/-- The upload of the video is finalized for its owner, and then its draft post
is added. -/
def Registered (lib : DraftCrates) (principal videoId : String)
    (tr : List RuntimeExchange) : Prop :=
  ∃ owner base metadata details,
    lib.principalFromText principal = .ok owner ∧
    details.id = videoId ∧ details.videoUid = videoId ∧
    details.creatorPrincipal = owner ∧ details.status = .draft ∧
    ⟨.finalizeViaHttp base owner videoId false metadata, .ok ()⟩ ∈ tr ∧
    ⟨.addPostV1 details, .ok (.ok ())⟩ ∈ tr

theorem Registered.mono {principal videoId : String}
    {tr' : List RuntimeExchange} (h : Registered lib principal videoId tr)
    (hsub : tr ⊆ tr') : Registered lib principal videoId tr' := by
  obtain ⟨owner, base, metadata, details, howner, hid, huid, hcreator, hstatus,
    hfinalize, hadd⟩ := h
  exact ⟨owner, base, metadata, details, howner, hid, huid, hcreator, hstatus,
    hsub hfinalize, hsub hadd⟩

theorem uploadVideoCanister_ok {details : PostDetails}
    (h : Runs (uploadVideoCanister services details) tr (.ok ())) :
    ⟨.addPostV1 details, .ok (.ok ())⟩ ∈ tr := by
  simp only [uploadVideoCanister, bind_eq, issue_bind, pure_eq, runs_call] at h
  obtain ⟨r, tr', rfl, h⟩ := h
  rcases r with e | (e | ⟨⟩)
  · exact absurd h not_runs_error
  · obtain ⟨_, _, _, -, -, hret⟩ := runs_bind.mp h
    exact absurd hret not_runs_error
  · exact List.mem_cons_self

theorem prepareUpdate_ok {wire : Json} {details : PostDetails}
    {publisher : String} {metadata : List (String × String)}
    (h : prepareUpdate lib wire details = .ok (publisher, metadata)) :
    publisher = details.creatorPrincipal := by
  simp only [prepareUpdate, authorizePublisher, bind_eq_ok, ite_error_eq_ok] at h
  obtain ⟨_, ⟨sender, -, heq, hsender⟩, _, -, hout⟩ := h
  obtain rfl := Except.ok.inj hsender
  have hpair := Except.ok.inj hout
  exact (Prod.mk.inj hpair).1 ▸ not_not.mp heq

theorem updateMetadataImpl_ok {wire : Json} {details : PostDetails}
    (h : Runs (updateMetadataImpl lib services wire details) tr (.ok ())) :
    (∃ base metadata, ⟨.finalizeViaHttp base details.creatorPrincipal details.id
      false metadata, .ok ()⟩ ∈ tr) ∧
    ⟨.addPostV1 details, .ok (.ok ())⟩ ∈ tr := by
  unfold updateMetadataImpl at h
  split at h
  · exact absurd h not_runs_error
  · rename_i publisher metadata hprepare
    obtain rfl := prepareUpdate_ok hprepare
    simp only [bind_eq, issue_bind, pure_eq, runs_call] at h
    obtain ⟨base, tr₁, rfl, h⟩ := h
    cases base with
    | none => exact absurd h not_runs_error
    | some base =>
        rw [runs_call] at h
        obtain ⟨r, tr₂, rfl, h⟩ := h
        rcases r with e | ⟨⟩
        · exact absurd h not_runs_error
        · have hadd := uploadVideoCanister_ok h
          exact ⟨⟨base, metadata, List.mem_cons_of_mem _ List.mem_cons_self⟩,
            List.mem_cons_of_mem _ (List.mem_cons_of_mem _ hadd)⟩

/-- **A created draft is registered**, if there was an identity. -/
theorem createDraft_registers {request : DraftCreationRequest}
    (h : Runs (createDraft lib services request) tr (.ok ()))
    (hidentity : request.encryptedIdentity ≠ none) :
    Registered lib request.userPrincipal request.videoId tr := by
  unfold createDraft at h
  split at h
  · exact absurd ‹_› hidentity
  · simp only [bind_eq, issue_bind, pure_eq, runs_call] at h
    obtain ⟨wire, tr', rfl, h⟩ := h
    rcases wire with e | wire
    · exact absurd h not_runs_error
    · dsimp only at h
      split at h
      · exact absurd h not_runs_error
      · rename_i details hdetails
        obtain ⟨r, tr₁, tr₂, rfl, hupdate, hret⟩ := runs_bind.mp h
        obtain ⟨rfl, hr⟩ := runs_ret.mp hret
        obtain rfl : r = .ok () := mapError_eq_ok.mp hr.symm
        obtain ⟨⟨base, metadata, hfinalize⟩, hadd⟩ := updateMetadataImpl_ok hupdate
        unfold draftPostDetails at hdetails
        split at hdetails
        · cases hdetails
        · rename_i owner howner
          obtain rfl := Except.ok.inj hdetails
          rw [List.append_nil]
          exact ⟨owner, base, metadata, _, howner, rfl, rfl, rfl, rfl,
            List.mem_cons_of_mem _ hfinalize, List.mem_cons_of_mem _ hadd⟩

/-- Without an identity the draft is skipped. -/
theorem createDraft_skipped {request : DraftCreationRequest}
    (h : request.encryptedIdentity = none) :
    createDraft lib services request = .ret (.ok ()) := by
  unfold createDraft
  rw [h]
  rfl

/-! ## The handler -/

/-- The exchange of the spawned deletion, if there is one. -/
def stagedTrace (req : CompleteVideoRequest) : List RuntimeExchange :=
  req.stagedImageKey.toList.map fun key => ⟨.spawnUplinkRm key, ()⟩

/-- The call that closes the request. -/
def closing (req : CompleteVideoRequest) (terminal : Terminal) :
    RuntimeExchange :=
  ⟨.recordTerminal req.requestKey.principal req.requestKey.counter terminal, ()⟩

def failureTerminal (req : CompleteVideoRequest) : Terminal :=
  .failed (req.failureReason.getD "unknown failure reason")

/-- The traces of an admitted callback, by the way it ends. -/
inductive Completed (lib : DraftCrates) (services : UploadServices)
    (req : CompleteVideoRequest) : List RuntimeExchange → CallbackResult → Prop
  | incomplete (hstatus : req.status = .success) (e : CallbackError)
      (hfields : successFields req = .error e) :
      Completed lib services req (stagedTrace req) (.error e)
  | noDraft (hstatus : req.status = .success) (bucketUrl videoId objectKey : String)
      (hfields : successFields req = .ok (bucketUrl, videoId, objectKey))
      (draft : List RuntimeExchange) (e : DraftServiceError)
      (hdraft : Runs (createDraft lib services
        (draftRequest req videoId objectKey)) draft (.error e)) :
      Completed lib services req (draft ++ stagedTrace req)
        (.error (.internal ("draft service: " ++ e.text)))
  | closed (hstatus : req.status = .success) (bucketUrl videoId objectKey : String)
      (hfields : successFields req = .ok (bucketUrl, videoId, objectKey))
      (draft : List RuntimeExchange)
      (hdraft : Runs (createDraft lib services
        (draftRequest req videoId objectKey)) draft (.ok ())) :
      Completed lib services req (draft ++ ⟨.onVideoIngested videoId bucketUrl, ()⟩
        :: closing req (.complete videoId bucketUrl) :: stagedTrace req) (.ok 200)
  | failed (hstatus : req.status = .failure) (release : List RuntimeExchange)
      (r : Except String Unit) (hrelease : Runs (releaseUploadDestination
        req.requestKey req.videoId req.objectKey) release r) :
      Completed lib services req
        (release ++ closing req (failureTerminal req) :: stagedTrace req) (.ok 200)

theorem deleteStagedImage_runs {u : Unit} :
    Runs ((deleteStagedImage req).interpret (runtimeDeps lib services)) tr u ↔
      tr = stagedTrace req := by
  unfold deleteStagedImage stagedTrace
  cases req.stagedImageKey with
  | none =>
      show Runs (.ret ()) tr u ↔ tr = []
      simp
  | some key =>
      show Runs (.call (RuntimeCall.spawnUplinkRm key) fun _ => .ret ()) tr u ↔ _
      simp only [runs_call, runs_ret, Option.toList_some, List.map_cons,
        List.map_nil]
      constructor
      · rintro ⟨⟨⟩, _, rfl, rfl, -⟩
        rfl
      · rintro rfl
        exact ⟨(), [], rfl, rfl, trivial⟩

theorem runtimeCompletion_eq : runtimeCompletion lib services req =
    ((handleCompletion req).interpret (runtimeDeps lib services)).bind
      fun result => ((deleteStagedImage req).interpret
        (runtimeDeps lib services)).bind fun _ => .ret result := by
  unfold runtimeCompletion completeAdmitted
  simp only [bind_eq, interpret_bind, pure_eq, interpret_ret]

/-- The handler, then the deletion. -/
theorem runtimeCompletion_split :
    Runs (runtimeCompletion lib services req) tr out ↔ ∃ tr₁,
      tr = tr₁ ++ stagedTrace req ∧ Runs ((handleCompletion req).interpret
        (runtimeDeps lib services)) tr₁ out := by
  rw [runtimeCompletion_eq, runs_bind]
  constructor
  · rintro ⟨_, tr₁, _, rfl, h₁, h⟩
    obtain ⟨_, tr₂, _, rfl, h₂, hret⟩ := runs_bind.mp h
    obtain ⟨rfl, rfl⟩ := runs_ret.mp hret
    obtain rfl := deleteStagedImage_runs.mp h₂
    exact ⟨tr₁, by rw [List.append_nil], h₁⟩
  · rintro ⟨tr₁, rfl, h₁⟩
    refine ⟨out, tr₁, stagedTrace req, rfl, h₁, ?_⟩
    exact runs_bind.mpr ⟨(), _, [], (List.append_nil _).symm,
      deleteStagedImage_runs.mpr rfl, .ret _⟩

theorem success_runs {bucketUrl videoId objectKey : String}
    (hstatus : req.status = .success)
    (hfields : successFields req = .ok (bucketUrl, videoId, objectKey)) :
    (handleCompletion req).interpret (runtimeDeps lib services) =
      (createDraft lib services (draftRequest req videoId objectKey)).bind fun
        | .error e => .ret (.error (.internal ("draft service: " ++ e.text)))
        | .ok () => .call (.onVideoIngested videoId bucketUrl) fun _ =>
            .call (closing req (.complete videoId bucketUrl)).1 fun _ =>
              .ret (.ok 200) := by
  unfold handleCompletion
  rw [hstatus]
  unfold handleSuccessCompletion
  rw [hfields]
  simp only [bind_eq, issue_bind, interpret_call]
  congr 1
  funext r
  rcases r with e | ⟨⟩ <;> rfl

theorem failure_runs (hstatus : req.status = .failure) :
    (handleCompletion req).interpret (runtimeDeps lib services) =
      (releaseUploadDestination req.requestKey req.videoId req.objectKey).bind
        fun _ => .call (closing req (failureTerminal req)).1 fun _ =>
          .ret (.ok 200) := by
  unfold handleCompletion
  rw [hstatus]
  rfl

/-- **What an admitted callback does.** -/
theorem runtimeCompletion_runs (h : Runs (runtimeCompletion lib services req)
    tr out) : Completed lib services req tr out := by
  rw [runtimeCompletion_split] at h
  obtain ⟨tr₁, rfl, h⟩ := h
  cases hstatus : req.status with
  | failure =>
      rw [failure_runs hstatus, runs_bind] at h
      obtain ⟨r, release, rest, rfl, hrelease, h⟩ := h
      simp only [runs_call, runs_ret] at h
      obtain ⟨⟨⟩, _, rfl, rfl, rfl⟩ := h
      rw [List.append_assoc]
      exact .failed hstatus release r hrelease
  | success =>
      cases hfields : successFields req with
      | error e =>
          simp only [handleCompletion, handleSuccessCompletion, hstatus, hfields,
            pure_eq, interpret_ret, runs_ret] at h
          obtain ⟨rfl, rfl⟩ := h
          exact .incomplete hstatus e hfields
      | ok fields =>
          obtain ⟨bucketUrl, videoId, objectKey⟩ := fields
          rw [success_runs hstatus hfields, runs_bind] at h
          obtain ⟨r, draft, rest, rfl, hdraft, h⟩ := h
          rw [List.append_assoc]
          rcases r with e | ⟨⟩
          · obtain ⟨rfl, rfl⟩ := runs_ret.mp h
            exact .noDraft hstatus bucketUrl videoId objectKey hfields draft e
              hdraft
          · simp only [runs_call, runs_ret] at h
            obtain ⟨⟨⟩, _, rfl, ⟨⟩, _, rfl, rfl, rfl⟩ := h
            exact .closed hstatus bucketUrl videoId objectKey hfields draft hdraft

end VideoStorage.Videogen
