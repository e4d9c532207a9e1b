import VideoStorage.Foundation.Pool
import VideoStorage.Videogen.DraftBeforeClose

/-!
# Callbacks for one request

Vast delivers callbacks at least once and in any order. The handlers look at no
earlier callback: only the `UPDATE` that closes the row has a guard. So what one
success has settled, a later callback may disturb, and it is answered 200 all
the same. `completion_final` says when it does not.
-/

namespace VideoStorage.Videogen

open Foundation Prog

variable {lib : DraftCrates} {services : UploadServices}
  {rfc3339 : ℤ → String} {key : RateLimiterRequestKey}

/-! ## The service -/

/-- An admitted callback for the request. -/
structure SignedCallback (key : RateLimiterRequestKey) where
  req : CompleteVideoRequest
  forKey : req.requestKey = key
  principal : req.userPrincipal = req.requestKey.principal

/-- A close may fail to reach the table; nothing else writes to it. -/
def RequestStore.Acts (s : RequestStore) (x : RuntimeExchange)
    (s' : RequestStore) : Prop :=
  s' = s ∨ ∃ principal counter terminal seen,
    x.1 = .recordTerminal principal counter terminal ∧
    s' = s.write (recordTerminal principal counter terminal) seen

/-- The callbacks for one request beside all other statements on the table. -/
def callbacks (lib : DraftCrates) (services : UploadServices)
    (rfc3339 : ℤ → String) (key : RateLimiterRequestKey) :
    PoolSystem RuntimeCall RuntimeCall.Reply CallbackResult (SignedCallback key)
      RequestStore RequestEvent where
  body c := runtimeCompletion lib services c.req
  acts := RequestStore.Acts
  moves := RequestStep rfc3339

abbrev CallbackPool (key : RateLimiterRequestKey) : Type :=
  Pool RuntimeCall RuntimeCall.Reply CallbackResult (SignedCallback key)
    RequestStore

abbrev CallbackEvent (key : RateLimiterRequestKey) : Type :=
  PoolEvent RuntimeCall RuntimeCall.Reply (SignedCallback key) RequestEvent

/-- What the endpoint does with an admitted body is a program of the pool. -/
theorem completeVideo_callback {crates : Crates} {env : CallbackEnv}
    {parse : Bytes → Except String CompleteVideoRequest} {headers : HeaderMap}
    {rawBody : Bytes} {req : CompleteVideoRequest}
    (h : admitted crates env parse (·.userPrincipal) (·.requestKey.principal)
      headers rawBody completePath = .ok req) :
    ∃ c : SignedCallback req.requestKey, c.req = req ∧
      completeVideo lib services crates env parse headers rawBody =
        (callbacks lib services rfc3339 req.requestKey).body c := by
  obtain ⟨-, -, hprincipal⟩ := admit_eq_ok.mp h
  exact ⟨⟨req, rfl, hprincipal⟩, rfl, completeVideo_admitted h⟩

/-! ## Finality -/

def RequestRow.isFor (key : RateLimiterRequestKey) (row : RequestRow) : Bool :=
  row.principal == key.principal && row.counter == storedCounter key.counter

/-- The table has a row of the request with this status. -/
def Records (s : RequestStore) (key : RateLimiterRequestKey)
    (status : RequestStatus) : Prop :=
  ∃ row ∈ s.rows, row.isFor key = true ∧ row.status = status

/-- The outcome that a report contradicts. -/
def CompletionStatus.opposite : CompletionStatus → RequestStatus
  | .success => .failed
  | .failure => .complete

/-- A success callback has been answered 200. -/
def SuccessAnswered (s : CallbackPool key) : Prop :=
  ∃ t task, s.tasks t = some task ∧ task.request.req.status = .success ∧
    task.rest = .ret (.ok 200)

/-- One step respects what was settled before it. -/
structure FinalStep (a : CallbackPool key) (e : CallbackEvent key)
    (b : CallbackPool key) : Prop where
  noRelease : SuccessAnswered a → ∀ t request r,
    e ≠ .call t ⟨.release request, r⟩
  rowKept : SuccessAnswered a → e.task? ≠ none →
    b.world.rows.filter (·.isFor key) = a.world.rows.filter (·.isFor key)
  /-- Answered against the recorded outcome is answered with a conflict. -/
  conflict : ∀ t task out, e.task? = some t → b.tasks t = some task →
    task.rest = .ret out → Records b.world key task.request.req.status.opposite →
    ∃ err : CallbackError, out = .error err ∧ err.status = 409

/-- A failure that names its upload destination. -/
def CompleteVideoRequest.NamesDestination (req : CompleteVideoRequest) : Prop :=
  req.status = .failure ∧ req.videoId ≠ none ∧ req.objectKey ≠ none

def RuntimeCall.Closes : RuntimeCall → Prop
  | .recordTerminal _ _ _ => True
  | _ => False

/-- No callback is delivered or goes on against a recorded outcome; and once a
success was answered, none begins that would release, and none closes a row
which is pending still. -/
def Unopposed (a : CallbackPool key) : CallbackEvent key → Prop
  | .start _ c => ¬ Records a.world key c.req.status.opposite
  | .call t x => ∀ task, a.tasks t = some task →
      ¬ Records a.world key task.request.req.status.opposite ∧
      (SuccessAnswered a →
        (task.done = [] → ¬ task.request.req.NamesDestination) ∧
        (x.1.Closes → ¬ Records a.world key .pending))
  | .outside _ => True

/-- The steps that meet the condition. -/
def UnopposedStep (lib : DraftCrates) (services : UploadServices)
    (rfc3339 : ℤ → String) (a : CallbackPool key) (e : CallbackEvent key)
    (b : CallbackPool key) : Prop :=
  Pool.Step (callbacks lib services rfc3339 key) a e b ∧ Unopposed a e

/-! ## What a callback asks -/

def Terminal.status : Terminal → RequestStatus
  | .complete _ _ => .complete
  | .failed _ => .failed

/-- A success never releases, and each report closes as what it reports. -/
def RuntimeCall.Befits (req : CompleteVideoRequest) : RuntimeCall → Prop
  | .release _ => req.NamesDestination
  | .recordTerminal principal counter terminal =>
      principal = req.requestKey.principal ∧ counter = req.requestKey.counter ∧
      terminal.status ≠ req.status.opposite
  | _ => True

variable {req : CompleteVideoRequest}

theorem RuntimeCall.IsDraft.befits {e : RuntimeCall} (h : e.IsDraft) :
    e.Befits req := by
  cases e <;> trivial

theorem stagedImage_only {P : RuntimeCall → Prop}
    (h : ∀ key, P (.spawnUplinkRm key)) :
    ((deleteStagedImage req).interpret (runtimeDeps lib services)).Only P := by
  unfold deleteStagedImage
  split
  · exact (only_issue _).mpr (h _)
  · exact only_ret ()

theorem release_only : req.status = .failure →
    (releaseUploadDestination req.requestKey req.videoId req.objectKey).Only
      (RuntimeCall.Befits req) := by
  intro hstatus
  unfold releaseUploadDestination
  split
  · rename_i hvid hkey
    refine (only_issue _).mpr ⟨hstatus, ?_, ?_⟩
    · exact hvid ▸ Option.some_ne_none _
    · exact hkey ▸ Option.some_ne_none _
  · exact only_ret _

theorem handleCompletion_only :
    ((handleCompletion req).interpret (runtimeDeps lib services)).Only
      (RuntimeCall.Befits req) := by
  cases hstatus : req.status with
  | failure =>
      rw [failure_runs hstatus]
      refine (release_only hstatus).bind fun _ => ⟨⟨rfl, rfl, ?_⟩, ?_⟩
      · rw [hstatus]
        nofun
      · exact fun _ => only_ret _
  | success =>
      cases hfields : successFields req with
      | error e =>
          unfold handleCompletion
          rw [hstatus]
          unfold handleSuccessCompletion
          rw [hfields]
          exact only_ret _
      | ok fields =>
          obtain ⟨bucketUrl, videoId, objectKey⟩ := fields
          rw [success_runs hstatus hfields]
          refine (createDraft_only.mono fun e he => he.befits).bind fun r => ?_
          rcases r with e | ⟨⟩
          · exact only_ret _
          · refine ⟨trivial, fun _ => ⟨⟨rfl, rfl, ?_⟩, ?_⟩⟩
            · rw [hstatus]
              nofun
            · exact fun _ => only_ret _

theorem runtimeCompletion_only :
    (runtimeCompletion lib services req).Only (RuntimeCall.Befits req) := by
  rw [runtimeCompletion_eq]
  refine handleCompletion_only.bind fun _ => ?_
  exact (stagedImage_only fun _ => trivial).bind fun _ => only_ret _

/-- A release is the first call of its callback. -/
theorem release_first {done : List RuntimeExchange} {request : ReleaseRequest}
    {k : Except String Unit → Runtime CallbackResult}
    (h : After (runtimeCompletion lib services req) done
      (.call (.release request) k)) : done = [] := by
  obtain ⟨hstatus, hvid, hkey⟩ : req.NamesDestination :=
    (h.only runtimeCompletion_only).1
  obtain ⟨vid, hvid⟩ := Option.ne_none_iff_exists'.mp hvid
  obtain ⟨objectKey, hkey⟩ := Option.ne_none_iff_exists'.mp hkey
  rw [runtimeCompletion_eq, failure_runs hstatus, hvid, hkey] at h
  cases h with
  | nil => rfl
  | call h =>
      -- the close and the spawned deletion are left
      let P : RuntimeCall → Prop := fun e => ∀ request, e ≠ .release request
      have hstaged : ((deleteStagedImage req).interpret
          (runtimeDeps lib services)).Only P := stagedImage_only fun _ => nofun
      have hrest := h.only (P := P)
        ⟨nofun, fun _ => hstaged.bind fun _ => only_ret _⟩
      exact absurd rfl (hrest.1 request)

/-! ## The row -/

section Row

variable {s : RequestStore} {terminal : Terminal} {seen : Seen}

/-- Both closes update the pending row of their request. -/
theorem updateWhere_pending {row row' : RequestRow}
    {set : RequestRow → RequestRow}
    (h : updateWhere (fun r => seen r && r.principal == key.principal &&
      r.counter == storedCounter key.counter && r.status == .pending) set row =
        some row') :
    row' = row ∨
      (row.isFor key = true ∧ row.status = .pending ∧ row' = set row) := by
  unfold updateWhere at h
  split at h
  · rename_i hguard
    simp only [Bool.and_eq_true, beq_iff_eq] at hguard
    obtain ⟨⟨⟨-, hp⟩, hc⟩, hpending⟩ := hguard
    refine .inr ⟨?_, hpending, (Option.some.inj h).symm⟩
    simp [RequestRow.isFor, hp, hc]
  · exact .inl (Option.some.inj h).symm

/-- What a close makes of a row: nothing, or what it reports if the row is the
request's and pending. -/
theorem recordTerminal_onRow {row row' : RequestRow}
    (h : (recordTerminal key.principal key.counter terminal).onRow seen row =
      some row') :
    row' = row ∨ (row.isFor key = true ∧ row.status = .pending ∧
      row'.status = terminal.status) := by
  cases terminal with
  | complete videoId bucketUrl =>
      simp only [recordTerminal, RequestWrite.onRow, markComplete] at h
      rcases updateWhere_pending h with hsame | ⟨hfor, hpending, rfl⟩
      · exact .inl hsame
      · exact .inr ⟨hfor, hpending, rfl⟩
  | failed reason =>
      simp only [recordTerminal, RequestWrite.onRow, markFailed] at h
      rcases updateWhere_pending h with hsame | ⟨hfor, hpending, rfl⟩
      · exact .inl hsame
      · exact .inr ⟨hfor, hpending, rfl⟩

theorem recordTerminal_keeps (row : RequestRow) :
    ∃ row', (recordTerminal key.principal key.counter terminal).onRow seen row =
      some row' := by
  cases terminal <;> exact ⟨_, rfl⟩

/-- Without a pending row of the request, a close changes nothing. -/
theorem write_of_not_pending (h : ¬ Records s key .pending) :
    s.write (recordTerminal key.principal key.counter terminal) seen = s := by
  have hrows : ∀ row ∈ s.rows,
      (recordTerminal key.principal key.counter terminal).onRow seen row =
        some row := by
    intro row hmem
    obtain ⟨row', hrow⟩ : ∃ row',
        (recordTerminal key.principal key.counter terminal).onRow seen row =
          some row' := recordTerminal_keeps row
    rcases recordTerminal_onRow hrow with rfl | ⟨hfor, hpending, -⟩
    · exact hrow
    · exact absurd ⟨row, hmem, hfor, hpending⟩ h
  unfold RequestStore.write
  rw [List.filterMap_congr hrows, List.filterMap_some]

/-- A close records no outcome but its own. -/
theorem Records.of_write {status : RequestStatus}
    (h : Records (s.write (recordTerminal key.principal key.counter terminal)
      seen) key status) (hstatus : terminal.status ≠ status) :
    Records s key status := by
  obtain ⟨row', hmem, hfor, rfl⟩ := h
  obtain ⟨row, hrow, honRow⟩ := List.mem_filterMap.mp hmem
  rcases recordTerminal_onRow honRow with rfl | ⟨-, -, heq⟩
  · exact ⟨_, hrow, hfor, rfl⟩
  · exact absurd heq.symm hstatus

end Row

/-! ## Finality of unopposed steps -/

section Step

variable {a b : CallbackPool key} {e : CallbackEvent key}

/-- What a call of the callback does to the table. -/
theorem acts_cases {x : RuntimeExchange} {c : SignedCallback key}
    {s s' : RequestStore} (hbefits : x.1.Befits c.req) (h : s.Acts x s') :
    s' = s ∨ ∃ terminal seen, x.1.Closes ∧
      terminal.status ≠ c.req.status.opposite ∧
      s' = s.write (recordTerminal key.principal key.counter terminal) seen := by
  rcases h with rfl | ⟨principal, counter, terminal, seen, hx, rfl⟩
  · exact .inl rfl
  · rw [hx] at hbefits
    obtain ⟨rfl, rfl, hstatus⟩ := hbefits
    rw [c.forKey]
    refine .inr ⟨terminal, seen, ?_, hstatus, rfl⟩
    rw [hx]
    trivial

theorem FinalStep.of_unopposed
    (ha : Pool.Faithful (callbacks lib services rfc3339 key) a)
    (h : UnopposedStep lib services rfc3339 a e b) : FinalStep a e b := by
  obtain ⟨hstep, hunopposed⟩ := h
  cases hstep with
  | outside l hmove =>
      refine ⟨fun _ _ _ _ => nofun, fun _ hnone => absurd rfl hnone, ?_⟩
      intro t task out ht
      cases ht
  | start t c hfree =>
      refine ⟨fun _ _ _ _ => nofun, fun _ _ => rfl, ?_⟩
      rintro _ task out ⟨⟩ htask hrest hopposed
      rcases Pool.tasks_update htask with ⟨-, rfl⟩ | ⟨hne, -⟩
      · exact absurd hopposed hunopposed
      · exact absurd rfl hne
  | call t task call k r htask hrest hact =>
      have hafter := ha t task htask
      rw [hrest] at hafter
      have hbefits := (hafter.only runtimeCompletion_only).1
      obtain ⟨hopposed, hanswered⟩ := hunopposed task htask
      refine ⟨?_, ?_, ?_⟩
      · -- only a failure that begins releases
        rintro hsuccess _ request _ ⟨⟩
        exact (hanswered hsuccess).1 (release_first hafter) hbefits
      -- a write over a row that is closed changes nothing
      · intro hsuccess _
        rcases acts_cases hbefits hact with hsame | ⟨terminal, seen, hcloses, -, hw⟩
        · rw [hsame]
        · rw [hw, write_of_not_pending ((hanswered hsuccess).2 hcloses)]
      · rintro _ task' out ⟨⟩ htask' - hrecords
        rcases Pool.tasks_update htask' with ⟨-, rfl⟩ | ⟨hne, -⟩
        · rcases acts_cases hbefits hact with hsame | ⟨terminal, seen, -, hown, hw⟩
          · exact absurd (hsame ▸ hrecords) hopposed
          · exact absurd ((hw ▸ hrecords : Records _ _ _).of_write hown) hopposed
        · exact absurd rfl hne

end Step

/-- **Completion is final** in every run of unopposed steps. -/
theorem completion_final (lib : DraftCrates) (services : UploadServices)
    (rfc3339 : ℤ → String) (s : CallbackPool key)
    (hidle : s.tasks = fun _ => none) :
    Always (UnopposedStep lib services rfc3339) s FinalStep := by
  refine .of_invariant (Pool.Faithful (callbacks lib services rfc3339 key))
    (.of_idle hidle) ?_ ?_
  · exact fun a e b ha hstep => ha.step hstep.1
  · exact fun a e b ha hstep => .of_unopposed ha hstep

/-! ## A success, redelivered and contradicted -/

section Runs

abbrev key17 : RateLimiterRequestKey := ⟨"aaaaa-aa", 17⟩

def row17 : RequestRow where
  counter := 17
  principal := "aaaaa-aa"
  requestId := "11111111-1111-1111-1111-111111111111"
  modelId := "ltx2"
  prompt := "a cat surfing"
  createdAt := 1777000000000000

def closed17 : RequestRow := { row17 with
  status := .complete
  videoId := some "video-17"
  bucketUrl := some "https://bucket.example.test/video-17.mp4" }

def idle17 : CallbackPool key17 := ⟨{ rows := [row17] }, fun _ => none⟩

def success17 : SignedCallback key17 := ⟨successRequest, rfl, rfl⟩

/-- A failure report of the same generation. -/
def failure17 : SignedCallback key17 where
  req := { failureRequest with
    videoId := some "video-17"
    objectKey := some "generated/video-17.mp4" }
  forKey := rfl
  principal := rfl

abbrev Step17 : CallbackPool key17 → CallbackEvent key17 → CallbackPool key17 →
    Prop :=
  UnopposedStep closedDraft ⟨false, false⟩ toString

theorem not_records_singleton {row : RequestRow} {status : RequestStatus}
    (h : row.status ≠ status) : ¬ Records { rows := [row] } key status := by
  rintro ⟨row', hmem, -, rfl⟩
  exact h (List.mem_singleton.mp hmem ▸ rfl)

/-- A pool is not answered while the one that was started goes on. -/
theorem not_answered {a : CallbackPool key}
    {tasks : ℕ → Option (Task RuntimeCall RuntimeCall.Reply CallbackResult
      (SignedCallback key))}
    {task : Task RuntimeCall RuntimeCall.Reply CallbackResult (SignedCallback key)}
    (ha : a.tasks = Function.update tasks 0 (some task))
    (hrest : task.rest ≠ .ret (.ok 200)) (hothers : ∀ t ≠ 0, tasks t = none) :
    ¬ SuccessAnswered a := by
  rintro ⟨t, task', htask, -, hret⟩
  rw [ha] at htask
  rcases Pool.tasks_update htask with ⟨-, rfl⟩ | ⟨hne, htask⟩
  · exact hrest hret
  · rw [hothers t hne] at htask
    cases htask

/-- The success closes its row and is answered. -/
theorem success_answered : ∃ es a, Trace Step17 idle17 es a ∧
    a.world = { rows := [closed17] } ∧ SuccessAnswered a ∧ a.tasks 1 = none := by
  have hpending : ¬ Records { rows := [row17] } key17 .failed :=
    not_records_singleton nofun
  refine ⟨_, _, .cons ⟨.start 0 success17 rfl, hpending⟩
    (.cons ⟨.call 0 _ _ _ () rfl rfl (.inl rfl), ?_⟩
    (.cons ⟨.call 0 _ _ _ () rfl rfl (.inr ⟨_, _, _, fun _ => true, rfl, rfl⟩),
      ?_⟩ (.nil _))), ?_, ⟨0, _, rfl, rfl, rfl⟩, rfl⟩
  · rintro task ⟨⟩
    exact ⟨hpending, fun h => absurd h (not_answered rfl nofun fun _ _ => rfl)⟩
  · rintro task ⟨⟩
    refine ⟨hpending, fun h => absurd h (not_answered rfl nofun ?_)⟩
    exact fun t ht => Function.update_of_ne ht _ _
  · rfl

/-- An answer stays while another task moves. -/
theorem SuccessAnswered.update {a : CallbackPool key} (h : SuccessAnswered a)
    {t : ℕ} (hfree : a.tasks t = none) {w : RequestStore}
    {tasks : ℕ → Option (Task RuntimeCall RuntimeCall.Reply CallbackResult
      (SignedCallback key))} (htasks : ∀ u ≠ t, tasks u = a.tasks u) :
    SuccessAnswered ⟨w, tasks⟩ := by
  obtain ⟨u, task, htask, hstatus, hrest⟩ := h
  have hne : u ≠ t := by
    rintro rfl
    rw [hfree] at htask
    cases htask
  exact ⟨u, task, (htasks u hne).trans htask, hstatus, hrest⟩

abbrev ingest17 : RuntimeExchange :=
  ⟨.onVideoIngested "video-17" "https://bucket.example.test/video-17.mp4", ()⟩

abbrev closing17 : RuntimeExchange :=
  ⟨.recordTerminal "aaaaa-aa" 17 (.complete "video-17"
    "https://bucket.example.test/video-17.mp4"), ()⟩

/-- The success delivered again, up to its second answer. -/
theorem success_redelivered : ∃ es, ∃ a b : CallbackPool key17,
    Trace Step17 idle17 es a ∧ SuccessAnswered a ∧
    Step17 a (.call 1 closing17) b ∧
    ∃ task, b.tasks 1 = some task ∧ task.rest = .ret (.ok 200) := by
  obtain ⟨es, a, hrun, hworld, hanswered, hfree⟩ := success_answered
  have hopposed : ¬ Records a.world key17 .failed :=
    hworld ▸ not_records_singleton nofun
  have hpending : ¬ Records a.world key17 .pending :=
    hworld ▸ not_records_singleton nofun
  have hnames : ¬ success17.req.NamesDestination := fun h => nomatch h.1
  let S := callbacks closedDraft ⟨false, false⟩ toString key17
  have hstart : Pool.Step S a (.start 1 success17) _ := .start 1 _ hfree
  have hingest : Pool.Step S
      ⟨a.world, Function.update a.tasks 1
        (some ⟨success17, [], S.body success17⟩)⟩
      (.call 1 ingest17) _ := .call 1 _ _ _ _ rfl rfl (Or.inl rfl)
  refine ⟨_, _, _, hrun.append (.cons ⟨hstart, hopposed⟩
    (.single ⟨hingest, ?_⟩)), hanswered.update hfree ?_,
    ⟨.call 1 _ _ _ _ rfl rfl (Or.inl rfl), ?_⟩, ?_⟩
  · rintro task ⟨⟩
    exact ⟨hopposed, fun _ => ⟨fun _ => hnames, fun _ => hpending⟩⟩
  · intro u hne
    exact (Function.update_of_ne hne _ _).trans (Function.update_of_ne hne _ _)
  · rintro task ⟨⟩
    exact ⟨hopposed, fun _ => ⟨fun _ => hnames, fun _ => hpending⟩⟩
  · exact ⟨_, rfl, rfl⟩

/-- Delivered again, the success closes nothing and is answered again. -/
theorem completion_final_redelivered : ∃ a b : CallbackPool key17,
    SuccessAnswered a ∧ FinalStep a (.call 1 closing17) b ∧
    ∃ task, b.tasks 1 = some task ∧ task.rest = .ret (.ok 200) := by
  obtain ⟨es, a, b, hrun, hanswered, hstep, hret⟩ := success_redelivered
  have hfinal := completion_final closedDraft ⟨false, false⟩ toString idle17 rfl
  exact ⟨a, b, hanswered, hfinal es a _ b hrun hstep, hret⟩

/-- A failure that comes after the success releases what the success took. -/
theorem completion_not_final : ¬ Always
    (Pool.Step (callbacks closedDraft ⟨false, false⟩ toString key17)) idle17
    FinalStep := by
  intro h
  obtain ⟨es, a, hrun, -, hanswered, hfree⟩ := success_answered
  let S := callbacks closedDraft ⟨false, false⟩ toString key17
  have hrun' : Trace (Pool.Step S) idle17 es a :=
    hrun.mono fun _ _ _ hstep => hstep.1
  have hstart := hrun'.append (.single (.start 1 failure17 hfree))
  have hfinal := h _ _ _ _ hstart
    (.call 1 _ (.release ⟨key17, "video-17", "generated/video-17.mp4"⟩) _
      (.ok ()) rfl rfl (Or.inl rfl))
  exact hfinal.noRelease (hanswered.update hfree
    fun u hne => Function.update_of_ne hne _ _) 1 _ _ rfl

end Runs

end VideoStorage.Videogen
