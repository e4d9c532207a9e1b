import VideoStorage.Foundation.Deadline
import VideoStorage.Foundation.Failover
import VideoStorage.Videogen.Types

/-!
# Publishing a job

The failover over RabbitMQ URLs. An attempt opens a channel, issues
`basic.publish` and waits for the confirm, all under one timeout. Every failure
is treated alike, so a job whose confirm is lost is published to the next URL
too (`at_most_one_job_iff`).
-/

namespace VideoStorage.Videogen

open Foundation

structure RabbitMqPublishConfig where
  exchange : String
  routingKey : String
  publishTimeoutSecs : ℕ
  tlsCaCertPemB64 : Option String

structure RabbitMqPublishEnvelope where
  body : Bytes
  messageId : Option String
  correlationId : Option String
  contentType : Option String
  persistent : Bool

inductive RabbitMqPublishError
  | serialize (message : String)
  | connect (message : String)
  | channel (message : String)
  | publish (message : String)
  | timeout
  | notConfirmed
  deriving DecidableEq, Repr

def RabbitMqPublishError.text : RabbitMqPublishError → String
  | .serialize m => "failed to serialize RabbitMQ message: " ++ m
  | .connect m => "RabbitMQ connection failed: " ++ m
  | .channel m => "RabbitMQ channel failed: " ++ m
  | .publish m => "RabbitMQ publish failed: " ++ m
  | .timeout => "RabbitMQ publish timed out"
  | .notConfirmed => "RabbitMQ publish was not confirmed"

/-- What publishing computes with the help of crates, with their error texts. -/
structure PublishCrates where
  toVec : VastSubmitRequest → Except String Bytes
  decodeBase64 : String → Except String Bytes
  fromUtf8 : Bytes → Except String String

/-! ## One URL -/

/-- A publisher confirm; a message that no queue took comes back with it. -/
inductive Confirmation
  | ack (returned : Option String)
  | nack (returned : Option String)
  | notRequested
  deriving DecidableEq, Repr

/-- The broker did not take the message. -/
def Confirmation.Refuses : Confirmation → Prop
  | .ack returned => returned ≠ none
  | .nack _ => True
  | .notRequested => False

/-- What one attempt on a URL meets: the answer of each call, and whether the
broker enqueues the message once it is published. A message that is refused or
returned is not enqueued. -/
structure Endpoint where
  defaultRuntime : Except String Unit
  connect : Answer String Unit
  createChannel : Answer String Unit
  confirmSelect : Answer String Unit
  basicPublish : Answer String Unit
  confirm : Answer String Confirmation
  waitForConfirms : Answer String (List String)
  acceptedAt : ℤ
  enqueues : Bool
  refused : ∀ c, confirm.result = .ok c → c.Refuses → enqueues = false
  returned : ∀ ms, waitForConfirms.result = .ok ms → ms ≠ [] →
    enqueues = false

/-- The message as the broker gets it. -/
structure PublishedMessage where
  exchange : String
  routingKey : String
  mandatory : Bool
  body : Bytes
  contentType : String
  messageId : String
  correlationId : String
  deliveryMode : ℕ
  deriving DecidableEq

section Publish

variable (config : RabbitMqPublishConfig) (crates : PublishCrates)

def fromRequest (request : VastSubmitRequest) :
    Except RabbitMqPublishError RabbitMqPublishEnvelope :=
  (crates.toVec request).mapError .serialize |>.map fun body =>
    { body := body
      messageId := some request.requestId
      correlationId := some request.requestId
      contentType := some "application/json"
      persistent := true }

/-- The certificate chain to trust, if one is configured. -/
def buildTlsConfig : Except RabbitMqPublishError (Option String) :=
  match config.tlsCaCertPemB64 with
  | none => .ok none
  | some b64 => do
      let pemBytes ← (crates.decodeBase64 b64).mapError fun e =>
        .connect ("invalid CA cert base64: " ++ e)
      let pemStr ← (crates.fromUtf8 pemBytes).mapError fun e =>
        .connect ("CA cert is not valid UTF-8: " ++ e)
      .ok (some pemStr)

/-- The timeout, in nanoseconds. -/
def publishTimeout : ℕ := config.publishTimeoutSecs * 10 ^ 9

/-- `do_publish` as far as the channel is in confirm mode. -/
def openChannel (ep : Endpoint) : Timed RabbitMqPublishError Unit := do
  let _ ← atOnce (buildTlsConfig config crates)
  atOnce (ep.defaultRuntime.mapError .connect)
  await (publishTimeout config) .timeout .connect ep.connect
  await (publishTimeout config) .timeout .channel ep.createChannel
  await (publishTimeout config) .timeout .channel ep.confirmSelect

def publishedMessage (envelope : RabbitMqPublishEnvelope) : PublishedMessage where
  exchange := config.exchange
  routingKey := config.routingKey
  mandatory := true
  body := envelope.body
  contentType := envelope.contentType.getD ""
  messageId := envelope.messageId.getD ""
  correlationId := envelope.correlationId.getD ""
  deliveryMode := if envelope.persistent then 2 else 1

/-- The rest of `do_publish`: the message, its confirm, and what was returned. -/
def publishConfirmed (requestId : String) (ep : Endpoint) :
    Timed RabbitMqPublishError VastSubmitAccepted := do
  await (publishTimeout config) .timeout .publish ep.basicPublish
  let confirmation ← await (publishTimeout config) .timeout .publish ep.confirm
  let returned ←
    await (publishTimeout config) .timeout .publish ep.waitForConfirms
  atOnce (if confirmation = .ack none ∧ returned = [] then
    .ok { requestId, status := "queued", acceptedAt := ep.acceptedAt }
  else .error .notConfirmed)

def doPublish (requestId : String) (ep : Endpoint) :
    Timed RabbitMqPublishError VastSubmitAccepted := do
  openChannel config crates ep
  publishConfirmed config requestId ep

def tryPublishToUrl (requestId : String) (ep : Endpoint) :
    Except RabbitMqPublishError VastSubmitAccepted :=
  (doPublish config crates requestId ep 0).map (·.1)

/-- The message is on its way as soon as the channel is open. -/
def tookMessage (ep : Endpoint) : Bool :=
  (openChannel config crates ep 0).isOk && ep.enqueues

/-! ## All URLs -/

/-- One call of `publish`: its answer, the URLs tried, and what is enqueued on
their brokers. -/
structure PublishRun where
  answer : Except RabbitMqPublishError VastSubmitAccepted
  tried : List Endpoint := []
  enqueued : List PublishedMessage := []

/-- `publish`, where the URLs are given by what the attempt on each meets. -/
def publish (urls : List Endpoint) (request : VastSubmitRequest) : PublishRun :=
  match fromRequest crates request with
  | .error e => { answer := .error e }
  | .ok envelope =>
      let run :=
        failover (tryPublishToUrl config crates request.requestId) urls none
      { answer := run.1.getD (.error (.connect "no AMQPS URLs configured"))
        tried := run.2
        enqueued := run.2.filter (tookMessage config crates) |>.map fun _ =>
          publishedMessage config envelope }

def submitVastRabbitmq (urls : List Endpoint) (request : VastSubmitRequest) :
    Except VastSubmitError VastSubmitAccepted :=
  (publish config crates urls request).answer.mapError fun e =>
    .requestFailed e.text

/-! ## Copies of the job -/

/-- At most one copy is enqueued, and only a URL whose broker has not enqueued
the message is followed by another. -/
def AtMostOneJob (urls : List Endpoint) (request : VastSubmitRequest) : Prop :=
  (publish config crates urls request).enqueued.length ≤ 1 ∧
    ∀ ep ∈ (publish config crates urls request).tried.dropLast,
      tookMessage config crates ep = false

/-- The channel is open within the timeout. -/
structure Opens (ep : Endpoint) : Prop where
  tls : ∃ chain, buildTlsConfig config crates = .ok chain
  runtime : ep.defaultRuntime = .ok ()
  connect : ep.connect.result = .ok ()
  channel : ep.createChannel.result = .ok ()
  confirmSelect : ep.confirmSelect.result = .ok ()
  inTime : ep.connect.latency + ep.createChannel.latency
    + ep.confirmSelect.latency ≤ publishTimeout config

/-- From the message to the last confirm. -/
def Endpoint.latency (ep : Endpoint) : ℕ :=
  ep.connect.latency + ep.createChannel.latency + ep.confirmSelect.latency
    + ep.basicPublish.latency + ep.confirm.latency + ep.waitForConfirms.latency

/-- The message is published, acknowledged and not returned within the
timeout. -/
structure Confirms (ep : Endpoint) : Prop where
  opens : Opens config crates ep
  published : ep.basicPublish.result = .ok ()
  acknowledged : ep.confirm.result = .ok (.ack none)
  kept : ep.waitForConfirms.result = .ok []
  inTime : ep.latency ≤ publishTimeout config

/-- The broker enqueues the message, and its confirm does not arrive or arrives
too late. -/
structure LosesConfirm (ep : Endpoint) : Prop where
  opens : Opens config crates ep
  enqueued : ep.enqueues = true
  lost : (∃ e, ep.basicPublish.result = .error e) ∨
    (∃ e, ep.confirm.result = .error e) ∨
    ep.confirm.result = .ok .notRequested ∨
    (∃ e, ep.waitForConfirms.result = .error e) ∨
    publishTimeout config < ep.latency

end Publish

section Runs

variable {config : RabbitMqPublishConfig} {crates : PublishCrates}
  {urls : List Endpoint} {request : VastSubmitRequest} {requestId : String}
  {ep : Endpoint} {t : ℕ}

theorem openChannel_eq_ok {u : Unit} :
    openChannel config crates ep 0 = .ok (u, t) ↔
    Opens config crates ep ∧ t = ep.connect.latency + ep.createChannel.latency
      + ep.confirmSelect.latency := by
  unfold openChannel
  simp only [timed_bind_eq_ok, atOnce_eq_ok, await_eq_ok, mapError_eq_ok]
  constructor
  · rintro ⟨chain, _, ⟨htls, rfl⟩, _, _, ⟨hruntime, rfl⟩, _, _,
      ⟨hconnect, rfl, -⟩, _, _, ⟨hchannel, rfl, -⟩, hselect, rfl, hle⟩
    rw [Nat.zero_add] at hle ⊢
    exact ⟨⟨⟨chain, htls⟩, hruntime, hconnect, hchannel, hselect, hle⟩, rfl⟩
  · rintro ⟨h, rfl⟩
    obtain ⟨chain, htls⟩ := h.tls
    have hle := h.inTime
    exact ⟨chain, 0, ⟨htls, rfl⟩, (), 0, ⟨h.runtime, rfl⟩, (), _,
      ⟨h.connect, rfl, by omega⟩, (), _, ⟨h.channel, rfl, by omega⟩,
      h.confirmSelect, by rw [Nat.zero_add], hle⟩

theorem tookMessage_eq_true : tookMessage config crates ep = true ↔
    Opens config crates ep ∧ ep.enqueues = true := by
  unfold tookMessage
  rw [Bool.and_eq_true]
  apply and_congr_left
  intro _
  constructor
  · intro h
    cases hopen : openChannel config crates ep 0 with
    | error e =>
        rw [hopen] at h
        cases h
    | ok r => exact (openChannel_eq_ok.mp hopen).1
  · intro h
    rw [openChannel_eq_ok (u := ()) |>.mpr ⟨h, rfl⟩]
    rfl

theorem publishConfirmed_eq_ok {t' : ℕ} {accepted : VastSubmitAccepted} :
    publishConfirmed config requestId ep t = .ok (accepted, t') ↔
      ep.basicPublish.result = .ok () ∧ ep.confirm.result = .ok (.ack none) ∧
      ep.waitForConfirms.result = .ok [] ∧
      t' = t + ep.basicPublish.latency + ep.confirm.latency
        + ep.waitForConfirms.latency ∧ t' ≤ publishTimeout config ∧
      accepted = ⟨requestId, "queued", ep.acceptedAt⟩ := by
  unfold publishConfirmed
  simp only [timed_bind_eq_ok, atOnce_eq_ok, await_eq_ok]
  constructor
  · rintro ⟨_, _, ⟨hpublish, rfl, -⟩, confirmation, _, ⟨hconfirm, rfl, -⟩,
      returned, _, ⟨hwait, rfl, hle⟩, haccepted, rfl⟩
    split_ifs at haccepted with hack
    obtain ⟨rfl, rfl⟩ := hack
    exact ⟨hpublish, hconfirm, hwait, rfl, hle, (Except.ok.inj haccepted).symm⟩
  · rintro ⟨hpublish, hconfirm, hwait, rfl, hle, rfl⟩
    exact ⟨(), _, ⟨hpublish, rfl, by omega⟩, _, _, ⟨hconfirm, rfl, by omega⟩,
      _, _, ⟨hwait, rfl, hle⟩, by simp, rfl⟩

/-- **One URL** is a success exactly when its broker confirms in time. -/
theorem tryPublishToUrl_eq_ok :
    (∃ accepted, tryPublishToUrl config crates requestId ep = .ok accepted) ↔
      Confirms config crates ep := by
  unfold tryPublishToUrl doPublish
  simp only [map_eq_ok, Prod.exists, timed_bind_eq_ok, openChannel_eq_ok,
    publishConfirmed_eq_ok]
  constructor
  · rintro ⟨_, _, _, ⟨_, _, ⟨hopens, rfl⟩, hpublish, hack, hkept, rfl, hle, -⟩,
      -⟩
    exact ⟨hopens, hpublish, hack, hkept, hle⟩
  · intro h
    exact ⟨_, _, _, ⟨(), _, ⟨h.opens, rfl⟩, h.published, h.acknowledged,
      h.kept, rfl, h.inTime, rfl⟩, rfl⟩

theorem tryPublishToUrl_error :
    (∃ e, tryPublishToUrl config crates requestId ep = .error e) ↔
      ¬ Confirms config crates ep := by
  have hok : (∃ accepted, tryPublishToUrl config crates requestId ep = .ok accepted) ↔
      Confirms config crates ep := tryPublishToUrl_eq_ok
  rw [← hok]
  cases tryPublishToUrl config crates requestId ep with
  | ok accepted => simp
  | error e => simp

theorem LosesConfirm.not_confirms (h : LosesConfirm config crates ep) :
    ¬ Confirms config crates ep := by
  intro hconfirms
  rcases h.lost with ⟨e, he⟩ | ⟨e, he⟩ | he | ⟨e, he⟩ | hlate
  · rw [hconfirms.published] at he
    cases he
  · rw [hconfirms.acknowledged] at he
    cases he
  · rw [hconfirms.acknowledged] at he
    cases he
  · rw [hconfirms.kept] at he
    cases he
  · exact absurd hconfirms.inTime (Nat.not_le.mpr hlate)

/-- A broker that does not confirm in time has enqueued the message exactly when
its confirm is lost; a refusal or a return says that it has not. -/
theorem losesConfirm_iff (h : ¬ Confirms config crates ep) :
    tookMessage config crates ep = true ↔ LosesConfirm config crates ep := by
  rw [tookMessage_eq_true]
  constructor
  · rintro ⟨hopens, henqueues⟩
    refine ⟨hopens, henqueues, ?_⟩
    -- with every call answered in time, a message taken is one confirmed
    by_contra hlost
    push Not at hlost
    obtain ⟨hpublish, hconfirm, hrequested, hwait, hle⟩ := hlost
    apply h
    refine ⟨hopens, ?_, ?_, ?_, hle⟩
    · cases hresult : ep.basicPublish.result with
      | error e => exact absurd hresult (hpublish e)
      | ok u => rfl
    · cases hresult : ep.confirm.result with
      | error e => exact absurd hresult (hconfirm e)
      | ok c =>
          -- the broker enqueues nothing that it refuses
          have hnot : ¬ c.Refuses := by
            intro hrefuses
            rw [ep.refused c hresult hrefuses] at henqueues
            cases henqueues
          cases c with
          | ack returned =>
              have hnone : returned = none := not_not.mp hnot
              rw [hnone]
          | nack returned => exact absurd trivial hnot
          | notRequested => exact absurd hresult hrequested
    · cases hresult : ep.waitForConfirms.result with
      | error e => exact absurd hresult (hwait e)
      | ok ms =>
          have hnil : ms = [] := by
            by_contra hne
            rw [ep.returned ms hresult hne] at henqueues
            cases henqueues
          rw [hnil]
  · exact fun hlost => ⟨hlost.opens, hlost.enqueued⟩

/-- **At most one job** is enqueued, and no URL is left behind with one, exactly
when no broker that is tried before the last URL loses its confirm. -/
theorem at_most_one_job_iff (config : RabbitMqPublishConfig)
    (crates : PublishCrates) (urls : List Endpoint)
    (request : VastSubmitRequest) :
    AtMostOneJob config crates urls request ↔
      ∀ body, crates.toVec request = .ok body →
        ∀ before ep after, urls = before ++ ep :: after → after ≠ [] →
          (∀ c ∈ before, ¬ Confirms config crates c) →
          ¬ LosesConfirm config crates ep := by
  unfold AtMostOneJob publish fromRequest
  cases hbody : crates.toVec request with
  | error e =>
      constructor
      · intro _ body hok
        cases hok
      · intro _
        exact ⟨Nat.zero_le 1, fun ep hep => by cases hep⟩
  | ok body =>
      -- the URLs left behind are those that failed with another one after them
      have htried : ∀ ep, ep ∈ (failover
          (tryPublishToUrl config crates request.requestId) urls
            none).2.dropLast ↔
          ∃ before after, urls = before ++ ep :: after ∧ after ≠ [] ∧
            ∀ c ∈ before ++ [ep], ¬ Confirms config crates c := by
        intro ep
        rw [mem_dropLast_tried]
        simp only [tryPublishToUrl_error]
      dsimp only [Except.mapError, Except.map]
      rw [List.length_map, ← List.countP_eq_length_filter]
      constructor
      · rintro ⟨-, hleft⟩ body' - before ep after hurls hafter hbefore hlost
        -- to the loop a lost confirm is an error like any other
        have hfailed : ∀ c ∈ before ++ [ep], ¬ Confirms config crates c := by
          intro c hc
          rcases List.mem_append.mp hc with hc | hc
          · exact hbefore c hc
          · exact List.mem_singleton.mp hc ▸ hlost.not_confirms
        have htook := hleft ep
          ((htried ep).mpr ⟨before, after, hurls, hafter, hfailed⟩)
        rw [(losesConfirm_iff hlost.not_confirms).mpr hlost] at htook
        cases htook
      · intro h
        have hleft : ∀ ep ∈ (failover
            (tryPublishToUrl config crates request.requestId) urls
              none).2.dropLast, tookMessage config crates ep = false := by
          intro ep hep
          obtain ⟨before, after, hurls, hafter, hfailed⟩ := (htried ep).mp hep
          have hself := hfailed ep (List.mem_append_right _ List.mem_cons_self)
          apply Bool.eq_false_iff.mpr
          intro htook
          refine h body rfl before ep after hurls hafter ?_
            ((losesConfirm_iff hself).mp htook)
          exact fun c hc => hfailed c (List.mem_append_left _ hc)
        exact ⟨countP_le_one hleft, hleft⟩

end Runs

/-! ## A lost confirm -/

/-- An answer at once. -/
def answered {α : Type} (a : α) : Answer String α := ⟨0, .ok a⟩

/-- A URL that takes the job, with the confirm it gives. -/
def takesJob (confirm : Except String Confirmation)
    (hconfirm : ∀ c, confirm = .ok c → ¬ c.Refuses) : Endpoint where
  defaultRuntime := .ok ()
  connect := answered ()
  createChannel := answered ()
  confirmSelect := answered ()
  basicPublish := answered ()
  confirm := ⟨0, confirm⟩
  waitForConfirms := answered []
  acceptedAt := 0
  enqueues := true
  refused c hc hrefuses := absurd hrefuses (hconfirm c hc)
  returned _ hms hne := absurd (Except.ok.inj hms).symm hne

/-- The first connection breaks after the broker has the job, the second URL
confirms it. -/
def lostConfirm : List Endpoint :=
  [takesJob (.error "connection closed") nofun,
    takesJob (.ok (.ack none)) fun _ hc hrefuses => by
      cases hc
      exact hrefuses rfl]

/-- Two copies of the job are enqueued, and `publish` answers that it is. -/
theorem lost_confirm_duplicates : ¬ ∀ config crates urls request,
    AtMostOneJob config crates urls request := by
  intro h
  have hone := (h ⟨"jobs", "videogen", 10, none⟩
    ⟨fun _ => .ok [], fun _ => .ok [], fun _ => .ok ""⟩ lostConfirm
    { requestId := "r"
      requestKey := ⟨"p", 0⟩
      userPrincipal := "p"
      modelId := "ltx2"
      workflowJson := .null
      input := .null
      callbackUrl := ""
      uploadUrlRefreshUrl := none
      uploadDestination := ⟨"v", "p/v.mp4", "", 0, none, none⟩
      stagedImageKey := none }).1
  exact absurd hone (by decide)

end VideoStorage.Videogen
