import VideoStorage.Foundation.Retry
import VideoStorage.Foundation.Text
import VideoStorage.Videogen.Hmac

/-!
# Moderation

`moderate` asks the moderation service at most three times. An answer that is no
success is tried again or ends the matter by its status; an answer that is one is
read, and what it does not say counts as not offensive. So moderation fails
closed exactly while every readable answer says whether the content is offensive
(`fails_closed_iff`).
-/

namespace VideoStorage.Videogen

open Foundation
open Prog (Runs runs_bind runs_call runs_ret)

/-! ## The code -/

/-- What became of a request. The body may still fail to arrive. -/
inductive HttpOutcome
  | transport (error : String)
  | response (status : ℕ) (body : Except String Bytes)

structure HttpPost where
  url : String
  headers : List (String × String)
  timeoutMs : UInt64
  body : Bytes

inductive ModerationCall
  | envVar (name : String)
  /-- Seconds since the epoch, zero before it. -/
  | unixSeconds
  | post (request : HttpPost)
  | sleep (ms : ℕ)

@[reducible] def ModerationCall.Reply : ModerationCall → Type
  | .envVar _ => Option String
  | .unixSeconds => Int64
  | .post _ => HttpOutcome
  | .sleep _ => Unit

abbrev Mod : Type → Type := Prog ModerationCall ModerationCall.Reply

inductive ModerationMode
  | remote
  | mockAllow
  deriving DecidableEq, Repr

structure ModerationConfig where
  moderationMode : ModerationMode
  moderationTimeoutMs : UInt64

def moderationMaxAttempts : ℕ := 3

def moderationRetryBaseDelayMs : ℕ := 200

def moderationServiceUrl : String := "https://nsfw.ansuman.yral.com"

def isSuccess (status : ℕ) : Bool := 200 ≤ status && status < 300

def isServerError (status : ℕ) : Bool := 500 ≤ status && status < 600

/-- What an outcome makes of an attempt. -/
def attemptOf (crates : Crates) :
    HttpOutcome → Attempt ModerationError ModerationDecision
  | .transport e => .retryable (.requestFailed e)
  | .response status body =>
      if ¬ isSuccess status then
        let bodyText := body.toOption.elim "" crates.bodyText
        let err := ModerationError.requestFailed ("moderation service returned " ++
          crates.statusText status ++ ": " ++ bodyText)
        if isServerError status ∨ status = 429 then .retryable err
        else .terminal err
      else
        match body.bind crates.parseJson with
        | .error e => .retryable (.requestFailed e)
        | .ok body =>
            if ((body.get? "is_nsfw").bind Json.asBool).getD false then
              .done .notSafe
            else .done .safe

/-- One attempt, signed afresh. -/
def moderateOnce (crates : Crates) (config : ModerationConfig) (secret path : String)
    (requestBody : Bytes) : Mod (Attempt ModerationError ModerationDecision) :=
  .call .unixSeconds fun timestamp =>
  .call (.post {
    url := trimSlashes moderationServiceUrl ++ path
    headers := [("content-type", "application/json"),
      ("X-Internal-Timestamp", decimal timestamp),
      ("X-Internal-Signature", signModerationRequest crates (utf8 secret) "POST"
        path timestamp requestBody)]
    timeoutMs := config.moderationTimeoutMs
    body := requestBody }) fun outcome =>
  .ret (attemptOf crates outcome)

/-- The wait doubles with every attempt; after the last one there is none. -/
def moderationPause (left : ℕ) : Mod Unit :=
  if left = 0 then .ret ()
  else .call (.sleep (moderationRetryBaseDelayMs *
    2 ^ (moderationMaxAttempts - left - 1))) .ret

def moderationPath : ModerationSubject → String
  | .textOnly => "/v1/text/detect"
  | .imageUrl _ => "/v1/images/detect-url"

def moderationBody (input : ModerationInput) : Json :=
  match input.subject with
  | .textOnly => Json.object [("text", .str input.prompt)]
  | .imageUrl url =>
      Json.object [("image_url", .str url), ("prompt", .str input.prompt)]

/-- `none` is the panic of the `expect` after the loop. -/
def moderate (crates : Crates) (config : ModerationConfig)
    (input : ModerationInput) :
    Mod (Option (Except ModerationError ModerationDecision)) :=
  if config.moderationMode = .mockAllow then .ret (some (.ok .safe))
  else .call (.envVar "MODERATION_HMAC_SECRET") fun
    | none => .ret (some (.error
        (.requestFailed "MODERATION_HMAC_SECRET is required")))
    | some secret =>
        retry (moderateOnce crates config secret (moderationPath input.subject)
          (utf8 (crates.jsonText (moderationBody input)))) moderationPause
          moderationMaxAttempts none

/-! ## Answers of the service -/

/-- The outcome of an attempt. -/
def outcomeOf : Prog.Exchange ModerationCall ModerationCall.Reply →
    Option HttpOutcome
  | ⟨.post _, outcome⟩ => some outcome
  | _ => none

/-- A success whose body says in so many words that nothing is offensive. -/
def Approves (crates : Crates) (o : HttpOutcome) : Prop :=
  ∃ status bytes v, o = .response status (.ok bytes) ∧ isSuccess status ∧
    crates.parseJson bytes = .ok v ∧ v.get? "is_nsfw" = some (.bool false)

/-- A success whose body is not JSON, or has no boolean `is_nsfw`. -/
def Malformed (crates : Crates) (o : HttpOutcome) : Prop :=
  ∃ status body, o = .response status body ∧ isSuccess status ∧
    ∀ bytes v b, body = .ok bytes → crates.parseJson bytes = .ok v →
      v.get? "is_nsfw" ≠ some (.bool b)

def ClientError (o : HttpOutcome) : Prop :=
  ∃ status body, o = .response status body ∧ 400 ≤ status ∧ status < 500 ∧
    status ≠ 429

/-- Outcomes that were met in this order, and the answer they led to. -/
structure FailsClosed (crates : Crates) (os : List HttpOutcome)
    (out : Option (Except ModerationError ModerationDecision)) : Prop where
  safe : out = some (.ok .safe) → ∃ o ∈ os, Approves crates o
  malformed : ∀ pre o post, os = pre ++ o :: post → Malformed crates o →
    post ≠ [] ∨ (pre.length + 1 = moderationMaxAttempts ∧
      ∃ e, out = some (.error e))
  bounded : os.length ≤ moderationMaxAttempts
  clientError : ∀ pre o post, os = pre ++ o :: post → ClientError o →
    post = [] ∧ ∃ e, out = some (.error e)

/-- A success that is JSON but has no boolean `is_nsfw`. -/
def Silent (crates : Crates) (o : HttpOutcome) : Prop :=
  ∃ status bytes v, o = .response status (.ok bytes) ∧ isSuccess status ∧
    crates.parseJson bytes = .ok v ∧ ∀ b, v.get? "is_nsfw" ≠ some (.bool b)

/-! ## Single outcomes -/

variable {crates : Crates} {config : ModerationConfig} {input : ModerationInput}
  {o : HttpOutcome}
  {tr : List (Prog.Exchange ModerationCall ModerationCall.Reply)}
  {out : Option (Except ModerationError ModerationDecision)}

/-- An attempt finds the content safe on an approval, or on silence. -/
theorem attemptOf_safe (h : attemptOf crates o = .done .safe) :
    Approves crates o ∨ Silent crates o := by
  cases o with
  | transport e => cases h
  | response status body =>
      simp only [attemptOf] at h
      split_ifs at h with hsuccess herr
      · cases hbody : body with
        | error e =>
            rw [hbody] at h
            cases h
        | ok bytes =>
            rw [hbody] at h
            simp only [Except.bind] at h
            split at h
            · cases h
            · rename_i v hv
              split_ifs at h with hnsfw
              · cases h
              · by_cases hbool : ∃ b, v.get? "is_nsfw" = some (.bool b)
                · left
                  obtain ⟨b, hb⟩ := hbool
                  have hfalse : b = false := by
                    rw [hb] at hnsfw
                    simpa [Json.asBool] using hnsfw
                  exact ⟨status, bytes, v, rfl, hsuccess, hv, hfalse ▸ hb⟩
                · right
                  refine ⟨status, bytes, v, rfl, hsuccess, hv, ?_⟩
                  exact fun b hb => hbool ⟨b, hb⟩

theorem attemptOf_silent (h : Silent crates o) :
    attemptOf crates o = .done .safe := by
  obtain ⟨status, bytes, v, rfl, hsuccess, hv, hnone⟩ := h
  have hget : ((v.get? "is_nsfw").bind Json.asBool).getD false = false := by
    cases hg : v.get? "is_nsfw" with
    | none => rfl
    | some j =>
        cases j with
        | bool b => exact absurd hg (hnone b)
        | _ => rfl
  simp [attemptOf, hsuccess, Except.bind, hv, hget]

/-- A malformed answer may be retried, unless it is silent. -/
theorem attemptOf_malformed (h : Malformed crates o) (hs : ¬ Silent crates o) :
    ∃ e, attemptOf crates o = .retryable e := by
  obtain ⟨status, body, rfl, hsuccess, hnone⟩ := h
  have hparse : ∃ e, body.bind crates.parseJson = .error e := by
    cases body with
    | error e => exact ⟨e, rfl⟩
    | ok bytes =>
        cases hv : crates.parseJson bytes with
        | error e => exact ⟨e, hv⟩
        | ok v =>
            exact absurd ⟨status, bytes, v, rfl, hsuccess, hv,
              fun b => hnone bytes v b rfl hv⟩ hs
  obtain ⟨e, he⟩ := hparse
  refine ⟨.requestFailed e, ?_⟩
  simp [attemptOf, hsuccess, he]

theorem attemptOf_clientError (h : ClientError o) :
    ∃ e, attemptOf crates o = .terminal e := by
  obtain ⟨status, body, rfl, hge, hlt, hne⟩ := h
  have hsuccess : isSuccess status = false := by simp [isSuccess]; omega
  have hserver : isServerError status = false := by simp [isServerError]; omega
  refine ⟨.requestFailed ("moderation service returned " ++
    crates.statusText status ++ ": " ++ body.toOption.elim "" crates.bodyText),
    ?_⟩
  simp [attemptOf, hsuccess, hserver, hne]

theorem Silent.malformed (h : Silent crates o) : Malformed crates o := by
  obtain ⟨status, bytes, v, rfl, hsuccess, hv, hnone⟩ := h
  refine ⟨status, .ok bytes, rfl, hsuccess, ?_⟩
  rintro _ v' b ⟨⟩ hv'
  obtain rfl : v = v' := Except.ok.inj (hv.symm.trans hv')
  exact hnone b

/-! ## Every run -/

/-- A run makes its attempts one after another, or none for want of a secret. -/
theorem moderate_runs (hmode : config.moderationMode ≠ .mockAllow)
    (h : Runs (moderate crates config input) tr out) :
    (tr.filterMap outcomeOf = [] ∧ ∃ e, out = some (.error e)) ∨
      Retried (attemptOf crates) moderationMaxAttempts none
        (tr.filterMap outcomeOf) out := by
  unfold moderate at h
  rw [if_neg hmode, runs_call] at h
  obtain ⟨secret, tr₁, rfl, h⟩ := h
  cases secret with
  | none =>
      obtain ⟨rfl, rfl⟩ := runs_ret.mp h
      exact .inl ⟨rfl, _, rfl⟩
  | some secret =>
      right
      rw [List.filterMap_cons_none (f := outcomeOf) rfl]
      refine retry_runs ?_ ?_ h
      · intro tr₂ r hr
        simp only [moderateOnce, runs_call, runs_ret] at hr
        obtain ⟨timestamp, _, rfl, outcome, _, rfl, rfl, rfl⟩ := hr
        exact ⟨outcome, rfl, rfl⟩
      · intro n tr₂ u hu
        unfold moderationPause at hu
        split_ifs at hu
        · obtain ⟨rfl, -⟩ := runs_ret.mp hu
          rfl
        · simp only [runs_call, runs_ret] at hu
          obtain ⟨_, _, rfl, rfl, -⟩ := hu
          rfl

/-- The `expect` after the loop never fails. -/
theorem moderate_answers (hmode : config.moderationMode ≠ .mockAllow)
    (h : Runs (moderate crates config input) tr out) : ∃ r, out = some r := by
  rcases moderate_runs hmode h with ⟨-, e, rfl⟩ | hretried
  · exact ⟨_, rfl⟩
  · exact hretried.answers (.inl (by decide))

theorem Retried.failsClosed {os : List HttpOutcome}
    (h : Retried (attemptOf crates) moderationMaxAttempts none os out)
    (hsilent : ∀ o ∈ os, ¬ Silent crates o) : FailsClosed crates os out := by
  refine ⟨?_, ?_, h.length_le, ?_⟩
  · rintro rfl
    obtain ⟨pre, o, rfl, ho, -⟩ := h.of_ok
    have hmem : o ∈ pre ++ [o] := by simp
    exact ⟨o, hmem, (attemptOf_safe ho).resolve_right (hsilent o hmem)⟩
  · rintro pre o post rfl hmal
    obtain ⟨e, he⟩ := attemptOf_malformed hmal (hsilent o (by simp))
    rcases h.at_attempt with ⟨-, a, ha, -⟩ | ⟨-, e', he', -⟩ | ⟨e', he', hnext⟩
    · rw [he] at ha
      cases ha
    · rw [he] at he'
      cases he'
    · exact hnext.imp_right fun ⟨hlen, hout⟩ => ⟨hlen, e', hout⟩
  · rintro pre o post rfl hclient
    obtain ⟨e, he⟩ := attemptOf_clientError hclient
    rcases h.at_attempt with ⟨-, a, ha, -⟩ | ⟨hpost, e', -, hout⟩ | ⟨e', he', -⟩
    · rw [he] at ha
      cases ha
    · exact ⟨hpost, e', hout⟩
    · rw [he] at he'
      cases he'

/-- **Moderation fails closed**, when it is not mocked, in exactly the runs that
meet no readable answer without a boolean `is_nsfw`. -/
theorem fails_closed_iff (hmode : config.moderationMode ≠ .mockAllow)
    (h : Runs (moderate crates config input) tr out) :
    FailsClosed crates (tr.filterMap outcomeOf) out ↔
      ∀ o ∈ tr.filterMap outcomeOf, ¬ Silent crates o := by
  constructor
  · intro hclosed o ho hsilent
    obtain ⟨pre, post, hsplit⟩ := List.append_of_mem ho
    rcases moderate_runs hmode h with ⟨hnone, -⟩ | hretried
    · rw [hnone] at ho
      cases ho
    · -- the answer to a silent outcome is the run's
      rw [hsplit] at hretried
      have hdone := attemptOf_silent hsilent
      rcases hretried.at_attempt with ⟨hpost, a, -, hout⟩ | ⟨-, e, he, -⟩ |
        ⟨e, he, -⟩
      · rcases hclosed.malformed pre o post hsplit hsilent.malformed with
          hne | ⟨-, e, he⟩
        · exact hne hpost
        · rw [hout] at he
          cases he
      · rw [hdone] at he
        cases he
      · rw [hdone] at he
        cases he
  · intro hsilent
    -- without a request there is no outcome to be silent
    rcases moderate_runs hmode h with ⟨hnone, e, rfl⟩ | hretried
    · rw [hnone]
      refine ⟨nofun, ?_, by simp, ?_⟩
      · intro pre o post hsplit
        cases pre <;> cases hsplit
      · intro pre o post hsplit
        cases pre <;> cases hsplit
    · exact Retried.failsClosed hretried hsilent

/-! ## An empty object -/

/-- The crates on the answers below. -/
def catModeration (answer : Bytes → Except String Json) : Crates where
  principalFromStr := .ok
  decodeBase64 _ := none
  sha256Hex _ :=
    "c83fd1b654db00f8e65db1b933c2d402d97c10fe23f3250c81722b1702e5f5d0"
  hmacSha256 _ _ := [90, 148, 196, 134, 205, 91, 106, 211, 212, 77, 251, 89,
    158, 109, 215, 198, 44, 0, 34, 191, 110, 155, 46, 18, 118, 4, 135, 140, 195,
    154, 10, 17]
  hexEncode _ :=
    "5a94c486cd5b6ad3d44dfb599e6dd7c62c0022bf6e9b2e127604878cc39a0a11"
  hexDecode _ := none
  jsonText _ := "\x7b\"text\":\"a cat\"\x7d"
  parseJson := answer
  bodyText _ := ""
  statusText _ := "200 OK"

def catInput : ModerationInput where
  requestId := "a2c7cc102cec71551975c8019637d8a49ac3e0e3e3efd0cdc78496ac3155b725"
  userPrincipal := "aaaaa-aa"
  prompt := "a cat"
  subject := .textOnly

def remoteConfig : ModerationConfig where
  moderationMode := .remote
  moderationTimeoutMs := 60000

def catPost (crates : Crates) (timestamp : Int64) : HttpPost where
  url := trimSlashes moderationServiceUrl ++ "/v1/text/detect"
  headers := [("content-type", "application/json"),
    ("X-Internal-Timestamp", decimal timestamp),
    ("X-Internal-Signature", signModerationRequest crates (utf8 "test-secret")
      "POST" "/v1/text/detect" timestamp (utf8 (crates.jsonText .null)))]
  timeoutMs := 60000
  body := utf8 (crates.jsonText .null)

/-- An attempt, answered in this way. -/
def catAttempt (crates : Crates) (timestamp : Int64) (outcome : HttpOutcome) :
    List (Prog.Exchange ModerationCall ModerationCall.Reply) := [
  ⟨.unixSeconds, timestamp⟩,
  ⟨.post (catPost crates timestamp), outcome⟩]

def catSecret : Prog.Exchange ModerationCall ModerationCall.Reply :=
  ⟨.envVar "MODERATION_HMAC_SECRET", some "test-secret"⟩

/-- The service is down at first, and then says that nothing is offensive. -/
theorem fails_closed_retried : FailsClosed
    (catModeration fun _ => .ok (.obj [("is_nsfw", .bool false)]))
    [.response 503 (.ok []), .response 200 (.ok (utf8 "\x7b\"is_nsfw\":false\x7d"))]
    (some (.ok .safe)) := by
  have hrun : Runs (moderate
      (catModeration fun _ => .ok (.obj [("is_nsfw", .bool false)]))
      remoteConfig catInput)
      (catSecret :: (catAttempt _ 1779879600 (.response 503 (.ok [])) ++
        ⟨.sleep 200, ()⟩ :: catAttempt _ 1779879601
          (.response 200 (.ok (utf8 "\x7b\"is_nsfw\":false\x7d")))))
      (some (.ok .safe)) :=
    .call (.call (.call (.call (.call (.call (.ret _))))))
  refine (fails_closed_iff (by decide) hrun).mpr ?_
  rintro o ho ⟨status, bytes, v, rfl, hsuccess, hv, hnone⟩
  rcases List.mem_cons.mp ho with heq | ho
  · cases heq
    exact absurd hsuccess (by decide)
  · cases hv
    exact hnone false rfl

/-- An answer of an empty object passes the content. -/
theorem empty_object_passes : ∃ tr out, Runs (moderate
      (catModeration fun _ => .ok (.obj [])) remoteConfig catInput) tr out ∧
    ¬ FailsClosed (catModeration fun _ => .ok (.obj []))
      (tr.filterMap outcomeOf) out := by
  refine ⟨catSecret :: catAttempt _ 1779879600 (.response 200 (.ok (utf8 "\x7b\x7d"))),
    some (.ok .safe),
    .call (.call (.call (.ret _))), ?_⟩
  intro hclosed
  obtain ⟨o, ho, status, bytes, v, rfl, -, hv, hfalse⟩ := hclosed.safe rfl
  cases hv
  cases hfalse

end VideoStorage.Videogen
