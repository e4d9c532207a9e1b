import VideoStorage.Chain.Agreement
import VideoStorage.Jobs.ImportRun

/-!
# The audit's route

`GET /chain/audit`: refused when too few of a sample of videos are found at all,
else the report, and with `remediate` the failures of the master rows of category B
deleted and an import spawned if there is a video in category C. Any of its queries
may fail; all but the deletion only read.
-/

namespace VideoStorage.Chain

open Foundation MediaIndex
open Jobs.MediaImports (ImportEnv ImportError importCurrentVideoIndex legacyRows)
open VideoStorage.Db (VideoTables)
open Jobs.MediaPhash (Db)

/-! ## The database -/

/-- What the audit reads of a failure. -/
def auditFailure (f : MediaJobFailure) : AuditFailure where
  jobKind := f.jobKind
  videoId := some f.videoId
  nextRetryAt := f.nextRetryAt

/-- The tables of the chain beside those of the mirror and of the media index. -/
structure ChainDb where
  posts : Rows YralPost.postId := {}
  video : VideoTables := {}
  db : Db := {}

def ChainDb.audit (c : ChainDb) : AuditTables where
  posts := c.posts
  media := c.db.tables
  videoIndex := (legacyRows c.video).map (·.videoId)
  failures := c.db.failures.rows.map auditFailure

def ChainDb.withDb (c : ChainDb) (db : Db) : ChainDb := { c with db := db }

def ChainDb.withFailures (c : ChainDb) (failures : JobFailures) : ChainDb :=
  c.withDb { c.db with failures := failures }

/-! ## The queries -/

/-- The statements of the route, the connection first. -/
inductive AuditQuery
  | connect
  | snapshotFreshness
  | joinKeyMatchRate
  | chainAudit
  | categoryDSample
  | worstCreators
  | categoryBVideoIds
  | clearPhashFailures
  deriving DecidableEq

/-- The sample of `join_key_match_rate`, and how many of it are found. There is no
`ORDER BY`. -/
def joinKeyMatches (order : Shuffle String) (lower : String → String) (sample : ℤ)
    (db : AuditTables) : Except SqlError (ℕ × ℕ) := do
  let limit ← limitOf (some sample)
  let s := limited limit
    (order.apply ((db.live.filter (·.isExpected)).map (·.videoUid)).dedup)
  return (s.length, s.countP fun videoUid =>
    db.inMaster lower (uidKey lower videoUid) ||
      db.inIndex lower (uidKey lower videoUid))

/-- `rate < 0.5`; nothing sampled is a rate of one. -/
def implausible : ℕ × ℕ → Bool
  | (total, found) => total ≠ 0 ∧ 2 * found < total

/-- The ids that the route asks for. -/
def remediationLimit : ℤ := 100000

structure SnapshotFreshness where
  runId : Option String := none
  status : Option String := none
  newestFetchedAt : Option String := none
  deriving DecidableEq

/-- What a request meets. -/
structure AuditEnv where
  /-- The database's `lower` and its clock. -/
  lower : String → String
  now : ℤ
  fails : AuditQuery → Bool := fun _ => false
  /-- The order in which the videos of the sample are found. -/
  order : Shuffle String := .none
  /-- The deletion is done although its answer is lost. -/
  answerLost : Bool := false
  /-- What `snapshot_freshness` answers. -/
  freshness : SnapshotFreshness := {}
  /-- The outcome of the compare-and-swap on the import flag. -/
  importFree : Bool := true

/-! ## The answer -/

structure Remediated where
  bFailuresCleared : ℕ
  importTriggered : Bool
  deriving DecidableEq

structure ChainAuditResponse where
  report : ChainAuditReport
  dSample : List (String × String)
  worstCreators : List (String × ℕ)
  remediated : Option Remediated
  fresh : SnapshotFreshness
  deriving DecidableEq

inductive AuditStatus
  | internalServerError
  | unprocessableEntity
  deriving DecidableEq

/-- What a request comes to: its answer, the tables, and whether it spawned an
import. -/
structure AuditDone where
  reply : Except AuditStatus ChainAuditResponse
  db : ChainDb
  spawned : Bool := false

namespace AuditEnv

variable (env : AuditEnv) {α : Type}

/-- A query that fails is a 500. -/
def ask (q : AuditQuery) (answer : Except SqlError α) : Except AuditStatus α :=
  if env.fails q then .error .internalServerError
  else answer.mapError fun _ => .internalServerError

/-- What the answer takes from the queries before the remediation. -/
def read (c : ChainDb) : Except AuditStatus ChainAuditResponse := do
  env.ask .connect (.ok ())
  let fresh ← env.ask .snapshotFreshness (.ok env.freshness)
  let rate ← env.ask .joinKeyMatchRate (joinKeyMatches env.order env.lower 200 c.audit)
  if implausible rate then .error .unprocessableEntity
  else
    let rep ← env.ask .chainAudit (.ok (Chain.chainAudit env.lower env.now c.audit))
    let dSample ← env.ask .categoryDSample (c.audit.categoryDSample env.lower 100)
    let worst ← env.ask .worstCreators (c.audit.worstCreators env.lower 50)
    return ⟨rep, dSample, worst, none, fresh⟩

/-- `clear_phash_failures` asks nothing for no ids. -/
def clear (bIds : List String) (c : ChainDb) : Except AuditStatus ℕ × ChainDb :=
  let cleared := JobFailures.clearPhashFailures bIds c.db.failures
  if env.fails .clearPhashFailures && ! bIds.isEmpty then
    (.error .internalServerError,
      if env.answerLost then c.withFailures cleared.2 else c)
  else (.ok cleared.1, c.withFailures cleared.2)

def remediate (resp : ChainAuditResponse) (c : ChainDb) : AuditDone :=
  match env.ask .categoryBVideoIds
      (c.audit.categoryBVideoIds env.lower remediationLimit) with
  | .error status => { reply := .error status, db := c }
  | .ok bIds =>
      match env.clear bIds c with
      | (.error status, c') => { reply := .error status, db := c' }
      | (.ok cleared, c') =>
          let triggered := decide (0 < resp.report.categoryC) && env.importFree
          { reply := .ok { resp with remediated := some ⟨cleared, triggered⟩ }
            db := c'
            spawned := triggered }

/-- `chain_audit` of the routes. -/
def chainAudit (remediate : Bool) (c : ChainDb) : AuditDone :=
  match env.read c with
  | .error status => { reply := .error status, db := c }
  | .ok resp =>
      if remediate then env.remediate resp c else { reply := .ok resp, db := c }

end AuditEnv

/-- The tables when the import that the request may have spawned is over, with the
outcome if it came to a run: there is none if it was not spawned or found no
connection. -/
inductive AfterImport (ienv : ImportEnv) (done : AuditDone) :
    Option (Except ImportError String) → ChainDb → Prop
  | none : AfterImport ienv done none done.db
  | ended {fuel : ℕ} {r : Jobs.MediaImports.ImportResult} (spawned : done.spawned = true)
      (limit : ienv.limit = .none)
      (ends : importCurrentVideoIndex ienv done.db.video done.db.db fuel = some r) :
      AfterImport ienv done (some r.2) (done.db.withDb r.1.db)

/-! ## The sample -/

/-- The sampled videos are the expected ones. -/
theorem sample_perm (order : Shuffle String) (db : AuditTables) :
    (order.apply ((db.live.filter (·.isExpected)).map (·.videoUid)).dedup).Perm
      db.expected := by
  refine (order.perm _).trans ?_
  have hnodup : db.expected.Nodup := having_nodup _
  refine (List.perm_ext_iff_of_nodup (List.nodup_dedup _) hnodup).mpr ?_
  intro videoUid
  rw [List.mem_dedup, List.mem_map, mem_expected]
  simp only [List.mem_filter]
  constructor
  · rintro ⟨row, ⟨hlive, hexp⟩, rfl⟩
    exact ⟨row, hlive, rfl, hexp⟩
  · rintro ⟨row, hlive, rfl, hexp⟩
    exact ⟨row, ⟨hlive, hexp⟩, rfl⟩

/-- A sample of all videos finds those that are not in category D. -/
theorem joinKeyMatches_eq (order : Shuffle String) (lower : String → String) (now : ℤ)
    {sample : ℤ} {db : AuditTables} (h : db.expected.length ≤ sample) :
    joinKeyMatches order lower sample db = .ok ((chainAudit lower now db).totalExpected,
      (chainAudit lower now db).totalExpected
        - (chainAudit lower now db).categoryD) := by
  have hperm := sample_perm order db
  have hall : limited (some sample.toNat)
      (order.apply ((db.live.filter (·.isExpected)).map (·.videoUid)).dedup)
        = order.apply ((db.live.filter (·.isExpected)).map (·.videoUid)).dedup := by
    refine limited_eq_self fun n hn => ?_
    obtain rfl := Option.mem_some_iff.mp hn
    rw [hperm.length_eq]
    omega
  have hfound : (fun videoUid => db.inMaster lower (uidKey lower videoUid) ||
      db.inIndex lower (uidKey lower videoUid)) = fun videoUid =>
        ! decide (Category.d.filter (db.cat lower now videoUid) = some true) := by
    funext videoUid
    have hd : InCategory lower now db videoUid .d ↔ _ := inCategory_d
    unfold InCategory at hd
    rw [← inMaster_eq_false] at hd
    cases hm : db.inMaster lower (uidKey lower videoUid) <;>
      cases hi : db.inIndex lower (uidKey lower videoUid) <;> simp [hm, hi] at hd ⊢ <;>
      simp [hd]
  have hd : (chainAudit lower now db).categoryD = db.expected.countP fun videoUid =>
      decide (Category.d.filter (db.cat lower now videoUid) = some true) := by
    show countWhere _ (db.expected.map _) = _
    unfold countWhere
    rw [List.countP_map]
    rfl
  have htotal : (chainAudit lower now db).totalExpected = db.expected.length :=
    List.length_map ..
  have hcount := List.length_eq_countP_add_countP (l := db.expected)
    (fun videoUid =>
      decide (Category.d.filter (db.cat lower now videoUid) = some true))
  unfold joinKeyMatches
  rw [limitOf_of_le h]
  show Except.ok _ = _
  rw [hall, hfound, hperm.length_eq, hperm.countP_eq, hd, htotal]
  simp only [Bool.not_eq_true, Bool.decide_eq_false] at hcount
  refine congrArg Except.ok (Prod.ext rfl ?_)
  show List.countP _ _ = _ - List.countP _ _
  omega

/-- Of at most as many videos as are sampled the rate is too low exactly if more than
half are in category D. -/
theorem implausible_iff {order : Shuffle String} {lower : String → String}
    {now sample : ℤ} {db : AuditTables} {rate : ℕ × ℕ} (h : db.expected.length ≤ sample)
    (hrate : joinKeyMatches order lower sample db = .ok rate) :
    implausible rate = true ↔
      (chainAudit lower now db).totalExpected
        < 2 * (chainAudit lower now db).categoryD := by
  have hle : (chainAudit lower now db).categoryD
      ≤ (chainAudit lower now db).totalExpected := List.countP_le_length
  obtain rfl := Except.ok.inj ((joinKeyMatches_eq order lower now h).symm.trans hrate)
  unfold implausible
  rw [decide_eq_true_eq]
  omega

/-! ## What a request comes to -/

namespace AuditEnv

variable (env : AuditEnv)

/-- The sampled videos are too rarely found. -/
def tooFew (c : ChainDb) : Bool :=
  (joinKeyMatches env.order env.lower 200 c.audit).toOption.any implausible

/-- The answer of a request that is not to remediate. -/
def response (c : ChainDb) : ChainAuditResponse where
  report := Chain.chainAudit env.lower env.now c.audit
  dSample := orderLimit (·.1) (some 100) (c.audit.categoryDRows env.lower)
  worstCreators :=
    orderLimit (fun r => OrderDual.toDual r.2) (some 50) (c.audit.creatorRows env.lower)
  remediated := none
  fresh := env.freshness

/-- The ids whose failures a remediation deletes. -/
def bIds (c : ChainDb) : List String :=
  limited (some remediationLimit.toNat) (c.audit.categoryBRows env.lower)

/-- How many they are, and the failures without them. -/
def cleared (c : ChainDb) : ℕ × JobFailures :=
  JobFailures.clearPhashFailures (env.bIds c) c.db.failures

/-- The queries that a request comes to unless one before fails. -/
def asked (remediate : Bool) (c : ChainDb) : List AuditQuery :=
  [.connect, .snapshotFreshness, .joinKeyMatchRate] ++
    if env.tooFew c then []
    else [.chainAudit, .categoryDSample, .worstCreators] ++
      if remediate then
        .categoryBVideoIds :: if (env.bIds c).isEmpty then [] else [.clearPhashFailures]
      else []

variable {env} {c : ChainDb} {resp : ChainAuditResponse} {q : AuditQuery}
  {α β : Type}

theorem ask_ok {a : α} : env.ask q (.ok a) =
    if env.fails q then .error .internalServerError else .ok a := rfl

/-- After a query that does not fail the rest of the request follows. -/
theorem ask_bind {a : α} {rest : α → Except AuditStatus β} :
    (env.ask q (.ok a) >>= rest) =
      if env.fails q then .error .internalServerError else rest a := by
  rw [ask_ok]
  cases env.fails q <;> rfl

theorem read_eq : env.read c =
    if [.connect, .snapshotFreshness, .joinKeyMatchRate].any env.fails then
      .error .internalServerError
    else if env.tooFew c then .error .unprocessableEntity
    else if [.chainAudit, .categoryDSample, .worstCreators].any env.fails then
      .error .internalServerError
    else .ok (env.response c) := by
  obtain ⟨rate, hrate⟩ : ∃ rate, joinKeyMatches env.order env.lower 200 c.audit = .ok rate :=
    ⟨_, rfl⟩
  have hfew : env.tooFew c = implausible rate := by
    unfold tooFew
    rw [hrate]
    rfl
  have hd : c.audit.categoryDSample env.lower 100 = .ok (env.response c).dSample := rfl
  have hw : c.audit.worstCreators env.lower 50 = .ok (env.response c).worstCreators := rfl
  unfold read
  rw [hrate, hd, hw, hfew]
  simp only [ask_bind, List.any_cons, List.any_nil, Bool.or_false, Bool.or_eq_true,
    ite_or]
  rfl

theorem remediate_eq : env.remediate resp c =
    if env.fails .categoryBVideoIds then
      { reply := .error .internalServerError, db := c }
    else if env.fails .clearPhashFailures && ! (env.bIds c).isEmpty then
      { reply := .error .internalServerError
        db := if env.answerLost then c.withFailures (env.cleared c).2 else c }
    else
      { reply := .ok { resp with remediated := some ⟨(env.cleared c).1,
          decide (0 < resp.report.categoryC) && env.importFree⟩ }
        db := c.withFailures (env.cleared c).2
        spawned := decide (0 < resp.report.categoryC) && env.importFree } := by
  have hids : c.audit.categoryBVideoIds env.lower remediationLimit = .ok (env.bIds c) :=
    rfl
  unfold remediate
  rw [hids, ask_ok]
  by_cases hb : env.fails .categoryBVideoIds = true
  · rw [if_pos hb, if_pos hb]
  · rw [if_neg hb, if_neg hb]
    unfold clear
    dsimp only
    split_ifs <;> rfl

theorem chainAudit_eq {remediate : Bool} : env.chainAudit remediate c =
    if [.connect, .snapshotFreshness, .joinKeyMatchRate].any env.fails then
      { reply := .error .internalServerError, db := c }
    else if env.tooFew c then { reply := .error .unprocessableEntity, db := c }
    else if [.chainAudit, .categoryDSample, .worstCreators].any env.fails then
      { reply := .error .internalServerError, db := c }
    else if remediate then env.remediate (env.response c) c
    else { reply := .ok (env.response c), db := c } := by
  unfold chainAudit
  rw [read_eq]
  split_ifs <;> rfl

variable {remediate : Bool}

/-- A request fails exactly if a query fails that it comes to. -/
theorem internal_iff : (env.chainAudit remediate c).reply = .error .internalServerError ↔
    ∃ q ∈ env.asked remediate c, env.fails q = true := by
  rw [← List.any_eq_true]
  unfold asked
  rw [chainAudit_eq, List.any_append]
  by_cases hfirst :
      [.connect, .snapshotFreshness, .joinKeyMatchRate].any env.fails = true
  · simp [hfirst]
  by_cases hfew : env.tooFew c = true
  · simp [hfirst, hfew]
  rw [if_neg hfirst, if_neg hfew, if_neg hfew, List.any_append]
  by_cases hsecond : [.chainAudit, .categoryDSample, .worstCreators].any env.fails = true
  · simp [hsecond]
  rw [if_neg hsecond, Bool.eq_false_iff.mpr hfirst, Bool.eq_false_iff.mpr hsecond]
  cases remediate with
  | false => simp
  | true =>
      rw [if_pos rfl, if_pos rfl, remediate_eq]
      by_cases hb : env.fails .categoryBVideoIds = true
      · simp [hb]
      · by_cases hids : (env.bIds c).isEmpty = true
        · simp [hb, hids]
        · by_cases hc : env.fails .clearPhashFailures = true
          · simp [hb, hids, hc]
          · simp [hb, hids, hc]

theorem unprocessable_iff :
    (env.chainAudit remediate c).reply = .error .unprocessableEntity ↔
      [.connect, .snapshotFreshness, .joinKeyMatchRate].any env.fails = false ∧
        env.tooFew c = true := by
  rw [chainAudit_eq, remediate_eq]
  by_cases hfirst :
      [.connect, .snapshotFreshness, .joinKeyMatchRate].any env.fails = true
  · rw [if_pos hfirst]
    exact ⟨fun h => (by cases h), fun h => absurd (hfirst.symm.trans h.1) (by decide)⟩
  by_cases hfew : env.tooFew c = true
  · rw [if_neg hfirst, if_pos hfew]
    exact ⟨fun _ => ⟨Bool.eq_false_iff.mpr hfirst, hfew⟩, fun _ => rfl⟩
  · rw [if_neg hfirst, if_neg hfew]
    refine ⟨fun h => ?_, fun h => absurd h.2 hfew⟩
    split_ifs at h <;> cases h

/-- The deletion done, with the answer if it arrived. -/
structure Deleted (env : AuditEnv) (c : ChainDb) (done : AuditDone) : Prop where
  db : done.db = c.withFailures (env.cleared c).2
  reply : (done.reply = .error .internalServerError ∧ done.spawned = false) ∨
    done.spawned = (decide (0 < (env.response c).report.categoryC) && env.importFree) ∧
      done.reply = .ok { env.response c with
        remediated := some ⟨(env.cleared c).1, done.spawned⟩ }

/-- A request only reads, or it is to remediate and has done the deletion. -/
theorem chainAudit_cases :
    ((env.chainAudit remediate c).db = c ∧
      (env.chainAudit remediate c).spawned = false ∧
      ∀ resp, (env.chainAudit remediate c).reply = .ok resp →
        remediate = false ∧ resp = env.response c) ∨
    remediate = true ∧ env.Deleted c (env.chainAudit remediate c) := by
  rw [chainAudit_eq, remediate_eq]
  split_ifs with hfirst hfew hsecond hrem hb hc
  · exact .inl ⟨rfl, rfl, fun _ h => by cases h⟩
  · exact .inl ⟨rfl, rfl, fun _ h => by cases h⟩
  · exact .inl ⟨rfl, rfl, fun _ h => by cases h⟩
  · exact .inl ⟨rfl, rfl, fun _ h => by cases h⟩
  · exact .inr ⟨hrem, rfl, .inl ⟨rfl, rfl⟩⟩
  · exact .inl ⟨rfl, rfl, fun _ h => by cases h⟩
  · exact .inr ⟨hrem, rfl, .inr ⟨rfl, rfl⟩⟩
  · refine .inl ⟨rfl, rfl, fun resp h => ?_⟩
    cases h
    exact ⟨Bool.eq_false_iff.mpr hrem, rfl⟩

/-- Nothing but failures is changed. -/
theorem chainAudit_db : ∃ failures,
    (env.chainAudit remediate c).db = c.withFailures failures := by
  rcases @chainAudit_cases env c remediate with ⟨hdb, -⟩ | ⟨-, hdb, -⟩
  · exact ⟨c.db.failures, hdb⟩
  · exact ⟨_, hdb⟩

/-- What a request that is answered with a report has done. -/
structure Answered (env : AuditEnv) (remediate : Bool) (c : ChainDb)
    (resp : ChainAuditResponse) : Prop where
  report : resp.report = Chain.chainAudit env.lower env.now c.audit
  read : remediate = false → resp.remediated = none
  remediated : remediate = true →
    (env.chainAudit remediate c).db = c.withFailures (env.cleared c).2 ∧
      resp.remediated = some ⟨(env.cleared c).1, (env.chainAudit remediate c).spawned⟩

theorem answered (h : (env.chainAudit remediate c).reply = .ok resp) :
    env.Answered remediate c resp := by
  rcases @chainAudit_cases env c remediate with ⟨-, -, hok⟩ | ⟨hrem, hdb, hreply⟩
  · obtain ⟨hrem, rfl⟩ := hok resp h
    exact ⟨rfl, fun _ => rfl, fun h => absurd (hrem.symm.trans h) Bool.false_ne_true⟩
  · rw [h] at hreply
    obtain ⟨herr, -⟩ | ⟨-, hok⟩ := hreply
    · cases herr
    · obtain rfl := Except.ok.inj hok
      exact ⟨rfl, fun hno => absurd (hno.symm.trans hrem) Bool.false_ne_true,
        fun _ => ⟨hdb, rfl⟩⟩

end AuditEnv

end VideoStorage.Chain
