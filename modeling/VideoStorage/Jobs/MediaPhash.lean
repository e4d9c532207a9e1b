import VideoStorage.MediaIndex.Feed
import VideoStorage.MediaIndex.MissingHash

/-!
# `media_phash`: one row

The transaction of `persist_one`: store a computed hash and announce it, or
record why there is none.
-/

namespace VideoStorage.Jobs.MediaPhash

open Foundation MediaIndex

variable {O : OtherWork}

def jobKind : String := "media_phash"

def inputMediaVersion : String := "current_stored_object_v1"

/-- `phash::HASH_KIND`. -/
def hashKind : String := "phash"

/-- `phash::HASH_VERSION`. -/
def hashVersion : String := "offchain_binary_10x8_v1"

def offchainNumFrames : ℤ := 10

def offchainHashSize : ℤ := 8

structure VideoMetadata where
  durationSeconds : F64
  frameCount : ℕ
  width : ℕ
  height : ℕ
  fps : F64
  deriving DecidableEq

structure VideoHashResult where
  hash : String
  metadata : VideoMetadata
  deriving DecidableEq

def buildMetadataJson (m : VideoMetadata) : Json :=
  .object [
    ("duration_seconds", .ofF64 m.durationSeconds),
    ("frame_count", .ofInt m.frameCount),
    ("width", .ofInt m.width),
    ("height", .ofInt m.height),
    ("fps", .ofF64 m.fps)]

def buildFeedPayload (row : MissingHashRow) (hashValue : String)
    (metadata : Json) : Json :=
  .object [
    ("video_id", .str row.videoId),
    ("servable_status", .str row.servableStatus),
    ("storage_provider", .ofOptStr row.storageProvider),
    ("bucket", .ofOptStr row.bucket),
    ("object_key", .ofOptStr row.objectKey),
    ("hash_kind", .str hashKind),
    ("hash_version", .str hashVersion),
    ("input_media_version", .str inputMediaVersion),
    ("hash_value", .str hashValue),
    ("metadata", metadata)]

/-- What `persist_one` upserts. -/
def hashInput (row : MissingHashRow) (vhr : VideoHashResult) :
    HashRecordInput where
  videoId := row.videoId
  hashKind := hashKind
  hashVersion := hashVersion
  inputMediaVersion := inputMediaVersion
  hashValue := vhr.hash
  hashBitLength := lenAsI32 vhr.hash
  numFrames := offchainNumFrames
  hashSize := offchainHashSize
  computedFromProvider := row.storageProvider
  computedFromBucket := row.bucket
  computedFromKey := row.objectKey
  metadata := some (buildMetadataJson vhr.metadata)

/-- What `persist_one` announces. -/
def hashEvent (row : MissingHashRow) (vhr : VideoHashResult) :
    FeedEventInput where
  eventKind := .hashUpserted
  videoId := row.videoId
  hashKind := some hashKind
  hashVersion := some hashVersion
  inputMediaVersion := some inputMediaVersion
  payload := buildFeedPayload row vhr.hash (buildMetadataJson vhr.metadata)

/-- The transaction of `persist_one`: `none` when it recorded a failure, else
what the upsert answered. A stored hash clears the video's failures. -/
def persistOneTxn (jobRunId : String) (row : MissingHashRow) :
    Except (String × String) VideoHashResult →
      MediaTxn O (Option UpsertOutcome)
  | .ok vhr => do
      let outcome ← upsertHashRecordTxn (hashInput row vhr)
      appendIfWritten outcome (hashEvent row vhr)
      work (D := mediaIndex O) (.inl (.clear jobKind row.videoId))
      return some outcome
  | .error (phase, err) => do
      work (D := mediaIndex O)
        (.inl (.recordPhash jobRunId row.videoId phase err))
      return none

section Runs

variable {st : (mediaIndex O).Store} {l l' : Loc (mediaIndex O)}
  {jobRunId : String} {row : MissingHashRow} {out : Option UpsertOutcome}

/-- A computed hash: its upsert and the append; the failures it clears are no
table of the feed. -/
theorem persistOneTxn_runs_ok {vhr : VideoHashResult}
    (h : Eval st (persistOneTxn (O := O) jobRunId row (.ok vhr)) l out l') :
    ∃ outcome l₁ u, Eval st (upsertHashRecordTxn (hashInput row vhr)) l outcome l₁ ∧
      Eval st (appendIfWritten outcome (hashEvent row vhr)) l₁ u l' ∧
      out = some outcome := by
  obtain ⟨outcome, l₁, hup, h₁⟩ := eval_bind.mp h
  obtain ⟨u, l₂, happ, h₂⟩ := eval_bind.mp h₁
  obtain ⟨_, l₃, hclear, hret⟩ := eval_bind.mp h₂
  obtain rfl := eval_work hclear
  obtain ⟨rfl, rfl⟩ := eval_ret.mp hret
  exact ⟨outcome, l₁, u, hup, happ, rfl⟩

theorem persistOneTxn_runs_error {failure : String × String}
    (h : Eval st (persistOneTxn (O := O) jobRunId row (.error failure)) l out l') :
    out = none ∧ l' = l := by
  obtain ⟨_, l₁, hrec, hret⟩ := eval_bind.mp h
  obtain rfl := eval_work hrec
  obtain ⟨rfl, rfl⟩ := eval_ret.mp hret
  exact ⟨rfl, rfl⟩

end Runs

theorem disciplined_persistOneTxn {Q : FeedEventRow → Prop} (held : Bool)
    (jobRunId : String) (row : MissingHashRow)
    (res : Except (String × String) VideoHashResult)
    (hQ : ∀ vhr, Q (hashEvent row vhr).toRow) :
    Disciplined (D := mediaIndex O) Q held (persistOneTxn jobRunId row res) := by
  cases res with
  | ok vhr =>
      unfold persistOneTxn
      refine (disciplined_upsertHashRecordTxn held _).bind fun outcome => ?_
      refine (disciplined_appendIfWritten held outcome (hQ vhr)).bind ?_
      intro _
      exact (disciplined_work held _).bind fun _ => trivial
  | error failure =>
      exact (disciplined_work held _).bind fun _ => trivial

end VideoStorage.Jobs.MediaPhash
