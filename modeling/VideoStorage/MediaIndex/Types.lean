import Mathlib.Data.List.AList
import VideoStorage.Foundation.Json
import VideoStorage.Foundation.Transaction

/-!
# The media index: rows, inputs and tables

The three tables the feed reports on, with the columns their writers compare or
write (the `*_seen_at`, `updated_at`, `imported_at` and `computed_at` stamps are
read by nothing here and left out), the inputs of their writers, and the tables
as a `Schema`: keys, rows, the foreign keys to the master table, and the
statements about `media_job_failures`, which are neither rows nor feed.
-/

namespace VideoStorage.MediaIndex

open Foundation

/-! ## Feed events -/

inductive FeedEventKind
  | hashUpserted
  | mediaVisibilityChanged
  | storageLocationChanged
  | mediaDeleted
  deriving DecidableEq, Repr, Inhabited

namespace FeedEventKind

def asStr : FeedEventKind → String
  | hashUpserted => "hash_upserted"
  | mediaVisibilityChanged => "media_visibility_changed"
  | storageLocationChanged => "storage_location_changed"
  | mediaDeleted => "media_deleted"

def fromStr (value : String) : Except String FeedEventKind :=
  if value = "hash_upserted" then .ok hashUpserted
  else if value = "media_visibility_changed" then .ok mediaVisibilityChanged
  else if value = "storage_location_changed" then .ok storageLocationChanged
  else if value = "media_deleted" then .ok mediaDeleted
  else .error value

/-- A kind read back from its column is the kind that was written. -/
@[simp] theorem fromStr_asStr (kind : FeedEventKind) :
    fromStr kind.asStr = .ok kind := by
  cases kind <;> decide

end FeedEventKind

structure FeedEventInput where
  eventKind : FeedEventKind
  videoId : String
  hashKind : Option String
  hashVersion : Option String
  inputMediaVersion : Option String
  payload : Json
  deriving DecidableEq, Inhabited

/-- A row of `media_feed_events` beside its cursor: the kind is text there. -/
structure FeedEventRow where
  eventKind : String
  videoId : String
  hashKind : Option String
  hashVersion : Option String
  inputMediaVersion : Option String
  payload : Json
  deriving DecidableEq

structure FeedEvent where
  cursor : ℤ
  eventKind : FeedEventKind
  videoId : String
  hashKind : Option String
  hashVersion : Option String
  inputMediaVersion : Option String
  payload : Json
  deriving DecidableEq

/-! ## Upserts -/

/-- `len() as i32`. -/
def lenAsI32 (s : String) : ℤ := Int.bmod s.utf8ByteSize (2 ^ 32)

inductive UpsertOutcome
  | inserted | changed | unchanged
  deriving DecidableEq, Repr

/-- `matches!(outcome, Inserted | Changed)`. -/
def UpsertOutcome.isWrite : UpsertOutcome → Bool
  | inserted | changed => true
  | unchanged => false

structure ServableVideoUpsertOutcome where
  media : UpsertOutcome
  sourceInserted : Bool
  deriving DecidableEq, Repr

structure ServableVideoInput where
  videoId : String
  publisherUserId : Option String
  postId : Option String
  sourceKind : String
  sourceRef : Option String
  servableStatus : String
  nsfwState : Option String
  storageProvider : Option String
  bucket : Option String
  objectKey : Option String
  canonicalUrl : Option String
  thumbnailKey : Option String
  durationMs : Option ℤ
  width : Option ℤ
  height : Option ℤ
  fps : Option F64
  container : Option String
  videoCodec : Option String
  audioCodec : Option String
  moovAtomFront : Option Bool
  canonicalEncodingVersion : Option String
  discoveredFrom : String
  deriving DecidableEq

/-- A row of `all_servable_videos_on_yral` beside its `video_id`. -/
structure ServableVideo where
  publisherUserId : Option String
  postId : Option String
  sourceKind : String
  sourceRef : Option String
  servableStatus : String
  nsfwState : Option String
  storageProvider : Option String
  bucket : Option String
  objectKey : Option String
  canonicalUrl : Option String
  thumbnailKey : Option String
  durationMs : Option ℤ
  width : Option ℤ
  height : Option ℤ
  fps : Option F64
  container : Option String
  videoCodec : Option String
  audioCodec : Option String
  moovAtomFront : Option Bool
  canonicalEncodingVersion : Option String
  discoveredFrom : String
  deriving DecidableEq, Inhabited

structure HashRecordInput where
  videoId : String
  hashKind : String
  hashVersion : String
  inputMediaVersion : String
  hashValue : String
  hashBitLength : ℤ
  numFrames : ℤ
  hashSize : ℤ
  computedFromProvider : Option String
  computedFromBucket : Option String
  computedFromKey : Option String
  metadata : Option Json
  deriving DecidableEq

/-- A row of `servable_video_hashes` beside its key. -/
structure HashRecord where
  hashValue : String
  hashBitLength : ℤ
  numFrames : ℤ
  hashSize : ℤ
  computedFromProvider : Option String
  computedFromBucket : Option String
  computedFromKey : Option String
  metadata : Option Json
  deriving DecidableEq

/-! ## Tables -/

structure SourceKey where
  videoId : String
  sourceKind : String
  sourceRef : String
  deriving DecidableEq

structure HashKey where
  videoId : String
  hashKind : String
  hashVersion : String
  inputMediaVersion : String
  deriving DecidableEq

/-- `servable_video_sources` beside its key. -/
structure SourceRow where
  rawPayload : Option Json
  deriving DecidableEq

inductive TableKey
  | video (videoId : String)
  | source (key : SourceKey)
  | hash (key : HashKey)
  deriving DecidableEq

@[reducible] def TableKey.Row : TableKey → Type
  | .video _ => ServableVideo
  | .source _ => SourceRow
  | .hash _ => HashRecord

/-- The three tables, each with at most one row a key. -/
structure Tables where
  videos : AList (fun _ : String => ServableVideo) := ∅
  sources : AList (fun _ : SourceKey => SourceRow) := ∅
  hashes : AList (fun _ : HashKey => HashRecord) := ∅

namespace Tables

def get (t : Tables) : (k : TableKey) → Option k.Row
  | .video id => t.videos.lookup id
  | .source key => t.sources.lookup key
  | .hash key => t.hashes.lookup key

def set (t : Tables) : (k : TableKey) → k.Row → Tables
  | .video id, row => { t with videos := t.videos.insert id row }
  | .source key, row => { t with sources := t.sources.insert key row }
  | .hash key, row => { t with hashes := t.hashes.insert key row }

theorem get_set_self (t : Tables) (k : TableKey) (row : k.Row) :
    (t.set k row).get k = some row := by
  cases k with
  | video id => exact AList.lookup_insert _
  | source key => exact AList.lookup_insert _
  | hash key => exact AList.lookup_insert _

theorem get_set_ne (t : Tables) (k : TableKey) (row : k.Row) (k' : TableKey)
    (h : k' ≠ k) : (t.set k row).get k' = t.get k' := by
  cases k <;> cases k' <;> try rfl
  all_goals
    refine AList.lookup_insert_ne fun e => h ?_
    rw [e]

end Tables

/-! ## The schema -/

/-- Statements on tables the media index does not describe. -/
structure OtherWork where
  Stmt : Type
  Answer : Stmt → Type

/-- No other statements. -/
def OtherWork.none : OtherWork := ⟨Empty, Empty.elim⟩

/-- The statements about `media_job_failures` inside a transaction. -/
inductive FailureStmt
  /-- `media_phash::record_row_failure_txn`. -/
  | recordPhash (jobRunId videoId phase error : String)
  /-- `media_imports::record_row_failure_txn`. -/
  | recordImport (jobRunId videoId phase error : String)
  /-- `DELETE … WHERE job_kind = $1 AND video_id = $2`. -/
  | clear (jobKind videoId : String)
  deriving DecidableEq

@[reducible] def mediaIndex (O : OtherWork) : Schema where
  Key := TableKey
  Row := TableKey.Row
  Event := FeedEventRow
  Work := FailureStmt ⊕ O.Stmt
  Answer := Sum.elim (fun _ => Unit) O.Answer
  Store := Tables
  get := Tables.get
  set := Tables.set
  get_set_self := Tables.get_set_self
  get_set_ne := Tables.get_set_ne
  parents
    | .video _ => []
    | .source key => [.video key.videoId]
    | .hash key => [.video key.videoId]
  eventParents e := [.video e.videoId]

/-- Every statement outside the tables and the feed succeeds. -/
def idleWork (w : (mediaIndex .none).Work) (_ : Unit) :
    Except Fault ((mediaIndex .none).Answer w × Unit) :=
  match w with
  | .inl _ => .ok ((), ())

/-- The one answer such a statement has. -/
def idleOracle : Oracle (mediaIndex .none)
  | .inl _ => ()

/-- A transaction on the media index. -/
abbrev MediaTxn (O : OtherWork) (α : Type) : Type := Txn (mediaIndex O) α

end VideoStorage.MediaIndex
