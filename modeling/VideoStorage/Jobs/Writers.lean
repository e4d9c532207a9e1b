import VideoStorage.Foundation.Outbox
import VideoStorage.Jobs.Ingest
import VideoStorage.Jobs.MediaImports
import VideoStorage.Jobs.MediaPhash

/-!
# The writers of the media index as one system

Three jobs write master, source and hash rows: `media_phash`, the legacy import
and the completion registration. `MediaWriter` is one transaction of any of
them. A consumer of the feed keeps hashes from `hash_upserted` events and
storage locations from `media_visibility_changed` events; for either kind the
question is whether its copy is the table (`Foundation.Outbox`).
-/

namespace VideoStorage.Jobs

open Foundation MediaIndex
open Relation (ReflTransGen)
open MediaImports (LegacyVideoIndexRow ImportedRow)
open MediaPhash (VideoHashResult)
open Ingest (VideoSource)

variable {O : OtherWork}

/-! ## One transaction of a writer -/

inductive MediaWriter
  | persistOne (jobRunId : String) (row : MissingHashRow)
      (hashResult : Except (String × String) VideoHashResult)
  | importPage (sfwBucket jobRunId : String) (rows : List LegacyVideoIndexRow)
  | registerMaster (videoId : String) (src : VideoSource)

/-- The upserts of a transaction: what they were given and answered. -/
structure Report where
  media : List (ServableVideoInput × UpsertOutcome) := []
  hashes : List (HashRecordInput × UpsertOutcome) := []

/-- The hash upsert of `persist_one`, if it made one. -/
def persistReport (row : MissingHashRow)
    (hashResult : Except (String × String) VideoHashResult)
    (outcome : Option UpsertOutcome) : Report :=
  match hashResult, outcome with
  | .ok vhr, some out => { hashes := [(MediaPhash.hashInput row vhr, out)] }
  | _, _ => {}

def importReport (rows : List ImportedRow) : Report where
  media := rows.flatMap (·.media)
  hashes := rows.flatMap (·.hashes)

def MediaWriter.body : MediaWriter → MediaTxn O Report
  | .persistOne jobRunId row hashResult => do
      let outcome ← MediaPhash.persistOneTxn jobRunId row hashResult
      return persistReport row hashResult outcome
  | .importPage sfwBucket jobRunId rows => do
      let imported ← MediaImports.importPageTxn sfwBucket jobRunId rows
      return importReport imported
  | .registerMaster videoId src => do
      let outcome ← Ingest.registerMasterTxn videoId src
      return { media := [(Ingest.masterInput videoId src, outcome.media)] }

/-- The bodies the database ever runs. -/
def IsWriter (p : MediaTxn O Report) : Prop :=
  ∃ w : MediaWriter, p = w.body

/-! ## What a consumer reads -/

/-- A consumer of hashes: the key from the columns, the value from the
payload. -/
def readHash (e : FeedEventRow) : Option (HashKey × String) :=
  if e.eventKind = FeedEventKind.hashUpserted.asStr then
    match e.hashKind, e.hashVersion, e.inputMediaVersion,
        (e.payload.get? "hash_value").bind Json.asStr with
    | some kind, some version, some mediaVersion, some value =>
        some (⟨e.videoId, kind, version, mediaVersion⟩, value)
    | _, _, _, _ => none
  else none

/-- The storage columns of a master row. -/
structure StorageFields where
  provider : Option String
  bucket : Option String
  objectKey : Option String
  deriving DecidableEq

def optStrField (payload : Json) (field : String) : Option String :=
  (payload.get? field).bind Json.asStr

/-- A consumer of storage locations: all three fields from the payload. -/
def readVisibility (e : FeedEventRow) : Option (String × StorageFields) :=
  if e.eventKind = FeedEventKind.mediaVisibilityChanged.asStr then
    some (e.videoId, {
      provider := optStrField e.payload "storage_provider"
      bucket := optStrField e.payload "bucket"
      objectKey := optStrField e.payload "object_key" })
  else none

theorem readHash_persist (row : MissingHashRow) (vhr : VideoHashResult) :
    readHash (MediaPhash.hashEvent row vhr).toRow
      = some ((MediaPhash.hashInput row vhr).key, vhr.hash) := by
  have hkind : (MediaPhash.hashEvent row vhr).toRow.eventKind
      = FeedEventKind.hashUpserted.asStr := rfl
  unfold readHash
  rw [if_pos hkind]
  simp only [FeedEventInput.toRow, MediaPhash.hashEvent,
    MediaPhash.buildFeedPayload]
  rw [Json.get?_object (by simp)]
  rfl

theorem readHash_import (sfwBucket : String) (row : LegacyVideoIndexRow)
    (phash kind version : String) :
    readHash (MediaImports.hashEvent row phash kind version).toRow
      = some ((MediaImports.hashInput sfwBucket row phash kind version).key,
          phash) := by
  have hkind : (MediaImports.hashEvent row phash kind version).toRow.eventKind
      = FeedEventKind.hashUpserted.asStr := rfl
  unfold readHash
  rw [if_pos hkind]
  simp only [FeedEventInput.toRow, MediaImports.hashEvent]
  rw [Json.get?_object (by simp)]
  rfl

theorem media_not_hash (row : LegacyVideoIndexRow)
    (storage : MediaImports.StorageRef) :
    (MediaImports.mediaEvent row storage).toRow.eventKind
      ≠ FeedEventKind.hashUpserted.asStr := by
  show FeedEventKind.mediaVisibilityChanged.asStr ≠ _
  decide

theorem readHash_media (row : LegacyVideoIndexRow)
    (storage : MediaImports.StorageRef) :
    readHash (MediaImports.mediaEvent row storage).toRow = none := by
  unfold readHash
  rw [if_neg (media_not_hash row storage)]

theorem readVisibility_media (row : LegacyVideoIndexRow)
    (storage : MediaImports.StorageRef) :
    readVisibility (MediaImports.mediaEvent row storage).toRow
      = some (row.videoId,
          ⟨some storage.provider, storage.bucket, some storage.objectKey⟩) := by
  have hkind : (MediaImports.mediaEvent row storage).toRow.eventKind
      = FeedEventKind.mediaVisibilityChanged.asStr := rfl
  unfold readVisibility
  rw [if_pos hkind]
  simp only [optStrField, FeedEventInput.toRow, MediaImports.mediaEvent,
    MediaImports.mediaFeedPayload]
  rw [Json.get?_object (by simp), Json.get?_object (by simp),
    Json.get?_object (by simp)]
  cases storage.bucket <;> rfl

theorem readVisibility_hash {e : FeedEventRow}
    (h : e.eventKind = FeedEventKind.hashUpserted.asStr) :
    readVisibility e = none := by
  have hne : e.eventKind ≠ FeedEventKind.mediaVisibilityChanged.asStr := by
    rw [h]
    decide
  unfold readVisibility
  rw [if_neg hne]

/-- An event the consumer does not read, or none at all, after a stretch that
leaves the table alone. -/
theorem tracked_other {K V : Type} [DecidableEq K]
    {read : FeedEventRow → Option (K × V)} {table : Tables → K → Option V}
    {st : (mediaIndex O).Store} {l l₁ l₂ : Loc (mediaIndex O)}
    {out : UpsertOutcome} {event : FeedEventInput} {u : Unit}
    (hpend : l₁.pend = l.pend) (htable : table (l₁.view st) = table (l.view st))
    (happ : Eval st (appendIfWritten out event) l₁ u l₂)
    (hread : read event.toRow = none) :
    Tracked (D := mediaIndex O) read table st l l₂ [] := by
  rcases eval_appendIfWritten happ with ⟨-, rfl⟩ | ⟨-, hview, n, hpend₂⟩
  · exact Tracked.of_same hpend htable
  · refine Tracked.of_other (hpend₂.trans (by rw [hpend])) hread ?_
    rw [hview]
    exact htable

/-- An upsert of the row behind `k`, with its append: the event tells the value
the row has now. -/
theorem tracked_upsert {K V : Type} [DecidableEq K]
    {read : FeedEventRow → Option (K × V)} {table : Tables → K → Option V}
    {st : (mediaIndex O).Store} {l l₁ l₂ : Loc (mediaIndex O)}
    {out : UpsertOutcome} {event : FeedEventInput} {u : Unit} {k : K} {v : V}
    (hpend : l₁.pend = l.pend)
    (hother : ∀ k', k' ≠ k → table (l₁.view st) k' = table (l.view st) k')
    (hkept : out.isWrite = false → table (l₁.view st) k = table (l.view st) k)
    (hwritten : out.isWrite = true → table (l₁.view st) k = some v)
    (happ : Eval st (appendIfWritten out event) l₁ u l₂)
    (hread : read event.toRow = some (k, v)) :
    Tracked (D := mediaIndex O) read table st l l₂
      (if out.isWrite then [(k, v)] else []) := by
  rcases eval_appendIfWritten happ with ⟨hw, rfl⟩ | ⟨hw, hview, n, hpend₂⟩
  · rw [hw]
    refine Tracked.of_same hpend ?_
    funext k'
    by_cases hk : k' = k
    · rw [hk]
      exact hkept hw
    · exact hother k' hk
  · rw [if_pos hw]
    refine Tracked.of_write (hpend₂.trans (by rw [hpend])) hread ?_
    rw [hview]
    exact Function.eq_update_iff.mpr ⟨hwritten hw, hother⟩

/-- An event a consumer can use: of a known kind, and readable if it is a
hash. -/
def Readable (e : FeedEventRow) : Prop :=
  KnownKind e ∧ (e.eventKind = FeedEventKind.hashUpserted.asStr →
    (readHash e).isSome)

theorem IsWriter.disciplined {p : MediaTxn O Report} (h : IsWriter p) :
    Disciplined (D := mediaIndex O) Readable false p := by
  obtain ⟨w, rfl⟩ := h
  cases w with
  | persistOne jobRunId row res =>
      have hhash : ∀ vhr, Readable (MediaPhash.hashEvent row vhr).toRow := by
        intro vhr
        refine ⟨knownKind_toRow _, fun _ => ?_⟩
        rw [readHash_persist]
        rfl
      exact (MediaPhash.disciplined_persistOneTxn false jobRunId row res
        hhash).bind fun _ => trivial
  | importPage sfwBucket jobRunId rows =>
      have hmedia : ∀ row storage,
          Readable (MediaImports.mediaEvent row storage).toRow := by
        intro row storage
        exact ⟨knownKind_toRow _,
          fun hkind => absurd hkind (media_not_hash row storage)⟩
      have hhash : ∀ row phash kind version,
          Readable (MediaImports.hashEvent row phash kind version).toRow := by
        intro row phash kind version
        refine ⟨knownKind_toRow _, fun _ => ?_⟩
        rw [readHash_import sfwBucket]
        rfl
      exact (MediaImports.disciplined_importPageTxn hmedia hhash sfwBucket
        jobRunId rows).bind fun _ => trivial
  | registerMaster videoId src =>
      exact (disciplined_upsertServableVideoTxn false _).bind fun _ => trivial

end VideoStorage.Jobs
