import VideoStorage.MediaIndex.Feed

/-!
# The legacy import: one row

`import_one_row_txn`: the master row, its source row and, when the legacy row
has one, its hash, each with its feed event. A page is imported in one
transaction; only when that fails are its rows imported one by one.
-/

namespace VideoStorage.Jobs.MediaImports

open Foundation MediaIndex

variable {O : OtherWork}

def jobKind : String := "legacy_video_index_import"

def sourceKind : String := "legacy_video_index"

def inputMediaVersion : String := "legacy_video_index_object_v1"

structure LegacyVideoIndexRow where
  videoId : String
  storjKey : Option String
  hetznerKey : Option String
  phash : Option String
  phashKind : Option String
  phashVersion : Option String
  deriving DecidableEq

structure StorageRef where
  provider : String
  bucket : Option String
  objectKey : String
  deriving DecidableEq

structure RowCounts where
  importedMediaRows : ℤ := 0
  hashRowsUpserted : ℤ := 0
  hashFeedEventsAppended : ℤ := 0
  rowFailures : ℤ := 0
  deriving DecidableEq

/-- The configured bucket of safe videos, which the job reads from its
environment, is an argument here and below. -/
def canonicalStorage (sfwBucket : String) (row : LegacyVideoIndexRow) :
    Option StorageRef :=
  match row.storjKey with
  | some storjKey => some ⟨"storj", some sfwBucket, storjKey⟩
  | none => row.hetznerKey.map fun hetznerKey => ⟨"hetzner", none, hetznerKey⟩

def hashProvenance (sfwBucket : String) (row : LegacyVideoIndexRow) :
    Option StorageRef :=
  match row.hetznerKey with
  | some hetznerKey => some ⟨"hetzner", none, hetznerKey⟩
  | none => row.storjKey.map fun storjKey => ⟨"storj", some sfwBucket, storjKey⟩

def rawPayload (row : LegacyVideoIndexRow) : Json :=
  .object [
    ("video_id", .str row.videoId),
    ("storj_key", .ofOptStr row.storjKey),
    ("hetzner_key", .ofOptStr row.hetznerKey),
    ("phash", .ofOptStr row.phash),
    ("phash_kind", .ofOptStr row.phashKind),
    ("phash_version", .ofOptStr row.phashVersion)]

def mediaFeedPayload (row : LegacyVideoIndexRow) (storage : StorageRef) : Json :=
  .object [
    ("video_id", .str row.videoId),
    ("source_kind", .str sourceKind),
    ("source_ref", .str row.videoId),
    ("servable_status", .str "servable"),
    ("storage_provider", .str storage.provider),
    ("bucket", .ofOptStr storage.bucket),
    ("object_key", .str storage.objectKey)]

/-- What `import_media_row_txn` upserts. -/
def mediaInput (row : LegacyVideoIndexRow) (storage : StorageRef) :
    ServableVideoInput where
  videoId := row.videoId
  publisherUserId := none
  postId := none
  sourceKind := sourceKind
  sourceRef := some row.videoId
  servableStatus := "servable"
  nsfwState := none
  storageProvider := some storage.provider
  bucket := storage.bucket
  objectKey := some storage.objectKey
  canonicalUrl := none
  thumbnailKey := none
  durationMs := none
  width := none
  height := none
  fps := none
  container := none
  videoCodec := none
  audioCodec := none
  moovAtomFront := none
  canonicalEncodingVersion := none
  discoveredFrom := jobKind

def mediaEvent (row : LegacyVideoIndexRow) (storage : StorageRef) :
    FeedEventInput where
  eventKind := .mediaVisibilityChanged
  videoId := row.videoId
  hashKind := none
  hashVersion := none
  inputMediaVersion := none
  payload := mediaFeedPayload row storage

def importMediaRowTxn (row : LegacyVideoIndexRow) (storage : StorageRef) :
    MediaTxn O ServableVideoUpsertOutcome := do
  let outcome ← upsertServableVideoTxn (mediaInput row storage)
  update (D := mediaIndex O) (.source ⟨row.videoId, sourceKind, row.videoId⟩)
    fun _ => ⟨some (rawPayload row)⟩
  return outcome

/-- What the import upserts for a legacy hash. -/
def hashInput (sfwBucket : String) (row : LegacyVideoIndexRow)
    (phash phashKind phashVersion : String) : HashRecordInput where
  videoId := row.videoId
  hashKind := phashKind
  hashVersion := phashVersion
  inputMediaVersion := inputMediaVersion
  hashValue := phash
  hashBitLength := lenAsI32 phash
  numFrames := 0
  hashSize := 0
  computedFromProvider := (hashProvenance sfwBucket row).map (·.provider)
  computedFromBucket := (hashProvenance sfwBucket row).bind (·.bucket)
  computedFromKey := (hashProvenance sfwBucket row).map (·.objectKey)
  metadata := some (.object [("source", .str sourceKind)])

def hashEvent (row : LegacyVideoIndexRow)
    (phash phashKind phashVersion : String) : FeedEventInput where
  eventKind := .hashUpserted
  videoId := row.videoId
  hashKind := some phashKind
  hashVersion := some phashVersion
  inputMediaVersion := some inputMediaVersion
  payload := .object [
    ("video_id", .str row.videoId),
    ("hash_kind", .str phashKind),
    ("hash_version", .str phashVersion),
    ("input_media_version", .str inputMediaVersion),
    ("hash_value", .str phash),
    ("source", .str sourceKind)]

/-- The counts the source returns for a row, and beside them what the upserts
it branches on were given and answered. -/
structure ImportedRow where
  counts : RowCounts := {}
  media : List (ServableVideoInput × UpsertOutcome) := []
  hashes : List (HashRecordInput × UpsertOutcome) := []

/-- The second half of `import_one_row_txn`: a legacy row's hash, if complete. -/
def importHashTxn (sfwBucket : String) (row : LegacyVideoIndexRow) :
    MediaTxn O (List (HashRecordInput × UpsertOutcome)) :=
  match row.phash, row.phashKind, row.phashVersion with
  | some phash, some phashKind, some phashVersion => do
      let input := hashInput sfwBucket row phash phashKind phashVersion
      let outcome ← upsertHashRecordTxn input
      appendIfWritten outcome (hashEvent row phash phashKind phashVersion)
      return [(input, outcome)]
  | _, _, _ => return []

/-- How many of the upserts wrote, which is what the counters count. -/
def countWrites {α : Type} (outs : List (α × UpsertOutcome)) : ℤ :=
  (outs.filter (·.2.isWrite)).length

def importOneRowTxn (sfwBucket : String) (row : LegacyVideoIndexRow)
    (jobRunId : String) : MediaTxn O ImportedRow :=
  match canonicalStorage sfwBucket row with
  | none => do
      work (D := mediaIndex O) (.inl (.recordImport jobRunId row.videoId
        "storage_selection"
        "legacy video_index row has neither storj_key nor hetzner_key"))
      return { counts := { rowFailures := 1 } }
  | some storage => do
      let mediaOutcome ← importMediaRowTxn row storage
      appendIfWritten mediaOutcome.media (mediaEvent row storage)
      let media := [(mediaInput row storage, mediaOutcome.media)]
      let hashes ← importHashTxn sfwBucket row
      return {
        counts := {
          importedMediaRows := countWrites media
          hashRowsUpserted := countWrites hashes
          hashFeedEventsAppended := countWrites hashes }
        media := media
        hashes := hashes }

/-- The rows of a page, one after the other in one transaction. -/
def importPageTxn (sfwBucket jobRunId : String) :
    List LegacyVideoIndexRow → MediaTxn O (List ImportedRow)
  | [] => return []
  | row :: rows => do
      let imported ← importOneRowTxn sfwBucket row jobRunId
      let rest ← importPageTxn sfwBucket jobRunId rows
      return imported :: rest

/-- The source row's payload is no material column: the master row is what the
upsert made of it. -/
theorem eval_importMediaRowTxn {st : (mediaIndex O).Store}
    {l l' : Loc (mediaIndex O)} {row : LegacyVideoIndexRow}
    {storage : StorageRef} {out : ServableVideoUpsertOutcome}
    (h : Eval st (importMediaRowTxn (O := O) row storage) l out l') :
    l.Only (VideoRows row.videoId) st l' ∧
      out.media.Explains (mediaInput row storage).toRow
        (mediaInput row storage).updateRow
        (servableVideoMaterialMatches · (mediaInput row storage))
        ((mediaIndex O).get (l.view st) (TableKey.video row.videoId))
        ((mediaIndex O).get (l'.view st) (TableKey.video row.videoId)) := by
  unfold importMediaRowTxn at h
  simp only [Prog.bind_eq, Prog.pure_eq] at h
  obtain ⟨out', l₁, hup, hrest⟩ := eval_bind.mp h
  obtain ⟨_, l₂, hsrc, hret⟩ := eval_bind.mp hrest
  obtain ⟨rfl, rfl⟩ := eval_ret.mp hret
  obtain ⟨honly, hex⟩ := eval_upsertServableVideoTxn hup
  obtain ⟨srow, -, rfl⟩ := eval_update hsrc
  refine ⟨honly.trans (l₁.only_write _ (.inr ⟨_, rfl⟩)), ?_⟩
  rw [Loc.get_view_write_ne]
  · exact hex
  · rintro ⟨⟩

section Runs

variable {st : (mediaIndex O).Store} {l l' : Loc (mediaIndex O)}
  {sfwBucket jobRunId : String} {row : LegacyVideoIndexRow}
  {rows : List LegacyVideoIndexRow}

theorem importHashTxn_runs {hashes : List (HashRecordInput × UpsertOutcome)}
    (h : Eval st (importHashTxn (O := O) sfwBucket row) l hashes l') :
    (hashes = [] ∧ l' = l) ∨ ∃ phash kind version outcome l₁ u,
      Eval st (upsertHashRecordTxn (hashInput sfwBucket row phash kind version))
        l outcome l₁ ∧
      Eval st (appendIfWritten outcome (hashEvent row phash kind version))
        l₁ u l' ∧
      hashes = [(hashInput sfwBucket row phash kind version, outcome)] := by
  unfold importHashTxn at h
  split at h
  · rename_i phash kind version _ _ _
    obtain ⟨outcome, l₁, hup, h₁⟩ := eval_bind.mp h
    obtain ⟨u, l₂, happ, hret⟩ := eval_bind.mp h₁
    obtain ⟨rfl, rfl⟩ := eval_ret.mp hret
    exact .inr ⟨phash, kind, version, outcome, l₁, u, hup, happ, rfl⟩
  · obtain ⟨rfl, rfl⟩ := eval_ret.mp h
    exact .inl ⟨rfl, rfl⟩

/-- A row without a key is a failure; one with a key is a master row with its
append, and then its hash. -/
theorem importOneRowTxn_runs {imported : ImportedRow}
    (h : Eval st (importOneRowTxn (O := O) sfwBucket row jobRunId) l imported l') :
    (canonicalStorage sfwBucket row = none ∧ imported.media = [] ∧
      imported.hashes = [] ∧ l' = l) ∨
    ∃ storage out l₁ u l₂, canonicalStorage sfwBucket row = some storage ∧
      Eval st (importMediaRowTxn row storage) l out l₁ ∧
      Eval st (appendIfWritten out.media (mediaEvent row storage)) l₁ u l₂ ∧
      Eval st (importHashTxn sfwBucket row) l₂ imported.hashes l' ∧
      imported.media = [(mediaInput row storage, out.media)] := by
  unfold importOneRowTxn at h
  cases hstorage : canonicalStorage sfwBucket row with
  | none =>
      simp only [hstorage] at h
      obtain ⟨_, l₁, hrec, hret⟩ := eval_bind.mp h
      obtain rfl := eval_work hrec
      obtain ⟨rfl, rfl⟩ := eval_ret.mp hret
      exact .inl ⟨rfl, rfl, rfl, rfl⟩
  | some storage =>
      simp only [hstorage] at h
      obtain ⟨out, l₁, hmedia, h₁⟩ := eval_bind.mp h
      obtain ⟨u, l₂, happ, h₂⟩ := eval_bind.mp h₁
      obtain ⟨hashes, l₃, hhash, hret⟩ := eval_bind.mp h₂
      obtain ⟨rfl, rfl⟩ := eval_ret.mp hret
      exact .inr ⟨storage, out, l₁, u, l₂, rfl, hmedia, happ, hhash, rfl⟩

theorem importPageTxn_runs_cons {imported : List ImportedRow}
    (h : Eval st (importPageTxn (O := O) sfwBucket jobRunId (row :: rows)) l
      imported l') :
    ∃ first l₁ rest,
      Eval st (importOneRowTxn sfwBucket row jobRunId) l first l₁ ∧
      Eval st (importPageTxn sfwBucket jobRunId rows) l₁ rest l' ∧
      imported = first :: rest := by
  unfold importPageTxn at h
  obtain ⟨first, l₁, hone, h₁⟩ := eval_bind.mp h
  obtain ⟨rest, l₂, hpage, hret⟩ := eval_bind.mp h₁
  obtain ⟨rfl, rfl⟩ := eval_ret.mp hret
  exact ⟨first, l₁, rest, hone, hpage, rfl⟩

end Runs

section Discipline

variable {Q : FeedEventRow → Prop} {held : Bool}
  (hmedia : ∀ row storage, Q (mediaEvent row storage).toRow)
  (hhash : ∀ row phash phashKind phashVersion,
    Q (hashEvent row phash phashKind phashVersion).toRow)

include hhash in
theorem disciplined_importHashTxn (sfwBucket : String)
    (row : LegacyVideoIndexRow) :
    Disciplined (D := mediaIndex O) Q held (importHashTxn sfwBucket row) := by
  unfold importHashTxn
  split
  · refine (disciplined_upsertHashRecordTxn held _).bind fun outcome => ?_
    exact (disciplined_appendIfWritten held outcome (hhash row _ _ _)).bind
      fun _ => trivial
  · trivial

include hmedia hhash

theorem disciplined_importOneRowTxn (sfwBucket jobRunId : String)
    (row : LegacyVideoIndexRow) :
    Disciplined (D := mediaIndex O) Q held
      (importOneRowTxn sfwBucket row jobRunId) := by
  unfold importOneRowTxn
  split
  · exact (disciplined_work held _).bind fun _ => trivial
  · refine Disciplined.bind ?_ fun outcome => ?_
    · unfold importMediaRowTxn
      refine (disciplined_upsertServableVideoTxn held _).bind fun _ => ?_
      exact (disciplined_update held _ _).bind fun _ => trivial
    · refine (disciplined_appendIfWritten held _ (hmedia row _)).bind ?_
      intro _
      exact (disciplined_importHashTxn hhash sfwBucket row).bind
        fun _ => trivial

theorem disciplined_importPageTxn (sfwBucket jobRunId : String)
    (rows : List LegacyVideoIndexRow) :
    Disciplined (D := mediaIndex O) Q held
      (importPageTxn sfwBucket jobRunId rows) := by
  induction rows with
  | nil => trivial
  | cons row rows ih =>
      unfold importPageTxn
      refine (disciplined_importOneRowTxn hmedia hhash sfwBucket jobRunId
        row).bind ?_
      intro _
      exact ih.bind fun _ => trivial

end Discipline

/-! ## An import looks at no cursor -/

section Numbers

variable (sfwBucket jobRunId : String) (row : LegacyVideoIndexRow)

theorem numberless_importHashTxn :
    Numberless (importHashTxn (O := O) sfwBucket row) := by
  unfold importHashTxn
  split
  · refine (numberless_upsertHashRecordTxn _).bind fun outcome => ?_
    exact (numberless_appendIfWritten outcome _).bind fun _ => trivial
  · trivial

theorem numberless_importOneRowTxn :
    Numberless (importOneRowTxn (O := O) sfwBucket row jobRunId) := by
  unfold importOneRowTxn
  split
  · exact fun _ => trivial
  · refine Numberless.bind ?_ fun outcome => ?_
    · unfold importMediaRowTxn
      exact (numberless_upsertServableVideoTxn _).bind fun _ => trivial
    · refine (numberless_appendIfWritten _ _).bind fun _ => ?_
      exact (numberless_importHashTxn sfwBucket row).bind fun _ => trivial

theorem numberless_importPageTxn (rows : List LegacyVideoIndexRow) :
    Numberless (importPageTxn (O := O) sfwBucket jobRunId rows) := by
  induction rows with
  | nil => trivial
  | cons row rows ih =>
      unfold importPageTxn
      refine (numberless_importOneRowTxn sfwBucket jobRunId row).bind fun _ => ?_
      exact ih.bind fun _ => trivial

end Numbers

end VideoStorage.Jobs.MediaImports
