import VideoStorage.Jobs.Writers

/-!
# The visibility outbox

A consumer of `media_visibility_changed` events wants the storage location of
every master row. The importer announces what it writes; the completion
registration writes the same table and announces nothing, and an import without
a bucket leaves the old bucket in a row while its event says there is none. As
long as neither happens (`MediaWriter.Announces`) the replay is the table
(`visibility_outbox`).
-/

namespace VideoStorage.Jobs

open Foundation MediaIndex
open Relation (ReflTransGen)
open MediaImports (LegacyVideoIndexRow ImportedRow StorageRef canonicalStorage
  mediaInput mediaEvent)

variable {O : OtherWork}

/-- The storage columns of a master row. -/
def storageFields (row : ServableVideo) : StorageFields where
  provider := row.storageProvider
  bucket := row.bucket
  objectKey := row.objectKey

def videoTable (t : Tables) (videoId : String) : Option StorageFields :=
  (t.videos.lookup videoId).map storageFields

/-- The upserts that wrote, with the location they were given. -/
def writtenMedia (media : List (ServableVideoInput × UpsertOutcome)) :
    List (String × StorageFields) :=
  (media.filter (·.2.isWrite)).map fun u =>
    (u.1.videoId, ⟨u.1.storageProvider, u.1.bucket, u.1.objectKey⟩)

theorem writtenMedia_append
    (xs ys : List (ServableVideoInput × UpsertOutcome)) :
    writtenMedia (xs ++ ys) = writtenMedia xs ++ writtenMedia ys := by
  unfold writtenMedia
  rw [List.filter_append, List.map_append]

variable {st : (mediaIndex O).Store} {l l' l₁ l₂ : Loc (mediaIndex O)}

/-- Between `l` and `l'` the visibility outbox is kept. -/
abbrev VideoTracked (st : (mediaIndex O).Store) (l l' : Loc (mediaIndex O))
    (media : List (ServableVideoInput × UpsertOutcome)) : Prop :=
  Tracked (D := mediaIndex O) readVisibility videoTable st l l'
    (writtenMedia media)

theorem VideoTracked.trans {xs ys : List (ServableVideoInput × UpsertOutcome)}
    (h₁ : VideoTracked st l l₁ xs) (h₂ : VideoTracked st l₁ l₂ ys) :
    VideoTracked st l l₂ (xs ++ ys) := by
  unfold VideoTracked
  rw [writtenMedia_append]
  exact Tracked.trans h₁ h₂

/-- The two views have the same master row. -/
abbrev SameVideo (st : (mediaIndex O).Store) (l l' : Loc (mediaIndex O))
    (videoId : String) : Prop :=
  (mediaIndex O).get (l'.view st) (TableKey.video videoId)
    = (mediaIndex O).get (l.view st) (TableKey.video videoId)

theorem videoTable_of_same (h : ∀ videoId, SameVideo st l l' videoId) :
    videoTable (l'.view st) = videoTable (l.view st) := by
  funext videoId
  exact congrArg (Option.map storageFields) (h videoId)

theorem sameVideo_of_only {videoId videoId' : String}
    (h : l.Only (VideoRows videoId) st l') (hne : videoId' ≠ videoId) :
    SameVideo st l l' videoId' := by
  refine h.rows (TableKey.video videoId') ?_
  rintro (e | ⟨_, ⟨⟩⟩)
  exact hne (TableKey.video.inj e)

/-! ## The importer -/

/-- The row's location fits what is stored: it has a bucket, or the row to be
changed has none either. -/
def BucketFits (t : Tables) (row : LegacyVideoIndexRow) (storage : StorageRef) :
    Prop :=
  storage.bucket = none → ∀ video, t.videos.lookup row.videoId = some video →
    video.bucket = none ∨
      servableVideoMaterialMatches video (mediaInput row storage)

/-- Under `BucketFits` an import that writes leaves the location it was given:
`COALESCE` keeps no bucket that the row has and the input lacks. -/
theorem importMedia_location {row : LegacyVideoIndexRow} {storage : StorageRef}
    {out : ServableVideoUpsertOutcome}
    (hmedia : Eval st (MediaImports.importMediaRowTxn (O := O) row storage)
      l out l₁) (hfits : BucketFits (l.view st) row storage)
    (hw : out.media.isWrite = true) :
    videoTable (l₁.view st) row.videoId
      = some ⟨some storage.provider, storage.bucket, some storage.objectKey⟩ := by
  obtain ⟨-, hex⟩ := MediaImports.eval_importMediaRowTxn hmedia
  cases hout : out.media with
  | inserted =>
      rw [hout] at hex
      exact congrArg (Option.map storageFields) hex.2
  | changed =>
      rw [hout] at hex
      obtain ⟨video, hbefore, hm, hafter⟩ := hex
      have hbucket : storage.bucket.or video.bucket = storage.bucket := by
        cases hb : storage.bucket with
        | some b => rfl
        | none =>
            rcases hfits hb video hbefore with hnone | hmatch
            · rw [hnone]
              rfl
            · exact absurd (hmatch.symm.trans hm) (by decide)
      refine (congrArg (Option.map storageFields) hafter).trans ?_
      show some (StorageFields.mk (some storage.provider)
        (storage.bucket.or video.bucket) (some storage.objectKey)) = _
      rw [hbucket]
  | unchanged =>
      rw [hout] at hw
      cases hw

theorem writtenMedia_import (row : LegacyVideoIndexRow) (storage : StorageRef)
    (out : UpsertOutcome) :
    writtenMedia [(mediaInput row storage, out)]
      = if out.isWrite then [(row.videoId,
          ⟨some storage.provider, storage.bucket, some storage.objectKey⟩)]
        else [] := by
  unfold writtenMedia
  cases hw : out.isWrite <;> simp [hw, mediaInput]

/-- **One imported master row with its append.** Under `BucketFits` the event
tells the location the row has now. -/
theorem tracked_importMedia {row : LegacyVideoIndexRow} {storage : StorageRef}
    {out : ServableVideoUpsertOutcome} {u : Unit}
    (hmedia : Eval st (MediaImports.importMediaRowTxn (O := O) row storage)
      l out l₁)
    (happ : Eval st (appendIfWritten out.media (mediaEvent row storage)) l₁ u l₂)
    (hfits : BucketFits (l.view st) row storage) :
    VideoTracked st l l₂ [(mediaInput row storage, out.media)] := by
  obtain ⟨honly, hex⟩ := MediaImports.eval_importMediaRowTxn hmedia
  unfold VideoTracked
  rw [writtenMedia_import]
  refine tracked_upsert honly.pend ?_ ?_ (importMedia_location hmedia hfits) happ
    (readVisibility_media row storage)
  · intro videoId hne
    exact congrArg (Option.map storageFields) (sameVideo_of_only honly hne)
  · intro hw
    exact congrArg (Option.map storageFields) (hex.same hw)

/-- A hash upsert with its append touches no master row and is no visibility
event. -/
theorem hashUpsert_noVideo {input : HashRecordInput} {out : UpsertOutcome}
    {event : FeedEventInput} {u : Unit}
    (hup : Eval st (upsertHashRecordTxn (O := O) input) l out l₁)
    (happ : Eval st (appendIfWritten out event) l₁ u l₂)
    (hkind : event.toRow.eventKind = FeedEventKind.hashUpserted.asStr) :
    (∀ videoId, SameVideo st l l₂ videoId) ∧ VideoTracked st l l₂ [] := by
  obtain ⟨honly, -⟩ := eval_upsertHashRecordTxn hup
  have hsame : ∀ videoId, SameVideo st l l₁ videoId := fun videoId =>
    honly.rows (TableKey.video videoId) (by rintro ⟨⟩)
  refine ⟨fun videoId => ?_, tracked_other honly.pend (videoTable_of_same hsame)
    happ (readVisibility_hash hkind)⟩
  show (mediaIndex O).get (l₂.view st) (TableKey.video videoId) = _
  rw [view_appendIfWritten happ]
  exact hsame videoId

theorem importHash_noVideo {sfwBucket : String} {row : LegacyVideoIndexRow}
    {hashes : List (HashRecordInput × UpsertOutcome)}
    (h : Eval st (MediaImports.importHashTxn (O := O) sfwBucket row) l hashes l') :
    (∀ videoId, SameVideo st l l' videoId) ∧ VideoTracked st l l' [] := by
  rcases MediaImports.importHashTxn_runs h with ⟨-, rfl⟩ |
    ⟨phash, kind, version, outcome, l₁, u, hup, happ, -⟩
  · exact ⟨fun _ => rfl, Tracked.refl _⟩
  · exact hashUpsert_noVideo hup happ rfl

theorem persistOne_noVideo {jobRunId : String}
    {row : MissingHashRow}
    {res : Except (String × String) MediaPhash.VideoHashResult}
    {out : Option UpsertOutcome}
    (h : Eval st (MediaPhash.persistOneTxn (O := O) jobRunId row res) l out l') :
    VideoTracked st l l' [] := by
  cases res with
  | ok vhr =>
      obtain ⟨outcome, l₁, u, hup, happ, -⟩ :=
        MediaPhash.persistOneTxn_runs_ok h
      exact (hashUpsert_noVideo hup happ rfl).2
  | error failure =>
      obtain ⟨-, rfl⟩ := MediaPhash.persistOneTxn_runs_error h
      exact Tracked.refl _

theorem tracked_importOneRow {sfwBucket jobRunId : String}
    {row : LegacyVideoIndexRow} {imported : ImportedRow}
    (h : Eval st (MediaImports.importOneRowTxn (O := O) sfwBucket row jobRunId)
      l imported l')
    (hfits : ∀ storage, canonicalStorage sfwBucket row = some storage →
      BucketFits (l.view st) row storage) :
    VideoTracked st l l' imported.media ∧
      ∀ videoId, videoId ≠ row.videoId → SameVideo st l l' videoId := by
  rcases MediaImports.importOneRowTxn_runs h with ⟨-, hmedia, -, rfl⟩ |
    ⟨storage, out, l₁, u, l₂, hstorage, hone, happ, hhash, hmedia⟩
  · rw [hmedia]
    exact ⟨Tracked.refl _, fun _ _ => rfl⟩
  · have htracked := tracked_importMedia hone happ (hfits storage hstorage)
    obtain ⟨hsame₂, hnone⟩ := importHash_noVideo hhash
    rw [hmedia]
    refine ⟨htracked.trans hnone, fun videoId hne => (hsame₂ videoId).trans ?_⟩
    rw [view_appendIfWritten happ]
    exact sameVideo_of_only (MediaImports.eval_importMediaRowTxn hone).1 hne

/-- A page of distinct videos: what fits before the page fits at its row. -/
theorem tracked_importPage {sfwBucket jobRunId : String}
    {rows : List LegacyVideoIndexRow} {imported : List ImportedRow}
    (h : Eval st (MediaImports.importPageTxn (O := O) sfwBucket jobRunId rows)
      l imported l') (hnodup : (rows.map (·.videoId)).Nodup)
    (hfits : ∀ row ∈ rows, ∀ storage,
      canonicalStorage sfwBucket row = some storage →
      BucketFits (l.view st) row storage) :
    VideoTracked st l l' (importReport imported).media := by
  induction rows generalizing l imported with
  | nil =>
      obtain ⟨rfl, rfl⟩ := eval_ret.mp h
      exact Tracked.refl _
  | cons row rows ih =>
      obtain ⟨first, l₁, rest, hone, hpage, rfl⟩ :=
        MediaImports.importPageTxn_runs_cons h
      obtain ⟨hnot, hnodup⟩ := List.nodup_cons.mp hnodup
      obtain ⟨htracked, hsame⟩ :=
        tracked_importOneRow hone (hfits row List.mem_cons_self)
      refine htracked.trans (ih hpage hnodup ?_)
      intro row' hrow' storage hstorage hnone video hvideo
      have hne : row'.videoId ≠ row.videoId := by
        intro e
        refine hnot ?_
        show row.videoId ∈ _
        rw [← e]
        exact List.mem_map_of_mem hrow'
      have hbefore := (hsame row'.videoId hne).symm.trans hvideo
      exact hfits row' (List.mem_cons_of_mem _ hrow') storage hstorage hnone
        video hbefore

/-! ## Every run -/

/-- What a transaction may meet in the store it commits over, for its events to
tell all: a registration finds the row it would write; the rows of a page are of
distinct videos, as its query gives them, and fit the buckets stored. -/
def MediaWriter.Announces (st : Tables) : MediaWriter → Prop
  | .persistOne _ _ _ => True
  | .importPage sfwBucket _ rows => (rows.map (·.videoId)).Nodup ∧
      ∀ row ∈ rows, ∀ storage, canonicalStorage sfwBucket row = some storage →
        BucketFits st row storage
  | .registerMaster videoId src => ∃ video,
      st.videos.lookup videoId = some video ∧
        servableVideoMaterialMatches video (Ingest.masterInput videoId src)

/-- The commits of the runs considered. -/
def Announced (st : (mediaIndex O).Store) (p : MediaTxn O Report) : Prop :=
  ∃ w : MediaWriter, p = w.body ∧ w.Announces st

/-- A registration that meets its own row leaves everything as it is. -/
theorem tracked_registerMaster {videoId : String} {src : Ingest.VideoSource}
    {out : ServableVideoUpsertOutcome} {video : ServableVideo}
    (h : Eval st (Ingest.registerMasterTxn (O := O) videoId src) l out l')
    (hvideo : (mediaIndex O).get (l.view st) (TableKey.video videoId)
      = some video)
    (hmatch : servableVideoMaterialMatches video
      (Ingest.masterInput videoId src)) :
    VideoTracked st l l' [(Ingest.masterInput videoId src, out.media)] := by
  obtain ⟨honly, hex⟩ := eval_upsertServableVideoTxn h
  obtain ⟨hout, hkept⟩ := hex.matched hvideo hmatch
  rw [hout]
  refine Tracked.of_same honly.pend (videoTable_of_same fun videoId' => ?_)
  by_cases hid : videoId' = videoId
  · subst hid
    exact hkept
  · exact sameVideo_of_only honly hid

theorem keeps_visibilityOutbox : KeepsOutbox (D := mediaIndex O) readVisibility
    videoTable (fun report : Report => writtenMedia report.media) IsWriter
    Announced := by
  rintro st p report l - ⟨w, rfl, hann⟩ h
  cases w with
  | persistOne jobRunId row res =>
      obtain ⟨out, l₁, hone, hret⟩ := eval_bind.mp h
      obtain ⟨rfl, rfl⟩ := eval_ret.mp hret
      have hnone : (persistReport row res out).media = [] := by
        unfold persistReport
        split <;> rfl
      show VideoTracked st {} l (persistReport row res out).media
      rw [hnone]
      exact persistOne_noVideo hone
  | importPage sfwBucket jobRunId rows =>
      obtain ⟨imported, l₁, hpage, hret⟩ := eval_bind.mp h
      obtain ⟨rfl, rfl⟩ := eval_ret.mp hret
      exact tracked_importPage hpage hann.1 hann.2
  | registerMaster videoId src =>
      obtain ⟨out, l₁, hup, hret⟩ := eval_bind.mp h
      obtain ⟨rfl, rfl⟩ := eval_ret.mp hret
      obtain ⟨video, hvideo, hmatch⟩ := hann
      exact tracked_registerMaster hup hvideo hmatch

/-- The events of a committed transaction that a location consumer reads. -/
def visibilityEvents (c : Commit (mediaIndex O) Report) :
    List (String × StorageFields) :=
  c.loc.events.filterMap readVisibility

/-- What a location consumer is promised: replaying the feed in cursor order
gives every master row with its location, and every upsert that inserted or
changed has its one event in the same transaction. -/
structure VisibilityComplete (s : Sys (mediaIndex O) Report) : Prop where
  replayed : replay readVisibility
    ((s.log.insertionSort (·.1 ≤ ·.1)).map (·.2)) = videoTable s.store
  announced : ∀ c ∈ s.commits, (visibilityEvents c).map (·.1)
    = (writtenMedia c.result.media).map (·.1)

/-- **Visibility outbox.** In every run whose commits all announce what they
write, the promise holds in every state. -/
theorem visibility_outbox {s : Sys (mediaIndex O) Report}
    (hrun : ReflTransGen (Step IsWriter Announced) { store := {} } s) :
    VisibilityComplete s := by
  have hdisc : ∀ p : MediaTxn O Report, IsWriter p →
      Disciplined (D := mediaIndex O) Readable false p := fun p hp => hp.disciplined
  obtain ⟨hsorted, hreplay, hcommits⟩ :=
    reachable_outbox keeps_visibilityOutbox rfl hdisc hrun
  have hle : s.log.Pairwise (·.1 ≤ ·.1) :=
    hsorted.imp fun hab => Nat.le_of_lt hab
  refine ⟨?_, fun c hc => congrArg _ (hcommits c hc)⟩
  rw [hle.insertionSort_eq]
  exact hreplay

/-- A legacy row imported into empty tables. -/
theorem visibility_outbox_import : ∃ s : Sys (mediaIndex .none) Report,
    videoTable s.store "v" = some ⟨some "storj", some "yral-sfw", some "v.mp4"⟩ ∧
      VisibilityComplete s := by
  let row : LegacyVideoIndexRow := ⟨"v", some "v.mp4", none, none, none, none⟩
  let writer : MediaWriter := .importPage "yral-sfw" "run" [row]
  have hann : writer.Announces {} := by
    refine ⟨by simp, ?_⟩
    intro row' hrow' storage _ _ video hvideo
    cases hvideo
  have hperform : ∃ report c l,
      perform id idleWork idleOracle {} writer.body 1 {} ()
        = .ok (report, c, l, ()) ∧ videoTable (l.view {}) "v"
          = some ⟨some "storj", some "yral-sfw", some "v.mp4"⟩ :=
    ⟨_, _, _, rfl, by decide⟩
  obtain ⟨report, c, l, h, hvideo⟩ := hperform
  have hrun := alone_run (P := IsWriter) (G := Announced)
    (s := { store := {} }) rfl ⟨writer, rfl⟩ ⟨writer, rfl, hann⟩ h
  exact ⟨_, hvideo, visibility_outbox hrun⟩

/-- A completed video is registered and nobody is told: without the condition
on the commits the promise fails. -/
theorem registerMaster_unannounced :
    ¬ ∀ s : Sys (mediaIndex .none) Report,
      ReflTransGen (Step IsWriter fun _ _ => True) { store := {} } s →
        VisibilityComplete s := by
  intro hall
  let writer : MediaWriter :=
    .registerMaster "v" ⟨"storj", "yral-sfw", "u/v.mp4"⟩
  have hperform : ∃ report c l,
      perform id idleWork idleOracle {} writer.body 1 {} ()
        = .ok (report, c, l, ()) ∧ l.events.filterMap readVisibility = [] ∧
          (writtenMedia report.media).map (·.1) = ["v"] :=
    ⟨_, _, _, rfl, by decide, by decide⟩
  obtain ⟨report, c, l, h, hevents, hmedia⟩ := hperform
  have hrun := alone_run (P := IsWriter) (G := fun _ _ => True)
    (s := { store := {} }) rfl ⟨writer, rfl⟩ trivial h
  have hann := (hall _ hrun).announced ⟨writer.body, report, l⟩ (by simp [Sys.alone])
  rw [visibilityEvents, hevents, hmedia] at hann
  cases hann

end VideoStorage.Jobs
