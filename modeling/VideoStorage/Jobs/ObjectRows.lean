import Mathlib.Data.Prod.Lex
import VideoStorage.Jobs.ImportRun
import VideoStorage.Jobs.Ingest
import VideoStorage.Jobs.Scans

/-!
# One object, one master row

A finished upload reaches the master table by two ways: `on_video_ingested`
writes the row under the `video_id` of the callback, the scans and the import
write it under the object's key without `.mp4`. Both write one row exactly if
the two names are one (`one_row_iff`).
-/

namespace VideoStorage.Jobs

open Foundation MediaIndex
open MediaPhash (Db performTxn)
open MediaImports
open Ingest (VideoSource resolveSource registerMasterTxn)
open VideoStorage.Db (VideoTables VideoIndexRow upsertStorjKeyWithReset)
open Relation (ReflTransGen)

/-! ## The completion registration -/

/-- A failure is logged and leaves the tables as they are. -/
def onVideoIngested (videoId bucketUrl : String) (db : Db) : Db :=
  match resolveSource bucketUrl with
  | .error _ => db
  | .ok src =>
      match performTxn 0 (registerMasterTxn videoId src) db with
      | .ok (_, seq, l, failures) => db.commit seq l failures
      | .error _ => db

/-! ## Exact duplicates -/

structure ExactDuplicateQuery where
  hashKind : String
  hashVersion : String
  hashValue : String

def findExactDuplicates (q : ExactDuplicateQuery) (t : Tables) :
    List ((_ : HashKey) × HashRecord) :=
  orderLimit (fun h => toLex (h.1.videoId, h.1.inputMediaVersion)) none
    (t.hashes.entries.filter fun h => h.1.hashKind = q.hashKind &&
      h.1.hashVersion = q.hashVersion && h.2.hashValue = q.hashValue)

/-! ## The rows of an object -/

/-- The video has a master row that stores the object. -/
def Holds (src : VideoSource) (t : Tables) (videoId : String) : Prop :=
  ∃ v, t.get (.video videoId) = some v ∧
    v.storageProvider = some src.storageProvider ∧
    v.objectKey = some src.objectKey

/-- One master row stores the object; so no kind of hash is there for it twice,
and no hash makes it a duplicate of itself. -/
structure OneRow (src : VideoSource) (t : Tables) : Prop where
  one : ∃! videoId, Holds src t videoId
  hashedOnce : ∀ key key' : HashKey, (t.get (.hash key)).isSome →
    (t.get (.hash key')).isSome → key.hashKind = key'.hashKind →
    key.hashVersion = key'.hashVersion →
    key.inputMediaVersion = key'.inputMediaVersion →
    Holds src t key.videoId → Holds src t key'.videoId → key = key'
  notOwnDuplicate : ∀ q, ∀ h ∈ findExactDuplicates q t,
    ∀ h' ∈ findExactDuplicates q t, Holds src t h.1.videoId →
    Holds src t h'.1.videoId → h.1.videoId = h'.1.videoId

/-! ## The ways to the master table -/

structure IngestState where
  video : VideoTables := {}
  db : Db := {}
  registered : Bool := false

/-- One registration of the upload, one full scan whose listing has its object, or
one run of the import. -/
inductive IngestStep (videoId bucketUrl key : String) (s : IngestState) :
    IngestState → Prop
  | register : IngestStep videoId bucketUrl key s
      { s with
        db := onVideoIngested videoId bucketUrl s.db
        registered := true }
  | scanStorj (args : ScanArgs) (hfull : args.fullScan) (hkey : key ∈ args.listing) :
      IngestStep videoId bucketUrl key s
        { s with video := (scanStorj args s.video).1 }
  | scanHetzner (tempKeyPrefix : String) (args : ScanArgs) (hfull : args.fullScan)
      (hkey : key ∈ args.listing) : IngestStep videoId bucketUrl key s
        { s with video := (scanHetzner tempKeyPrefix args s.video).1 }
  | importVideoIndex (env : ImportEnv) (fuel : ℕ) (r : ImportResult)
      (h : importCurrentVideoIndex env s.video s.db fuel = some r) :
      IngestStep videoId bucketUrl key s { s with db := r.1.db }

/-- Nothing is known of the object, or only what scans of the buckets found. -/
structure Fresh (src : VideoSource) (s : IngestState) : Prop where
  unregistered : s.registered = false
  noRow : ∀ videoId, ¬ Holds src s.db.tables videoId
  named : Named src.objectKey s.video

/-! ## What a registration leaves -/

section Register

variable {videoId bucketUrl : String} {src : VideoSource} {db : Db}

theorem onVideoIngested_spec (hsrc : resolveSource bucketUrl = .ok src) :
    Holds src (onVideoIngested videoId bucketUrl db).tables videoId ∧
      ∀ id, id ≠ videoId →
        (onVideoIngested videoId bucketUrl db).tables.get (.video id)
          = db.tables.get (.video id) := by
  have hperforms : Performs SqlError.statement (MediaPhash.failureWork 0)
      idleOracle db.tables (registerMasterTxn videoId src) {} db.failures _ :=
    performs_upsertServableVideoTxn.eval
  obtain ⟨out, seq, l, failures, hperform, -, heval⟩ := hperforms db.seq
  have hdb : onVideoIngested videoId bucketUrl db = db.commit seq l failures := by
    unfold onVideoIngested performTxn
    rw [hsrc]
    dsimp only
    rw [hperform]
  rw [hdb]
  obtain ⟨honly, hex⟩ := eval_upsertServableVideoTxn heval
  refine ⟨?_, fun id hid => sameVideo_of_only honly hid⟩
  cases hout : out.media with
  | inserted =>
      rw [hout] at hex
      exact ⟨_, hex.2, rfl, rfl⟩
  | changed =>
      rw [hout] at hex
      obtain ⟨v, -, -, hafter⟩ := hex
      exact ⟨_, hafter, rfl, rfl⟩
  | unchanged =>
      rw [hout] at hex
      obtain ⟨v, -, hmatch, hafter⟩ := hex
      refine ⟨v, hafter, ?_, ?_⟩
      · simp [servableVideoMaterialMatches, optionalMatches,
          Ingest.masterInput] at hmatch
        tauto
      · simp [servableVideoMaterialMatches, optionalMatches,
          Ingest.masterInput] at hmatch
        tauto

end Register

/-! ## The object stays with its video -/

section Runs

variable {videoId bucketUrl id : String} {src : VideoSource}
  {s s₀ s' : IngestState} {t t' : Tables}

theorem OneRow.of_holds (hheld : Holds src t videoId)
    (honly : ∀ id, Holds src t id → id = videoId) : OneRow src t where
  one := ⟨videoId, hheld, honly⟩
  hashedOnce key key' _ _ hkind hversion hmedia hkey hkey' := by
    obtain ⟨id, kind, version, media⟩ := key
    obtain ⟨id', kind', version', media'⟩ := key'
    have hid : id = id' := (honly id hkey).trans (honly id' hkey').symm
    simp only at hkind hversion hmedia
    rw [hid, hkind, hversion, hmedia]
  notOwnDuplicate _ h _ h' _ hkey hkey' :=
    (honly h.1.videoId hkey).trans (honly h'.1.videoId hkey').symm

/-- An imported row has one of the keys of its video. -/
theorem hasKey_of_imported {sfwBucket key : String} {w : VideoIndexRow}
    {v : ServableVideo}
    (h : importedVideo sfwBucket (legacyRow id w) = some v)
    (hkey : v.objectKey = some key) : HasKey w key := by
  unfold importedVideo canonicalStorage at h
  obtain ⟨storage, hstorage, rfl⟩ := Option.map_eq_some_iff.mp h
  obtain rfl : storage.objectKey = key := Option.some.inj hkey
  cases hstorj : w.storjKey with
  | some k =>
      have hrow : (legacyRow id w).storjKey = some k := hstorj
      rw [hrow] at hstorage
      obtain rfl := Option.some.inj hstorage
      exact .inl hstorj
  | none =>
      have hrow : (legacyRow id w).storjKey = none := hstorj
      rw [hrow] at hstorage
      obtain ⟨k, hk, rfl⟩ := Option.map_eq_some_iff.mp hstorage
      exact .inr hk

/-- What an import adds for the object is under the video the object names. -/
theorem holds_of_imports {sfwBucket : String} {vi : VideoTables}
    (h : Imports sfwBucket vi t t') (hnamed : Named src.objectKey vi)
    (hid : Holds src t' id) :
    Holds src t id ∨ videoIdFromKey src.objectKey = some id := by
  obtain ⟨v, hv, hprovider, hkey⟩ := hid
  cases hold : t.get (.video id) with
  | some v₀ =>
      have hsame := h.kept id v₀ hold
      rw [hv] at hsame
      obtain rfl := Option.some.inj hsame
      exact .inl ⟨v, hold, hprovider, hkey⟩
  | none =>
      obtain ⟨row, hrow, rfl, himported⟩ := h.new id v hold hv
      obtain ⟨w, hw, hrow⟩ := mem_legacyRows.mp hrow
      rw [hrow] at himported
      exact .inr (hnamed _ w hw (hasKey_of_imported himported hkey))

/-- The object is under the upload's `video_id` or nowhere. -/
structure Owned (videoId : String) (src : VideoSource) (s : IngestState) :
    Prop where
  named : Named src.objectKey s.video
  only : ∀ id, Holds src s.db.tables id → id = videoId
  held : s.registered = true → Holds src s.db.tables videoId

theorem Fresh.owned (h : Fresh src s) : Owned videoId src s where
  named := h.named
  only id hid := absurd hid (h.noRow id)
  held hregistered := by
    rw [h.unregistered] at hregistered
    cases hregistered

theorem fresh_empty (src : VideoSource) : Fresh src {} := by
  refine ⟨rfl, ?_, fun id v hv => by cases hv⟩
  rintro id ⟨v, hv, -⟩
  cases hv

theorem Owned.step (hsrc : resolveSource bucketUrl = .ok src)
    (hname : ∀ id, videoIdFromKey src.objectKey = some id → id = videoId)
    (h : Owned videoId src s)
    (hstep : IngestStep videoId bucketUrl src.objectKey s s') :
    Owned videoId src s' := by
  cases hstep with
  | register =>
      obtain ⟨hheld, hother⟩ := onVideoIngested_spec hsrc
      refine ⟨h.named, fun id hid => ?_, fun _ => hheld⟩
      by_contra hne
      obtain ⟨v, hv, hstored⟩ := hid
      rw [hother id hne] at hv
      exact hne (h.only id ⟨v, hv, hstored⟩)
  | scanStorj args _ _ => exact ⟨h.named.scanStorj args, h.only, h.held⟩
  | scanHetzner tempKeyPrefix args _ _ =>
      exact ⟨h.named.scanHetzner tempKeyPrefix args, h.only, h.held⟩
  | importVideoIndex env fuel r himport =>
      have himports := imports_currentVideoIndex himport
      refine ⟨h.named, fun id hid => ?_, fun hregistered => ?_⟩
      · rcases holds_of_imports himports h.named hid with hold | hnew
        · exact h.only id hold
        · exact hname id hnew
      · obtain ⟨v, hv, hstored⟩ := h.held hregistered
        exact ⟨v, himports.kept videoId v hv, hstored⟩

/-! ## Two names make two rows -/

/-- A run over all rows at once. -/
def importAll : ImportEnv where
  jobRunId := "run"
  sfwBucket := "yral-sfw"
  batchSize := 1
  errorText := fun _ => ""

/-- An index of one row has one page, as long as the row is missing. -/
theorem fetch_single {vi : VideoTables} {row : LegacyVideoIndexRow}
    (hvi : legacyRows vi = [row]) (cursor : Option String) (t : MediaIndex.Tables) :
    fetchMissingLegacyRowsAfter cursor 1 vi t
      = .ok (if missingPast cursor t row then [row] else []) := by
  unfold fetchMissingLegacyRowsAfter
  rw [hvi]
  cases hmissing : missingPast cursor t row with
  | true =>
    rw [List.filter_cons_of_pos hmissing]
    rfl
  | false =>
    rw [List.filter_cons_of_neg (by rw [hmissing]; exact Bool.false_ne_true)]
    rfl

/-- A page of one new row commits, and the master table has the row. -/
theorem importPage_single {db : Db} {row : LegacyVideoIndexRow}
    (hnone : db.tables.get (.video row.videoId) = none) :
    ∃ imported db', importAll.importPage [row] db = .ok (imported, db') ∧
      db'.tables.get (.video row.videoId) = importedVideo importAll.sfwBucket row := by
  obtain ⟨imported, seq, l, failures, hperform, -, heval⟩ :=
    (@performs_importPageTxn db.tables {} db.failures 0 importAll.sfwBucket
      importAll.jobRunId idleOracle [row]).eval db.seq
  obtain ⟨-, hself⟩ := eval_importPageTxn heval (List.nodup_singleton _) fun r hr => by
    rwa [List.mem_singleton.mp hr]
  refine ⟨imported, db.commit seq l failures, ?_, hself row List.mem_cons_self⟩
  unfold ImportEnv.importPage ImportEnv.transact performTxn
  rw [hperform]
  rfl

/-- An index of one row: the import brings it to a master table that has not got
it. -/
theorem import_single {vi : VideoTables} {db : Db} {row : LegacyVideoIndexRow}
    (hvi : legacyRows vi = [row])
    (hnone : db.tables.get (.video row.videoId) = none) :
    ∃ r, importCurrentVideoIndex importAll vi db 2 = some r ∧
      r.1.db.tables.get (.video row.videoId)
        = importedVideo importAll.sfwBucket row := by
  obtain ⟨imported, db', hpage, hself⟩ := importPage_single hnone
  have hmissing : missingPast none db.tables row = true := by
    unfold missingPast
    rw [hnone]
    rfl
  have hbehind : missingPast (some row.videoId) db'.tables row = false := by
    unfold missingPast
    rw [past_some, decide_eq_false (lt_irrefl _)]
    rfl
  have hbatch : importBatch importAll [row] ((importInit importAll db).fetched [row])
      = (((importInit importAll db).fetched [row]).imported imported db', none) := by
    unfold importBatch
    rw [show ((importInit importAll db).fetched [row]).db = db from rfl, hpage]
  -- the first step has the row's page, the second finds nothing behind it
  have hfetch := fetch_single hvi none db.tables
  rw [if_pos hmissing] at hfetch
  have hfirst := importStep_page rfl (fun h => by cases h) hfetch
    (List.cons_ne_nil _ _) hbatch
  have hrest := fetch_single hvi (some row.videoId) db'.tables
  rw [if_neg (by rw [hbehind]; exact Bool.false_ne_true)] at hrest
  obtain ⟨s₁, hs₁⟩ : ∃ s₁ : ImportState,
      s₁ = (((importInit importAll db).fetched [row]).imported imported db').scanned
        [row] := ⟨_, rfl⟩
  have hsecond : importStep importAll vi s₁ = .inr (s₁.finish false) := by
    rw [hs₁]
    exact importStep_done rfl (fun h => by cases h) hrest
  rw [← hs₁] at hfirst
  refine ⟨s₁.finish false, ?_, ?_⟩
  · show iterate (importStep importAll vi) 2 (importInit importAll db) = _
    rw [iterate_next hfirst, iterate_stop hsecond]
  · rw [hs₁]
    exact hself

theorem legacyRows_scanStorj {key id : String} (hkey : videoIdFromKey key = some id) :
    legacyRows (scanStorj { listing := [key] } {}).1
      = [legacyRow id { storjKey := some key }] := by
  have hscan : (scanStorj { listing := [key] } {}).1
      = upsertStorjKeyWithReset id key {} := by
    show (scanKeys _ _ _ _ _ _).1 = _
    unfold scanKeys
    rw [if_neg Bool.false_ne_true, hkey]
    rfl
  rw [hscan]
  rfl

/-- Found by a scan, imported and then registered. -/
theorem exists_two_rows (hsrc : resolveSource bucketUrl = .ok src)
    (hkey : videoIdFromKey src.objectKey = some id) (hne : id ≠ videoId) :
    ∃ s, ReflTransGen (IngestStep videoId bucketUrl src.objectKey) {} s ∧
      s.registered = true ∧ Holds src s.db.tables id ∧
      Holds src s.db.tables videoId := by
  have hprovider : src.storageProvider = "storj" := by
    unfold resolveSource at hsrc
    split at hsrc
    · cases hsrc
    · dsimp only at hsrc
      split_ifs at hsrc
      obtain rfl := Except.ok.inj hsrc
      rfl
  obtain ⟨r, himport, hrow⟩ :=
    @import_single (scanStorj { listing := [src.objectKey] } {}).1 {} _
      (legacyRows_scanStorj hkey) rfl
  obtain ⟨hheld, hother⟩ := @onVideoIngested_spec videoId bucketUrl src r.1.db hsrc
  have hscan : IngestStep videoId bucketUrl src.objectKey {} _ :=
    .scanStorj { listing := [src.objectKey] } rfl List.mem_cons_self
  have hrun := ((ReflTransGen.single hscan).tail
    (.importVideoIndex importAll 2 r himport)).tail .register
  exact ⟨_, hrun, rfl,
    ⟨_, (hother id hne).trans hrow, congrArg some hprovider.symm, rfl⟩, hheld⟩

/-- **One row per object**: in whatever order and however often an upload is
registered, its object scanned and the index imported, one master row has the
object exactly if the upload's `video_id` is the object's key without `.mp4`, or
the key has no `.mp4` to drop. -/
theorem one_row_iff (hsrc : resolveSource bucketUrl = .ok src) :
    (∀ s₀ s, Fresh src s₀ →
      ReflTransGen (IngestStep videoId bucketUrl src.objectKey) s₀ s →
        s.registered = true → OneRow src s.db.tables) ↔
      ∀ id, videoIdFromKey src.objectKey = some id → id = videoId := by
  constructor
  · intro h id hkey
    by_contra hne
    obtain ⟨s, hrun, hregistered, hid, hvideo⟩ := exists_two_rows hsrc hkey hne
    have hone := (h {} s (fresh_empty src) hrun hregistered).one
    exact hne (hone.unique hid hvideo)
  · intro hname s₀ s hfresh hrun hregistered
    have howned := run_invariant (Owned videoId src)
      (fun _ _ hs hstep => hs.step hsrc hname hstep) hrun hfresh.owned
    exact .of_holds (howned.held hregistered) howned.only

end Runs

/-! ## The upload of one object -/

def sharedUrl : String := "https://link/raw/t/yral-sfw/u/v.mp4"

def sharedSource : VideoSource := ⟨"storj", "yral-sfw", "u/v.mp4"⟩

theorem videoIdFromKey_shared : videoIdFromKey "u/v.mp4" = some "u/v" := by decide

/-- Registered, scanned and registered again under its prefixed name. -/
theorem one_row_prefixed : ∃ s,
    ReflTransGen (IngestStep "u/v" sharedUrl "u/v.mp4") {} s ∧
      s.registered = true ∧ OneRow sharedSource s.db.tables := by
  have hsrc : resolveSource sharedUrl = .ok sharedSource := by decide
  have hname : ∀ id, videoIdFromKey sharedSource.objectKey = some id → id = "u/v" :=
    fun id hid => Option.some.inj (hid.symm.trans videoIdFromKey_shared)
  have hfirst : IngestStep "u/v" sharedUrl "u/v.mp4" {} _ := .register
  have hrun := ((ReflTransGen.single hfirst).tail
    (.scanStorj { listing := ["u/v.mp4"] } rfl List.mem_cons_self)).tail .register
  exact ⟨_, hrun, rfl,
    (one_row_iff hsrc).mpr hname _ _ (fresh_empty sharedSource) hrun rfl⟩

/-- Under the bare name of the callback the object gets a second row. -/
theorem two_rows_bare : ¬ ∀ s₀ s, Fresh sharedSource s₀ →
    ReflTransGen (IngestStep "v" sharedUrl "u/v.mp4") s₀ s →
      s.registered = true → OneRow sharedSource s.db.tables := by
  intro h
  obtain ⟨s, hrun, hregistered, hid, hvideo⟩ :=
    @exists_two_rows "v" sharedUrl "u/v" sharedSource (by decide)
      videoIdFromKey_shared (by decide)
  have hone := (h {} s (fresh_empty sharedSource) hrun hregistered).one
  exact absurd (hone.unique hid hvideo) (by decide)

end VideoStorage.Jobs
