import VideoStorage.Chain.AuditRoute
import VideoStorage.Jobs.ImportKeeps
import VideoStorage.Jobs.SweepReach

/-!
# What changes a video's category

Deleting failures changes none. An import adds servable master rows, so a video
keeps its master status or becomes servable by a row of the index that had no
master row (`AfterImport.cat`); it adds no hash that the audit looks at. A run
of `media_phash` adds such hashes and nothing else (`cat_run`).
-/

namespace VideoStorage.Chain

open Foundation MediaIndex Jobs.MediaPhash
open Jobs.MediaImports (ImportEnv ImportError Imports ImportKeeps RecordsImports
  importedVideo importCurrentVideoIndex legacyRow legacyRows)

/-! ## Who backs off -/

/-- Only failures of `media_phash` have a time to wait for, and none of these
videos. -/
def PhashBacksOff (videoIds : List String) (t : JobFailures) : Prop :=
  ∀ f ∈ t.rows, f.nextRetryAt ≠ none → f.jobKind = jobKind ∧ f.videoId ∉ videoIds

/-- The tables that the repository's statements leave of an empty one. -/
inductive FailureHistory : JobFailures → Prop
  | empty : FailureHistory {}
  | recordPhash {t t' : JobFailures} {now : ℤ} {jobRunId videoId phase error : String}
      (h : FailureHistory t)
      (record : t.recordPhash now jobRunId videoId phase error = .ok t') :
      FailureHistory t'
  | recordImport {t t' : JobFailures} {jobRunId videoId phase error : String}
      (h : FailureHistory t)
      (record : t.recordImport jobRunId videoId phase error = .ok t') :
      FailureHistory t'
  | clear {t : JobFailures} (kind videoId : String) (h : FailureHistory t) :
      FailureHistory (t.clear kind videoId)
  | clearPhashFailures {t : JobFailures} (videoIds : List String)
      (h : FailureHistory t) : FailureHistory (t.clearPhashFailures videoIds).2

section BacksOff

variable {t t' : JobFailures} {now : ℤ} {jobRunId videoId phase error : String}
  {videoIds : List String}

theorem PhashBacksOff.recordPhash (h : PhashBacksOff [] t)
    (hrec : t.recordPhash now jobRunId videoId phase error = .ok t') :
    PhashBacksOff [] t' := by
  intro x hx hdue
  rcases JobFailures.mem_upsert hrec hx with hx | rfl | ⟨f, -, hf, hg⟩
  · exact h x hx hdue
  · exact ⟨rfl, List.not_mem_nil⟩
  · have hkey := ((phashUpsert now jobRunId videoId phase error).keepsKey f x
      hg).1.trans hf
    exact ⟨congrArg (fun k => k.1) hkey, List.not_mem_nil⟩

theorem PhashBacksOff.recordImport (h : PhashBacksOff videoIds t)
    (hrec : t.recordImport jobRunId videoId phase error = .ok t') :
    PhashBacksOff videoIds t' := by
  intro x hx hdue
  rcases JobFailures.mem_upsert hrec hx with hx | rfl | ⟨f, hmem, hf, hg⟩
  · exact h x hx hdue
  · exact absurd rfl hdue
  · -- the row that is replaced is one of the import, without a time
    obtain rfl := Except.ok.inj hg
    have hkind : f.jobKind = Jobs.MediaImports.jobKind := congrArg (fun k => k.1) hf
    have hphash := (h f hmem hdue).1
    rw [hkind] at hphash
    exact absurd hphash (by decide)

theorem PhashBacksOff.records (h : PhashBacksOff videoIds t)
    (hrec : RecordsImports t t') : PhashBacksOff videoIds t' := by
  induction hrec with
  | refl => exact h
  | tail _ hstep ih =>
      obtain ⟨_, _, _, _, hrec⟩ := hstep
      exact ih.recordImport hrec

theorem PhashBacksOff.cleared (h : PhashBacksOff [] t) (videoIds : List String) :
    PhashBacksOff videoIds (t.clearPhashFailures videoIds).2 := by
  intro f hf hdue
  obtain ⟨hmem, hkept⟩ := JobFailures.mem_clearPhashFailures.mp hf
  have hkind := (h f hmem hdue).1
  exact ⟨hkind, fun hid => hkept ⟨hkind, hid⟩⟩

theorem FailureHistory.backsOff (h : FailureHistory t) : PhashBacksOff [] t := by
  induction h with
  | empty => exact fun f hf => absurd hf List.not_mem_nil
  | recordPhash _ hrec ih => exact ih.recordPhash hrec
  | recordImport _ hrec ih => exact ih.recordImport hrec
  | clear kind videoId _ ih => exact fun f hf => ih f (List.mem_filter.mp hf).1
  | clearPhashFailures videoIds _ ih =>
      exact fun f hf => ih f (JobFailures.mem_clearPhashFailures.mp hf).1

/-- A video whose failures are deleted is due. -/
theorem PhashBacksOff.due (h : PhashBacksOff videoIds t) (hid : videoId ∈ videoIds) :
    MissingHashQuery.notBackingOff now t videoId = true := by
  by_contra hnot
  obtain ⟨f, hf, due, hdue, -⟩ :=
    MissingHashQuery.notBackingOff_eq_false.mp (Bool.eq_false_iff.mpr hnot)
  obtain ⟨hmem, hv⟩ := List.mem_filter.mp hf
  obtain rfl : f.videoId = videoId := of_decide_eq_true hv
  exact (h f hmem (by rw [hdue]; exact nofun)).2 hid

end BacksOff

/-! ## Rows of a key -/

namespace ChainDb

variable (lower : String → String) (c : ChainDb) (videoUid : String)

/-- The master rows of the video agree in their status. -/
def OneStatus : Prop :=
  ∀ m ∈ c.audit.masters lower (uidKey lower videoUid),
    ∀ m' ∈ c.audit.masters lower (uidKey lower videoUid),
      m.2.servableStatus = m'.2.servableStatus

/-- Its rows in the index have master rows. -/
def AllInMaster : Prop :=
  ∀ row ∈ legacyRows c.video, canonicalKey lower row.videoId = uidKey lower videoUid →
    (c.db.tables.get (.video row.videoId)).isSome

/-- An import that comes to it gives the video a master row. -/
def Importable (ienv : ImportEnv) : Prop :=
  ∃ videoId v, c.video.video videoId = some v ∧
    canonicalKey lower videoId = uidKey lower videoUid ∧
    (v.hetznerKey.isSome ∨ v.storjKey.isSome) ∧ ienv.rowError videoId = none

end ChainDb

section Categories

variable {lower : String → String} {now : ℤ} {c c' : ChainDb}
  {videoUid vk : String} {db db' : AuditTables}

theorem hasHash_iff : db.hasHash lower vk = true ↔
    ∃ videoId, canonicalKey lower videoId = vk ∧
      (db.media.get (.hash (hashKeyOf videoId))).isSome := by
  unfold AuditTables.hasHash
  rw [List.any_eq_true]
  constructor
  · rintro ⟨⟨⟨videoId, kind, version, media⟩, row⟩, hmem, h⟩
    simp only [Bool.and_eq_true, decide_eq_true_eq] at h
    obtain ⟨⟨⟨hkey, rfl⟩, rfl⟩, rfl⟩ := h
    exact ⟨videoId, hkey, Option.isSome_iff_exists.mpr
      ⟨row, AList.mem_lookup_iff.mpr hmem⟩⟩
  · rintro ⟨videoId, hkey, hsome⟩
    obtain ⟨row, hrow⟩ := Option.isSome_iff_exists.mp hsome
    refine ⟨⟨hashKeyOf videoId, row⟩, AList.mem_lookup_iff.mp hrow, ?_⟩
    simp [hashKeyOf, hkey]

theorem inCategory_iff {k : Category} :
    InCategory lower now db videoUid k ↔ k = (db.cat lower now videoUid).category :=
  filter_eq_true

theorem inCategory_c : InCategory lower now db videoUid .c ↔
    (db.cat lower now videoUid).masterStatus = none ∧
      (db.cat lower now videoUid).inIndex = true := by
  unfold InCategory Category.filter
  rw [Cond.and_eq_true, Option.some.injEq, Option.some.injEq,
    Option.isNone_iff_eq_none]

theorem inCategory_e : InCategory lower now db videoUid .e ↔
    ∃ status, (db.cat lower now videoUid).masterStatus = some status ∧
      status ≠ "servable" := by
  rw [inCategory_iff]
  unfold Cat.category
  cases (db.cat lower now videoUid).masterStatus with
  | none => cases (db.cat lower now videoUid).inIndex <;> simp
  | some status =>
      by_cases hs : status = "servable"
      · cases (db.cat lower now videoUid).hasHash <;> simp [hs]
      · simp [hs]

theorem inCategory_deleted {k : Category} {failures : JobFailures} :
    InCategory lower now (c.withFailures failures).audit videoUid k ↔
      InCategory lower now c.audit videoUid k := by
  cases k <;> exact Iff.rfl

/-! ## An import -/

theorem masterStatus_eq_none :
    (db.cat lower now videoUid).masterStatus = none ↔
      db.masters lower (uidKey lower videoUid) = [] :=
  Option.map_eq_none_iff.trans List.head?_eq_none_iff

theorem exists_master {status : String}
    (h : (db.cat lower now videoUid).masterStatus = some status) :
    ∃ m ∈ db.masters lower (uidKey lower videoUid), m.2.servableStatus = status := by
  obtain ⟨m, hm, hstatus⟩ := Option.map_eq_some_iff.mp h
  exact ⟨m, List.mem_of_head? hm, hstatus⟩

/-- Rows that agree have the status that the audit sees. -/
theorem ChainDb.OneStatus.masterStatus (hone : c.OneStatus lower videoUid)
    {m : (_ : String) × ServableVideo}
    (hm : m ∈ c.audit.masters lower (uidKey lower videoUid)) :
    (c.audit.cat lower now videoUid).masterStatus = some m.2.servableStatus := by
  cases hstatus : (c.audit.cat lower now videoUid).masterStatus with
  | none =>
      rw [masterStatus_eq_none.mp hstatus] at hm
      cases hm
  | some status =>
      obtain ⟨m₀, hm₀, rfl⟩ := exists_master hstatus
      rw [hone m hm m₀ hm₀]

theorem import_status {sfwBucket : String} {t : Db}
    (himports : Imports sfwBucket c.video c.db.tables t.tables)
    (hone : c.OneStatus lower videoUid) :
    ((c.withDb t).audit.cat lower now videoUid).masterStatus
        = (c.audit.cat lower now videoUid).masterStatus ∨
      ((c.withDb t).audit.cat lower now videoUid).masterStatus = some "servable" ∧
        ¬ c.AllInMaster lower videoUid := by
  cases hafter : ((c.withDb t).audit.cat lower now videoUid).masterStatus with
  | none =>
      -- no master row is lost, so there was none
      refine .inl (masterStatus_eq_none.mpr ?_).symm
      refine List.eq_nil_iff_forall_not_mem.mpr fun m hm => ?_
      obtain ⟨hget, hkey⟩ := mem_masters.mp hm
      have hkept : m ∈ (c.withDb t).audit.masters lower (uidKey lower videoUid) :=
        mem_masters.mpr ⟨himports.kept _ _ hget, hkey⟩
      rw [masterStatus_eq_none.mp hafter] at hkept
      cases hkept
  | some status =>
      obtain ⟨m, hm, rfl⟩ := exists_master hafter
      obtain ⟨hget, hkey⟩ := mem_masters.mp hm
      cases hbefore : c.db.tables.get (.video m.1) with
      | some v =>
          obtain rfl : v = m.2 :=
            Option.some.inj ((himports.kept _ _ hbefore).symm.trans hget)
          exact .inl (hone.masterStatus (mem_masters.mpr ⟨hbefore, hkey⟩)).symm
      | none =>
          obtain ⟨row, hrow, hid, himported⟩ := himports.new _ _ hbefore hget
          obtain ⟨storage, -, hv⟩ := Option.map_eq_some_iff.mp himported
          have hservable : m.2.servableStatus = "servable" := by
            rw [← hv]
            rfl
          refine .inr ⟨congrArg some hservable, fun hall => ?_⟩
          have hsome := hall row hrow (by rw [hid]; exact hkey)
          rw [hid, hbefore] at hsome
          cases hsome

/-- A video that has no row in the index has none to import. -/
theorem allInMaster_of_inIndex (h : (c.audit.cat lower now videoUid).inIndex = false) :
    c.AllInMaster lower videoUid := by
  intro row hrow hkey
  exact absurd (decide_eq_true hkey)
    (List.any_eq_false.mp h row.videoId (List.mem_map_of_mem hrow))

/-- The version of the media that `media_phash` writes is not that of the import. -/
theorem inputMediaVersion_ne (videoId : String) :
    (hashKeyOf videoId).inputMediaVersion ≠ Jobs.MediaImports.inputMediaVersion := by
  show Jobs.MediaPhash.inputMediaVersion ≠ Jobs.MediaImports.inputMediaVersion
  decide

theorem import_hasHash {t : Db} (hkeeps : ImportKeeps c.db t) :
    (c.withDb t).audit.hasHash lower vk = c.audit.hasHash lower vk := by
  rw [Bool.eq_iff_iff, hasHash_iff, hasHash_iff]
  refine exists_congr fun videoId => and_congr_right fun _ => ?_
  show (t.tables.get _).isSome ↔ (c.db.tables.get _).isSome
  rw [hkeeps.hashes _ (inputMediaVersion_ne videoId)]

/-! ## A request and its import -/

/-- What the import that a request may have spawned makes of the row of a video. -/
structure CatImported (lower : String → String) (now : ℤ) (c c' : ChainDb)
    (spawned : Bool) (videoUid : String) : Prop where
  status : (c'.audit.cat lower now videoUid).masterStatus
      = (c.audit.cat lower now videoUid).masterStatus ∨
    spawned = true ∧
      (c'.audit.cat lower now videoUid).masterStatus = some "servable" ∧
      ¬ c.AllInMaster lower videoUid
  hasHash : (c'.audit.cat lower now videoUid).hasHash
    = (c.audit.cat lower now videoUid).hasHash
  inIndex : (c'.audit.cat lower now videoUid).inIndex
    = (c.audit.cat lower now videoUid).inIndex

section AfterImport

variable {ienv : ImportEnv} {done : AuditDone}
  {outcome : Option (Except ImportError String)}

theorem AfterImport.hasHash (h : AfterImport ienv done outcome c') :
    c'.audit.hasHash lower vk = done.db.audit.hasHash lower vk := by
  cases h with
  | none => rfl
  | ended hspawned hlimit hends =>
      exact import_hasHash (Jobs.MediaImports.importCurrentVideoIndex_keeps hends)

theorem AfterImport.cat (h : AfterImport ienv done outcome c')
    (hone : done.spawned = true → done.db.OneStatus lower videoUid) :
    CatImported lower now done.db c' done.spawned videoUid := by
  have hhash := @AfterImport.hasHash lower c' (uidKey lower videoUid) _ _ _ h
  cases h with
  | none => exact ⟨.inl rfl, rfl, rfl⟩
  | ended hspawned hlimit hends =>
      have himports := Jobs.MediaImports.imports_currentVideoIndex hends
      refine ⟨?_, hhash, rfl⟩
      rcases import_status himports (hone hspawned) with hsame | ⟨hservable, hnew⟩
      · exact .inl hsame
      · exact .inr ⟨hspawned, hservable, hnew⟩

/-- No master row is lost or changed. -/
theorem AfterImport.kept (h : AfterImport ienv done outcome c') {videoId : String}
    {v : ServableVideo} (hget : done.db.db.tables.get (.video videoId) = some v) :
    c'.db.tables.get (.video videoId) = some v := by
  cases h with
  | none => exact hget
  | ended hspawned hlimit hends =>
      exact (Jobs.MediaImports.imports_currentVideoIndex hends).kept _ _ hget

theorem AfterImport.failures (h : AfterImport ienv done outcome c') :
    RecordsImports done.db.db.failures c'.db.failures := by
  cases h with
  | none => exact .refl
  | ended hspawned hlimit hends =>
      exact (Jobs.MediaImports.importCurrentVideoIndex_keeps hends).failures

/-- After an import that succeeded the video has a master row. -/
theorem AfterImport.imported (h : AfterImport ienv done outcome c') {status : String}
    (hok : outcome = some (.ok status)) (hienv : ienv.Undisturbed)
    (himportable : done.db.Importable lower videoUid ienv) :
    ¬ InCategory lower now c'.audit videoUid .c := by
  cases h with
  | none => cases hok
  | @ended fuel r hspawned hlimit hends =>
      obtain ⟨videoId, v, hv, hkey, hstored, herror⟩ := himportable
      have hsome := Jobs.import_reaches hienv hlimit hends (Option.some.inj hok) hv
        hstored herror
      obtain ⟨w, hw⟩ := Option.isSome_iff_exists.mp hsome
      have hmem : (⟨videoId, w⟩ : (_ : String) × ServableVideo)
          ∈ (done.db.withDb r.1.db).audit.masters lower (uidKey lower videoUid) :=
        mem_masters.mpr ⟨hw, hkey⟩
      intro hc
      rw [masterStatus_eq_none.mp (inCategory_c.mp hc).1] at hmem
      cases hmem

end AfterImport

/-! ## A run of `media_phash` -/

/-- A row of the run that has the key of a video and could be hashed. -/
def HashedBy (lower : String → String) (env : RunEnv) (s : RunState)
    (videoUid : String) : Prop :=
  ∃ row ∈ s.attempts, canonicalKey lower row.videoId = uidKey lower videoUid ∧
    (hashRow env.deps row).isOk

/-- Of what the audit looks at a run changes the hashes. -/
theorem cat_run {env : RunEnv} {s : RunState} (h : Hashed env c.db s) :
    ((c.withDb s.db).audit.cat lower now videoUid).masterStatus
        = (c.audit.cat lower now videoUid).masterStatus ∧
      ((c.withDb s.db).audit.cat lower now videoUid).inIndex
        = (c.audit.cat lower now videoUid).inIndex ∧
      (((c.withDb s.db).audit.cat lower now videoUid).hasHash = true ↔
        (c.audit.cat lower now videoUid).hasHash = true ∨
          HashedBy lower env s videoUid) := by
  refine ⟨?_, rfl, ?_⟩
  · unfold AuditTables.cat AuditTables.masters ChainDb.audit ChainDb.withDb
    rw [h.videos]
  · show (c.withDb s.db).audit.hasHash lower (uidKey lower videoUid) = true ↔
      c.audit.hasHash lower (uidKey lower videoUid) = true ∨ _
    rw [hasHash_iff, hasHash_iff]
    constructor
    · rintro ⟨videoId, hkey, hsome⟩
      rcases h.only _ hsome with hold | ⟨row, hrow, hok, heq⟩
      · exact .inl ⟨videoId, hkey, hold⟩
      · obtain rfl : videoId = row.videoId := congrArg HashKey.videoId heq
        exact .inr ⟨row, hrow, hkey, hok⟩
    · rintro (⟨videoId, hkey, hsome⟩ | ⟨row, hrow, hkey, hok⟩)
      · exact ⟨videoId, hkey, h.kept _ hsome⟩
      · exact ⟨row.videoId, hkey, h.hashed row hrow hok⟩

end Categories

end VideoStorage.Chain
