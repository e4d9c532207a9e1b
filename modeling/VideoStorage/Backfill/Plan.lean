import VideoStorage.Backfill.Manifest
import Mathlib.Data.List.Perm.Basic
import Mathlib.Data.List.Dedup

/-!
# Planning, running and auditing the thumbnail backfill

`run` lists the bucket, skips the videos whose thumbnail is listed and those that
the manifest calls completed, and processes the others; `audit` counts what is
left over from the listing alone. A task that succeeds has uploaded one thumbnail
and appended one entry; tasks finish in any order.
-/

namespace VideoStorage.Backfill

open Foundation

structure ObjectInfo where
  key : String
  lastModified : ℤ
  deriving DecidableEq, Repr

/-! ## The plan -/

def stagedThumbnailKey (videoKey : String) : Option String :=
  (stripSuffix ".mp4" videoKey).map (· ++ "-thumbnail.png")

def isBeforeCutoff (lastModified cutoff : ℤ) : Bool := lastModified ≤ cutoff

structure ManifestIndex where
  completed : List (BackendKind × String × String)

namespace ManifestIndex

def fromEntries (entries : List ManifestEntry) : ManifestIndex where
  completed := (entries.filter fun e => e.status = .completed).map fun e =>
    (e.backend, e.bucket, e.stagedThumbnailKey)

def shouldSkipCompleted (index : ManifestIndex) (backend : BackendKind)
    (bucket stagedThumbnailKey : String) : Bool :=
  index.completed.contains (backend, bucket, stagedThumbnailKey)

end ManifestIndex

inductive PlannedAction
  | process (videoKey stagedThumbnailKey : String)
  | skipRemoteExists (videoKey stagedThumbnailKey : String)
  | skipManifestDone (videoKey stagedThumbnailKey : String)
  deriving DecidableEq, Repr

/-- Without a prefix every key is within it. -/
def withinPrefix (keyPrefix : Option String) (key : String) : Bool :=
  (keyPrefix.map fun p => startsWith p key).getD true

section Plan

variable (backend : BackendKind) (remoteStagedKeys : List String)
  (manifest : ManifestIndex) (bucket : String) (cutoffBefore : ℤ)
  (keyPrefix : Option String)

/-- What the loop over the videos pushes for one of them. -/
def planVideo (video : ObjectInfo) : Option PlannedAction :=
  if endsWith ".mp4" video.key = false then none
  else if isBeforeCutoff video.lastModified cutoffBefore = false then none
  else if withinPrefix keyPrefix video.key = false then none
  else
    match stagedThumbnailKey video.key with
    | none => none
    | some staged =>
        if remoteStagedKeys.contains staged then
          some (.skipRemoteExists video.key staged)
        else if manifest.shouldSkipCompleted backend bucket staged then
          some (.skipManifestDone video.key staged)
        else some (.process video.key staged)

def buildRunPlan (videos : List ObjectInfo) : List PlannedAction :=
  videos.filterMap
    (planVideo backend remoteStagedKeys manifest bucket cutoffBefore keyPrefix)

end Plan

/-! ## The commands -/

structure CliOptions where
  keyPrefix : Option String
  cutoffBefore : Option ℤ
  execute : Bool

structure Backend where
  kind : BackendKind
  bucketName : String

/-- The bucket, and the entries of its manifest. -/
structure World where
  objects : List ObjectInfo
  entries : List ManifestEntry

/-- A listing holds the objects whose keys have the prefix. -/
def listObjects (w : World) (keyPrefix : Option String) : List ObjectInfo :=
  w.objects.filter fun o => withinPrefix keyPrefix o.key

def isStaged (key : String) : Bool :=
  endsWith "-thumbnail.png" key && !endsWith "-bak-thumbnail.png" key

/-- `remote_staged_keys`, a set. -/
def remoteStagedKeys (objects : List ObjectInfo) : List String :=
  ((objects.filter fun o => isStaged o.key).map ObjectInfo.key).dedup

def videosOf (objects : List ObjectInfo) : List ObjectInfo :=
  objects.filter fun o => endsWith ".mp4" o.key

structure CommandSummary where
  cutoff : ℤ
  execute : Bool
  totalObjects : ℕ
  candidateVideos : ℕ
  existingStagedObjects : ℕ
  plannedProcess : ℕ := 0
  skipRemoteExists : ℕ := 0
  skipManifestDone : ℕ := 0
  dryRun : ℕ := 0
  completed : ℕ := 0
  failed : ℕ := 0
  deriving DecidableEq, Repr

structure AuditReport where
  totalObjects : ℕ
  totalCandidatesBeforeCutoff : ℕ
  totalExistingStaged : ℕ
  manifestCompleted : ℕ
  manifestFailed : ℕ
  remainingWork : ℕ
  deriving DecidableEq, Repr

/-- What a task works on. -/
structure Item where
  videoKey : String
  stagedThumbnailKey : String
  deriving DecidableEq, Repr

/-- How a task ended; an upload reported as failed may have landed. -/
inductive TaskResult
  | succeeded (uploadedAt : ℤ)
  | failed (landed : Option ℤ)
  deriving DecidableEq, Repr

def TaskResult.success : TaskResult → Bool
  | .succeeded _ => true
  | .failed _ => false

namespace PlannedAction

def isProcess : PlannedAction → Bool
  | .process _ _ => true
  | _ => false

def isSkipRemoteExists : PlannedAction → Bool
  | .skipRemoteExists _ _ => true
  | _ => false

def isSkipManifestDone : PlannedAction → Bool
  | .skipManifestDone _ _ => true
  | _ => false

/-- The task that is spawned for an action. -/
def item : PlannedAction → Option Item
  | .process videoKey stagedThumbnailKey => some ⟨videoKey, stagedThumbnailKey⟩
  | _ => none

end PlannedAction

section Commands

variable (cli : CliOptions) (backend : Backend) (w : World)

/-- The plan that `execute_run` builds at a cutoff. -/
def runPlan (cutoff : ℤ) : List PlannedAction :=
  let objects := listObjects w cli.keyPrefix
  buildRunPlan backend.kind (remoteStagedKeys objects)
    (.fromEntries w.entries) backend.bucketName cutoff cli.keyPrefix
    (videosOf objects)

/-- `execute_run`; `finished` are its tasks in the order in which they ended. -/
def executeRun (finished : List (Item × TaskResult)) :
    Except String CommandSummary :=
  match cli.cutoffBefore with
  | none => .error "run command requires cutoff_before"
  | some cutoff =>
      let objects := listObjects w cli.keyPrefix
      let plan := runPlan cli backend w cutoff
      let summary : CommandSummary := {
        cutoff, execute := cli.execute
        totalObjects := objects.length
        candidateVideos := (videosOf objects).length
        existingStagedObjects := (remoteStagedKeys objects).length
        plannedProcess := plan.countP PlannedAction.isProcess
        skipRemoteExists := plan.countP PlannedAction.isSkipRemoteExists
        skipManifestDone := plan.countP PlannedAction.isSkipManifestDone }
      if cli.execute = false then
        .ok { summary with dryRun := summary.plannedProcess }
      else
        .ok { summary with
          completed := finished.countP fun t => t.2.success
          failed := finished.countP fun t => !t.2.success }

/-- The remaining work that `execute_audit` counts at a cutoff. -/
def remainingWork (cutoff : ℤ) : ℕ :=
  let objects := listObjects w cli.keyPrefix
  let candidates := ((videosOf objects).filter fun v => v.lastModified ≤ cutoff).filter
    fun v => withinPrefix cli.keyPrefix v.key
  ((candidates.filterMap fun v => stagedThumbnailKey v.key).filter
    fun staged => !(remoteStagedKeys objects).contains staged).length

def executeAudit : Except String (AuditReport × CommandSummary) :=
  match cli.cutoffBefore with
  | none => .error "audit command requires cutoff_before"
  | some cutoff =>
      let objects := listObjects w cli.keyPrefix
      let own := w.entries.filter fun e =>
        e.backend = backend.kind ∧ e.bucket = backend.bucketName
      let report : AuditReport := {
        totalObjects := objects.length
        totalCandidatesBeforeCutoff :=
          (((videosOf objects).filter fun v => v.lastModified ≤ cutoff).filter
            fun v => withinPrefix cli.keyPrefix v.key).length
        totalExistingStaged := (remoteStagedKeys objects).length
        manifestCompleted := own.countP fun e => e.status = .completed
        manifestFailed := own.countP fun e => e.status = .failed
        remainingWork := remainingWork cli w cutoff }
      .ok (report,
        { cutoff, execute := false
          totalObjects := report.totalObjects
          candidateVideos := report.totalCandidatesBeforeCutoff
          existingStagedObjects := report.totalExistingStaged
          plannedProcess := report.remainingWork
          completed := report.manifestCompleted
          failed := report.manifestFailed })

/-! ## What a run leaves behind -/

/-- An upload replaces what has its key. -/
def upload (objects : List ObjectInfo) (key : String) (stamp : ℤ) : List ObjectInfo :=
  objects.filter (fun o => o.key ≠ key) ++ [⟨key, stamp⟩]

def Item.entry (item : Item) (status : ManifestStatus) : ManifestEntry where
  backend := backend.kind
  bucket := backend.bucketName
  sourceVideoKey := item.videoKey
  stagedThumbnailKey := item.stagedThumbnailKey
  status := status

/-- One task that ends. -/
def finish (w : World) (t : Item × TaskResult) : World :=
  match t.2 with
  | .succeeded stamp =>
      { objects := upload w.objects t.1.stagedThumbnailKey stamp
        entries := w.entries ++ [t.1.entry backend .completed] }
  | .failed landed =>
      { objects := (landed.map (upload w.objects t.1.stagedThumbnailKey)).getD w.objects
        entries := w.entries ++ [t.1.entry backend .failed] }

def afterRun (finished : List (Item × TaskResult)) : World :=
  finished.foldl (finish backend) w

/-- **Every planned item was run, in some order, and succeeded.** -/
structure AllSucceeded (cutoff : ℤ) (finished : List (Item × TaskResult)) : Prop where
  executed : cli.execute = true
  items : (finished.map Prod.fst).Perm
    ((runPlan cli backend w cutoff).filterMap PlannedAction.item)
  success : ∀ t ∈ finished, t.2.success = true

end Commands

/-! ## Eligible videos -/

/-- The thumbnails of the videos that a cutoff and a prefix select. -/
def eligible (cutoff : ℤ) (keyPrefix : Option String) (videos : List ObjectInfo) :
    List String :=
  videos.filterMap fun v =>
    if v.lastModified ≤ cutoff ∧ withinPrefix keyPrefix v.key = true then
      stagedThumbnailKey v.key
    else none

section Eligible

variable {kind : BackendKind} {remote : List String} {index : ManifestIndex}
  {bucket key staged : String} {cutoff stamp : ℤ} {keyPrefix : Option String}
  {v : ObjectInfo} {videos objects : List ObjectInfo}

theorem stagedThumbnailKey_eq_some :
    stagedThumbnailKey key = some staged ↔
      ∃ id, key = id ++ ".mp4" ∧ staged = id ++ "-thumbnail.png" := by
  unfold stagedThumbnailKey
  rw [Option.map_eq_some_iff]
  constructor
  · rintro ⟨id, hid, rfl⟩
    exact ⟨id, stripSuffix_eq_some.mp hid, rfl⟩
  · rintro ⟨id, hkey, rfl⟩
    exact ⟨id, stripSuffix_eq_some.mpr hkey, rfl⟩

/-- The action for a thumbnail. -/
def actionFor (kind : BackendKind) (remote : List String) (index : ManifestIndex)
    (bucket key staged : String) : PlannedAction :=
  if remote.contains staged then .skipRemoteExists key staged
  else if index.shouldSkipCompleted kind bucket staged then
    .skipManifestDone key staged
  else .process key staged

theorem isProcess_actionFor :
    (actionFor kind remote index bucket key staged).isProcess =
      (!remote.contains staged && !index.shouldSkipCompleted kind bucket staged) := by
  unfold actionFor
  cases remote.contains staged <;>
    cases index.shouldSkipCompleted kind bucket staged <;> rfl

theorem isSkipManifestDone_actionFor :
    (actionFor kind remote index bucket key staged).isSkipManifestDone =
      (!remote.contains staged && index.shouldSkipCompleted kind bucket staged) := by
  unfold actionFor
  cases remote.contains staged <;>
    cases index.shouldSkipCompleted kind bucket staged <;> rfl

theorem planVideo_eq :
    planVideo kind remote index bucket cutoff keyPrefix v =
      (if v.lastModified ≤ cutoff ∧ withinPrefix keyPrefix v.key = true then
        stagedThumbnailKey v.key else none).map
          (actionFor kind remote index bucket v.key) := by
  unfold planVideo isBeforeCutoff
  by_cases hselected : v.lastModified ≤ cutoff ∧ withinPrefix keyPrefix v.key = true
  · rw [if_pos hselected]
    obtain ⟨hcutoff, hwithin⟩ := hselected
    cases hstaged : stagedThumbnailKey v.key with
    | none => split_ifs <;> rfl
    | some staged =>
        obtain ⟨id, hkey, -⟩ := stagedThumbnailKey_eq_some.mp hstaged
        have hsuffix : endsWith ".mp4" v.key = true := endsWith_iff.mpr ⟨id, hkey⟩
        simp only [hsuffix, hcutoff, hwithin, decide_true, Bool.true_eq_false,
          if_false, Option.map_some, actionFor]
        split_ifs <;> rfl
  · rw [if_neg hselected, Option.map_none]
    by_cases hcutoff : v.lastModified ≤ cutoff
    · have hwithin : withinPrefix keyPrefix v.key = false := by
        simpa [hcutoff] using hselected
      simp [hwithin]
    · simp [hcutoff]

/-- What the plan holds of one kind, counted over the eligible thumbnails. -/
theorem countP_buildRunPlan {q : PlannedAction → Bool} {q' : String → Bool}
    (hq : ∀ key staged, q (actionFor kind remote index bucket key staged) = q' staged) :
    (buildRunPlan kind remote index bucket cutoff keyPrefix videos).countP q =
      (eligible cutoff keyPrefix videos).countP q' := by
  unfold buildRunPlan eligible
  induction videos with
  | nil => rfl
  | cons v videos ih =>
      rw [List.filterMap_cons, List.filterMap_cons, planVideo_eq]
      cases hstaged : (if v.lastModified ≤ cutoff ∧ withinPrefix keyPrefix v.key = true
        then stagedThumbnailKey v.key else none) with
      | none => exact ih
      | some staged =>
          show (actionFor _ _ _ _ _ _ :: _).countP q = (staged :: _).countP q'
          rw [List.countP_cons, List.countP_cons, ih, hq]

/-- The planned tasks are those of the eligible thumbnails that are neither
listed nor in the manifest. -/
theorem mem_items {item : Item} :
    item ∈ (buildRunPlan kind remote index bucket cutoff keyPrefix videos).filterMap
        PlannedAction.item →
      item.stagedThumbnailKey ∈ eligible cutoff keyPrefix videos ∧
        remote.contains item.stagedThumbnailKey = false ∧
        index.shouldSkipCompleted kind bucket item.stagedThumbnailKey = false := by
  intro h
  obtain ⟨action, haction, hitem⟩ := List.mem_filterMap.mp h
  obtain ⟨v, hv, hplan⟩ := List.mem_filterMap.mp haction
  rw [planVideo_eq] at hplan
  obtain ⟨staged, hstaged, rfl⟩ := Option.map_eq_some_iff.mp hplan
  unfold actionFor at hitem
  split_ifs at hitem with hremote hindex
  · cases hitem
  · cases hitem
  · obtain rfl := Option.some.inj hitem
    exact ⟨List.mem_filterMap.mpr ⟨v, hv, hstaged⟩, Bool.not_eq_true _ ▸ hremote,
      Bool.not_eq_true _ ▸ hindex⟩

theorem exists_item (h : staged ∈ eligible cutoff keyPrefix videos)
    (hremote : remote.contains staged = false)
    (hindex : index.shouldSkipCompleted kind bucket staged = false) :
    ∃ item ∈ (buildRunPlan kind remote index bucket cutoff keyPrefix videos).filterMap
      PlannedAction.item, item.stagedThumbnailKey = staged := by
  obtain ⟨v, hv, hstaged⟩ := List.mem_filterMap.mp h
  refine ⟨⟨v.key, staged⟩, ?_, rfl⟩
  refine List.mem_filterMap.mpr ⟨.process v.key staged, ?_, rfl⟩
  refine List.mem_filterMap.mpr ⟨v, hv, ?_⟩
  rw [planVideo_eq, hstaged]
  simp only [Option.map_some, actionFor, hremote, hindex, Bool.false_eq_true, if_false]

theorem endsWith_thumbnail (h : stagedThumbnailKey key = some staged) :
    endsWith ".mp4" staged = false := by
  obtain ⟨id, -, rfl⟩ := stagedThumbnailKey_eq_some.mp h
  rw [← Bool.not_eq_true, endsWith_iff]
  rintro ⟨rest, hrest⟩
  -- one ends in `g`, the other in `4`
  have hpng : (id ++ "-thumbnail.png").toList.getLast? = some 'g' :=
    getLast?_toList_append (by decide)
  have hmp4 : (rest ++ ".mp4").toList.getLast? = some '4' :=
    getLast?_toList_append (by decide)
  rw [hrest, hmp4] at hpng
  exact absurd (Option.some.inj hpng) (by decide)

end Eligible

end VideoStorage.Backfill
