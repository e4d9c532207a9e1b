import VideoStorage.Backfill.Plan

/-!
# Run and audit of the backfill

What the audit counts as remaining, against the plan of a run on the same bucket,
before the run and after one in which every task succeeded.
-/

namespace VideoStorage.Backfill

open Foundation

/-! ## The bucket and the manifest after a run -/

section AfterRun

variable {cli : CliOptions} {backend : Backend} {w : World} {cutoff stamp : ℤ}
  {key staged : String} {keyPrefix : Option String} {objects : List ObjectInfo}
  {finished : List (Item × TaskResult)}

theorem videosOf_upload (h : endsWith ".mp4" key = false) :
    videosOf ((upload objects key stamp).filter fun o => withinPrefix keyPrefix o.key) =
      videosOf (objects.filter fun o => withinPrefix keyPrefix o.key) := by
  unfold videosOf upload
  rw [List.filter_append, List.filter_append, List.filter_filter, List.filter_filter,
    List.filter_filter]
  have hnew : [ObjectInfo.mk key stamp].filter
      (fun o => endsWith ".mp4" o.key && withinPrefix keyPrefix o.key) = [] := by
    simp [h]
  rw [hnew, List.append_nil, List.filter_filter]
  refine List.filter_congr fun o _ => ?_
  by_cases hkey : o.key = key
  · simp [hkey, h]
  · simp [hkey]

theorem keys_upload :
    key ∈ (upload objects staged stamp).map ObjectInfo.key ↔
      key ∈ objects.map ObjectInfo.key ∨ key = staged := by
  unfold upload
  rw [List.map_append, List.mem_append]
  constructor
  · rintro (h | h)
    · obtain ⟨o, ho, rfl⟩ := List.mem_map.mp h
      exact .inl (List.mem_map_of_mem (List.mem_of_mem_filter ho))
    · exact .inr (List.mem_singleton.mp h)
  · rintro (h | rfl)
    · obtain ⟨o, ho, rfl⟩ := List.mem_map.mp h
      by_cases hkey : o.key = staged
      · exact .inr (List.mem_singleton.mpr hkey)
      · exact .inl (List.mem_map_of_mem (List.mem_filter.mpr ⟨ho, decide_eq_true hkey⟩))
    · exact .inr List.mem_cons_self

/-- Thumbnails are no videos. -/
theorem videosOf_afterRun
    (h : ∀ t ∈ finished, endsWith ".mp4" t.1.stagedThumbnailKey = false) :
    videosOf (listObjects (afterRun backend w finished) keyPrefix) =
      videosOf (listObjects w keyPrefix) := by
  induction finished generalizing w with
  | nil => rfl
  | cons t finished ih =>
      have ht := h t List.mem_cons_self
      show videosOf (listObjects (afterRun backend (finish backend w t) finished) _) = _
      rw [ih fun u hu => h u (List.mem_cons_of_mem t hu)]
      unfold listObjects finish
      cases t.2 with
      | succeeded stamp => exact videosOf_upload ht
      | failed landed =>
          cases landed with
          | none => rfl
          | some stamp => exact videosOf_upload ht

theorem keys_afterRun (h : ∀ t ∈ finished, t.2.success = true) :
    key ∈ (afterRun backend w finished).objects.map ObjectInfo.key ↔
      key ∈ w.objects.map ObjectInfo.key ∨
        ∃ t ∈ finished, t.1.stagedThumbnailKey = key := by
  induction finished generalizing w with
  | nil => simp [afterRun]
  | cons t finished ih =>
      show key ∈ (afterRun backend (finish backend w t) finished).objects.map _ ↔ _
      rw [ih fun u hu => h u (List.mem_cons_of_mem t hu)]
      have ht := h t List.mem_cons_self
      obtain ⟨item, result⟩ := t
      cases result with
      | failed landed => cases ht
      | succeeded stamp =>
          show key ∈ (upload w.objects _ stamp).map _ ∨ _ ↔ _
          rw [keys_upload, List.exists_mem_cons_iff, or_assoc, eq_comm]

theorem skip_fromEntries {entries : List ManifestEntry} {kind : BackendKind}
    {bucket : String} :
    (ManifestIndex.fromEntries entries).shouldSkipCompleted kind bucket staged = true ↔
      ∃ e ∈ entries, e.status = .completed ∧ e.backend = kind ∧ e.bucket = bucket ∧
        e.stagedThumbnailKey = staged := by
  unfold ManifestIndex.shouldSkipCompleted ManifestIndex.fromEntries
  rw [List.contains_iff_mem, List.mem_map]
  simp only [List.mem_filter, decide_eq_true_eq, Prod.mk.injEq, and_assoc]

theorem entries_afterRun (h : ∀ t ∈ finished, t.2.success = true) :
    (afterRun backend w finished).entries =
      w.entries ++ finished.map fun t => t.1.entry backend .completed := by
  induction finished generalizing w with
  | nil => exact (List.append_nil _).symm
  | cons t finished ih =>
      show (afterRun backend (finish backend w t) finished).entries = _
      rw [ih fun u hu => h u (List.mem_cons_of_mem t hu)]
      have ht := h t List.mem_cons_self
      obtain ⟨item, result⟩ := t
      cases result with
      | failed landed => cases ht
      | succeeded stamp => exact List.append_assoc _ _ _

theorem skip_afterRun (h : ∀ t ∈ finished, t.2.success = true) :
    (ManifestIndex.fromEntries (afterRun backend w finished).entries).shouldSkipCompleted
        backend.kind backend.bucketName staged = true ↔
      (ManifestIndex.fromEntries w.entries).shouldSkipCompleted
          backend.kind backend.bucketName staged = true ∨
        ∃ t ∈ finished, t.1.stagedThumbnailKey = staged := by
  rw [skip_fromEntries, skip_fromEntries, entries_afterRun h]
  constructor
  · rintro ⟨e, he, hcompleted, hkind, hbucket, rfl⟩
    rcases List.mem_append.mp he with he | he
    · exact .inl ⟨e, he, hcompleted, hkind, hbucket, rfl⟩
    · obtain ⟨t, ht, rfl⟩ := List.mem_map.mp he
      exact .inr ⟨t, ht, rfl⟩
  · rintro (⟨e, he, hskip⟩ | ⟨t, ht, rfl⟩)
    · exact ⟨e, List.mem_append_left _ he, hskip⟩
    · exact ⟨_, List.mem_append_right _ (List.mem_map_of_mem ht), rfl, rfl, rfl, rfl⟩

theorem mem_remoteStagedKeys :
    (remoteStagedKeys (listObjects w keyPrefix)).contains staged = true ↔
      staged ∈ w.objects.map ObjectInfo.key ∧ withinPrefix keyPrefix staged = true ∧
        isStaged staged = true := by
  unfold remoteStagedKeys listObjects
  rw [List.contains_iff_mem, List.mem_dedup, List.mem_map]
  constructor
  · rintro ⟨o, ho, rfl⟩
    obtain ⟨ho, hstaged⟩ := List.mem_filter.mp ho
    obtain ⟨ho, hwithin⟩ := List.mem_filter.mp ho
    exact ⟨List.mem_map_of_mem ho, hwithin, hstaged⟩
  · rintro ⟨hkey, hwithin, hstaged⟩
    obtain ⟨o, ho, rfl⟩ := List.mem_map.mp hkey
    exact ⟨o, List.mem_filter.mpr ⟨List.mem_filter.mpr ⟨ho, hwithin⟩, hstaged⟩, rfl⟩

end AfterRun

/-! ## Remaining work against the plan -/

section Agreement

variable {cli : CliOptions} {backend : Backend} {w : World} {cutoff : ℤ}
  {finished : List (Item × TaskResult)}

theorem remainingWork_eq :
    remainingWork cli w cutoff =
      (eligible cutoff cli.keyPrefix (videosOf (listObjects w cli.keyPrefix))).countP
        fun staged =>
          !(remoteStagedKeys (listObjects w cli.keyPrefix)).contains staged := by
  unfold remainingWork eligible
  dsimp only
  rw [List.countP_eq_length_filter, List.filterMap_filter, List.filterMap_filter]
  congr 2
  refine List.filterMap_congr fun v _ => ?_
  by_cases hwithin : withinPrefix cli.keyPrefix v.key = true
  · by_cases hcutoff : v.lastModified ≤ cutoff
    · simp [hwithin, hcutoff]
    · simp [hcutoff]
  · simp [hwithin]

/-- **The audit goes by the bucket**: what it counts is processed by the plan, or
skipped on the word of the manifest. -/
theorem remainingWork_plan :
    remainingWork cli w cutoff =
      (runPlan cli backend w cutoff).countP PlannedAction.isProcess +
        (runPlan cli backend w cutoff).countP PlannedAction.isSkipManifestDone := by
  unfold runPlan
  dsimp only
  rw [remainingWork_eq, countP_buildRunPlan fun _ _ => isProcess_actionFor,
    countP_buildRunPlan fun _ _ => isSkipManifestDone_actionFor, Nat.add_comm]
  rw [List.countP_eq_countP_filter_add _ _
    ((ManifestIndex.fromEntries w.entries).shouldSkipCompleted backend.kind
      backend.bucketName), List.countP_filter, List.countP_filter]

/-- The listing shows every thumbnail that the plan uploads as a staged one: it is
within the prefix and does not look like a backup. -/
def UploadsListed (cli : CliOptions) (backend : Backend) (w : World) (cutoff : ℤ) :
    Prop :=
  ∀ item ∈ (runPlan cli backend w cutoff).filterMap PlannedAction.item,
    withinPrefix cli.keyPrefix item.stagedThumbnailKey = true ∧
      isStaged item.stagedThumbnailKey = true

theorem mem_finished (h : AllSucceeded cli backend w cutoff finished) {item : Item} :
    (∃ t ∈ finished, t.1 = item) ↔
      item ∈ (runPlan cli backend w cutoff).filterMap PlannedAction.item := by
  rw [← h.items.mem_iff, List.mem_map]

/-- A run uploads thumbnails and nothing else. -/
theorem videosOf_run (h : AllSucceeded cli backend w cutoff finished) :
    videosOf (listObjects (afterRun backend w finished) cli.keyPrefix) =
      videosOf (listObjects w cli.keyPrefix) := by
  refine videosOf_afterRun fun t ht => ?_
  obtain ⟨hmem, -⟩ := mem_items ((mem_finished h).mp ⟨t, ht, rfl⟩)
  obtain ⟨v, -, hv⟩ := List.mem_filterMap.mp hmem
  split_ifs at hv
  exact endsWith_thumbnail hv

/-- An eligible thumbnail is listed, in the manifest, or uploaded by the run. -/
theorem eligible_cases (h : AllSucceeded cli backend w cutoff finished) {staged : String}
    (hmem : staged ∈ eligible cutoff cli.keyPrefix
      (videosOf (listObjects w cli.keyPrefix))) :
    (remoteStagedKeys (listObjects w cli.keyPrefix)).contains staged = true ∨
      (ManifestIndex.fromEntries w.entries).shouldSkipCompleted backend.kind
        backend.bucketName staged = true ∨
      ∃ t ∈ finished, t.1.stagedThumbnailKey = staged := by
  by_cases hlisted : (remoteStagedKeys (listObjects w cli.keyPrefix)).contains staged = true
  · exact .inl hlisted
  · by_cases hdone : (ManifestIndex.fromEntries w.entries).shouldSkipCompleted
        backend.kind backend.bucketName staged = true
    · exact .inr (.inl hdone)
    · obtain ⟨item, hitem, rfl⟩ := exists_item hmem (Bool.not_eq_true _ ▸ hlisted)
        (Bool.not_eq_true _ ▸ hdone)
      obtain ⟨t, ht, rfl⟩ := (mem_finished h).mpr hitem
      exact .inr (.inr ⟨t, ht, rfl⟩)

/-- What is listed stays listed. -/
theorem listed_afterRun (h : AllSucceeded cli backend w cutoff finished) {staged : String} :
    (remoteStagedKeys (listObjects (afterRun backend w finished) cli.keyPrefix)).contains
        staged = true ↔
      (remoteStagedKeys (listObjects w cli.keyPrefix)).contains staged = true ∨
        (∃ t ∈ finished, t.1.stagedThumbnailKey = staged) ∧
          withinPrefix cli.keyPrefix staged = true ∧ isStaged staged = true := by
  rw [mem_remoteStagedKeys, mem_remoteStagedKeys, keys_afterRun h.success, or_and_right]

/-- **After a run of successes nothing is planned.** -/
theorem no_process_after (h : AllSucceeded cli backend w cutoff finished) :
    (runPlan cli backend (afterRun backend w finished) cutoff).countP
      PlannedAction.isProcess = 0 := by
  unfold runPlan
  dsimp only
  rw [countP_buildRunPlan fun _ _ => isProcess_actionFor, videosOf_run h,
    List.countP_eq_zero]
  intro staged hmem
  rw [Bool.and_eq_true, Bool.not_eq_true', Bool.not_eq_true']
  rintro ⟨hlisted, hdone⟩
  rcases eligible_cases h hmem with hbefore | hbefore | huploaded
  · rw [(listed_afterRun h).mpr (.inl hbefore)] at hlisted
    cases hlisted
  · rw [(skip_afterRun h.success).mpr (.inl hbefore)] at hdone
    cases hdone
  · rw [(skip_afterRun h.success).mpr (.inr huploaded)] at hdone
    cases hdone

/-- **After a run of successes the audit counts what the manifest alone vouched
for**, when the listing shows what was uploaded. -/
theorem remainingWork_after (h : AllSucceeded cli backend w cutoff finished)
    (huploads : UploadsListed cli backend w cutoff) :
    remainingWork cli (afterRun backend w finished) cutoff =
      (runPlan cli backend w cutoff).countP PlannedAction.isSkipManifestDone := by
  unfold runPlan
  dsimp only
  rw [remainingWork_eq, countP_buildRunPlan fun _ _ => isSkipManifestDone_actionFor,
    videosOf_run h]
  refine List.countP_congr fun staged hmem => ?_
  rw [Bool.and_eq_true, Bool.not_eq_true', Bool.not_eq_true', ← Bool.not_eq_true,
    ← Bool.not_eq_true, listed_afterRun h, not_or]
  constructor
  · rintro ⟨hlisted, hupload⟩
    refine ⟨hlisted, ?_⟩
    rcases eligible_cases h hmem with hbefore | hbefore | ⟨t, ht, rfl⟩
    · exact absurd hbefore hlisted
    · exact hbefore
    · exact absurd ⟨⟨t, ht, rfl⟩, huploads t.1 ((mem_finished h).mp ⟨t, ht, rfl⟩)⟩ hupload
  · rintro ⟨hlisted, hdone⟩
    refine ⟨hlisted, ?_⟩
    rintro ⟨⟨t, ht, rfl⟩, -⟩
    -- a planned thumbnail was not in the manifest
    obtain ⟨-, -, hnot⟩ := mem_items ((mem_finished h).mp ⟨t, ht, rfl⟩)
    rw [hdone] at hnot
    cases hnot

/-- What the two commands report on one bucket and manifest. -/
structure Reports (cli : CliOptions) (backend : Backend) (w : World)
    (finished : List (Item × TaskResult)) (run : CommandSummary) (audit : AuditReport) :
    Prop where
  run : executeRun cli backend w finished = .ok run
  audit : (executeAudit cli backend w).map Prod.fst = .ok audit

theorem exists_reports (hcutoff : cli.cutoffBefore = some cutoff) :
    ∃ run audit, Reports cli backend w finished run audit ∧
      run.plannedProcess = (runPlan cli backend w cutoff).countP PlannedAction.isProcess ∧
      run.skipManifestDone =
        (runPlan cli backend w cutoff).countP PlannedAction.isSkipManifestDone ∧
      audit.remainingWork = remainingWork cli w cutoff := by
  have haudit : ∃ audit, (executeAudit cli backend w).map Prod.fst = .ok audit ∧
      audit.remainingWork = remainingWork cli w cutoff := by
    unfold executeAudit
    rw [hcutoff]
    exact ⟨_, rfl, rfl⟩
  obtain ⟨audit, haudit, hremaining⟩ := haudit
  have hrun : ∃ run, executeRun cli backend w finished = .ok run ∧
      run.plannedProcess = (runPlan cli backend w cutoff).countP PlannedAction.isProcess ∧
      run.skipManifestDone =
        (runPlan cli backend w cutoff).countP PlannedAction.isSkipManifestDone := by
    unfold executeRun
    rw [hcutoff]
    dsimp only
    split_ifs
    · exact ⟨_, rfl, rfl, rfl⟩
    · exact ⟨_, rfl, rfl, rfl⟩
  obtain ⟨run, hrun, hplanned, hskipped⟩ := hrun
  exact ⟨run, audit, ⟨hrun, haudit⟩, hplanned, hskipped, hremaining⟩

/-- **Run and audit.** The audit's remaining work is what the run would process and
what it skips on the word of the manifest alone. After a run of successes
nothing is planned any more, and the audit is left with the latter. -/
theorem run_and_audit (cli : CliOptions) (backend : Backend) (w : World) (cutoff : ℤ)
    (tasks : List (Item × TaskResult)) (hcutoff : cli.cutoffBefore = some cutoff) :
    ∃ run audit, Reports cli backend w tasks run audit ∧
      audit.remainingWork = run.plannedProcess + run.skipManifestDone ∧
      ∀ finished later, AllSucceeded cli backend w cutoff finished →
        ∃ run' audit',
          Reports cli backend (afterRun backend w finished) later run' audit' ∧
          run'.plannedProcess = 0 ∧
          (UploadsListed cli backend w cutoff →
            audit'.remainingWork = run.skipManifestDone) := by
  obtain ⟨run, audit, hreports, hplanned, hskipped, hremaining⟩ := exists_reports hcutoff
  refine ⟨run, audit, hreports, ?_, ?_⟩
  · rw [hremaining, hplanned, hskipped]
    exact remainingWork_plan
  · intro finished later hall
    obtain ⟨run', audit', hreports', hplanned', -, hremaining'⟩ := exists_reports hcutoff
    refine ⟨run', audit', hreports', ?_, ?_⟩
    · rw [hplanned']
      exact no_process_after hall
    · intro huploads
      rw [hremaining', hskipped]
      exact remainingWork_after hall huploads

end Agreement

/-! ## Concrete buckets -/

def storjBucket : Backend where
  kind := .storj
  bucketName := "bucket-a"

def withPrefix (keyPrefix : Option String) : CliOptions where
  keyPrefix := keyPrefix
  cutoffBefore := some 0
  execute := true

def oneVideo (name : String) (entries : List ManifestEntry) : World where
  objects := [⟨s!"publisher/{name}.mp4", 0⟩]
  entries := entries

def uploaded (name : String) : List (Item × TaskResult) :=
  [(⟨s!"publisher/{name}.mp4", s!"publisher/{name}-thumbnail.png"⟩, .succeeded 1)]

theorem run_and_audit_one_video :
    ∃ run audit, Reports (withPrefix none) storjBucket (oneVideo "video-1" []) [] run audit ∧
      audit.remainingWork = run.plannedProcess + run.skipManifestDone ∧
      ∃ run' audit',
        Reports (withPrefix none) storjBucket
          (afterRun storjBucket (oneVideo "video-1" []) (uploaded "video-1")) []
          run' audit' ∧
        run'.plannedProcess = 0 ∧ audit'.remainingWork = run.skipManifestDone := by
  obtain ⟨run, audit, hreports, hremaining, hafter⟩ :=
    run_and_audit (withPrefix none) storjBucket (oneVideo "video-1" []) 0 [] rfl
  obtain ⟨run', audit', hreports', hplanned, hdone⟩ :=
    hafter (uploaded "video-1") [] ⟨rfl, by decide +kernel, by decide⟩
  exact ⟨run, audit, hreports, hremaining, run', audit', hreports', hplanned,
    hdone (by unfold UploadsListed; decide +kernel)⟩

/-- **The audit does not ask the manifest.** A video that only the manifest calls
completed is nothing to the run and one to the audit, also after the run; and
two kinds of upload do not show as staged: a thumbnail that looks like a backup,
and one outside a prefix that reaches into the extension. -/
theorem audit_counts_more :
    ((executeRun (withPrefix none) storjBucket
          (oneVideo "video-1" [thumbnailEntry "video-1"]) []).map
            CommandSummary.plannedProcess = .ok 0 ∧
        (executeAudit (withPrefix none) storjBucket
          (oneVideo "video-1" [thumbnailEntry "video-1"])).map
            (fun r => r.1.remainingWork) = .ok 1) ∧
      (AllSucceeded (withPrefix none) storjBucket (oneVideo "video-bak" []) 0
          (uploaded "video-bak") ∧
        (executeAudit (withPrefix none) storjBucket
          (afterRun storjBucket (oneVideo "video-bak" []) (uploaded "video-bak"))).map
            (fun r => r.1.remainingWork) = .ok 1) ∧
      (AllSucceeded (withPrefix (some "publisher/video-1.")) storjBucket
          (oneVideo "video-1" []) 0 (uploaded "video-1") ∧
        (executeAudit (withPrefix (some "publisher/video-1.")) storjBucket
          (afterRun storjBucket (oneVideo "video-1" []) (uploaded "video-1"))).map
            (fun r => r.1.remainingWork) = .ok 1) := by
  refine ⟨⟨rfl, rfl⟩, ⟨⟨rfl, by decide +kernel, by decide⟩, rfl⟩,
    ⟨rfl, by decide +kernel, by decide⟩, rfl⟩

end VideoStorage.Backfill
