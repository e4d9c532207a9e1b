import VideoStorage.Jobs.MediaPhashFailures
import VideoStorage.Jobs.Mirror
import VideoStorage.Jobs.PhashBackfill

/-!
# The settings of the jobs

What a limit means to the batch jobs, which look at it only while they record
(`limited_runs_iff`), and what `update_config` may do to the jobs that read its
three values as a `LIMIT` and as stream widths (`jobs_work_iff`).
-/

namespace VideoStorage.Jobs

open Db Foundation MediaIndex

/-! ## Limits -/

/-- **Limited runs** of the mirror and of the hash backfill: `limit` bounds the
attempts, and each is recorded, exactly when in every round what is recorded so
far and the next batch together keep to it. -/
theorem limited_runs_iff (n : ℕ) (hn : 1 ≤ n) (t : VideoTables) :
    (∀ env : BatchEnv Mirror.Outcome, env.limit = some n →
      (BoundedRun Mirror.job env t n ↔ env.concurrency = 0 ∨
        ∀ fuel, ∀ s ∈ Mirror.job.roundsOf env t fuel, Fits Mirror.pending env n s)) ∧
    ∀ (maxRetries : ℤ) (env : BatchEnv PhashBackfill.Outcome), env.limit = some n →
      (BoundedRun (PhashBackfill.job maxRetries) env t n ↔ env.concurrency = 0 ∨
        ∀ fuel, ∀ s ∈ (PhashBackfill.job maxRetries).roundsOf env t fuel,
          Fits PhashBackfill.pending env n s) := by
  constructor
  · intro env hlimit
    exact bounded_iff hlimit hn fun _ _ _ => rfl
  · intro maxRetries env hlimit
    exact bounded_iff hlimit hn fun _ _ _ => rfl

/-- Two videos, scanned and hashed. -/
def twoHashed : VideoTables :=
  updatePhashSuccess "w" "0101" "phash" "legacy_hex_8x8_v0"
    (upsertHetznerKey "w" "u/w.mp4" false Mirror.oneHashed)

/-- A run that is to mirror one video. -/
def mirrorOne : BatchEnv Mirror.Outcome :=
  { Mirror.always (.ok ()) with limit := some 1 }

/-- A page of one video at a time, for at most two. -/
def mirrorTwo : BatchEnv Mirror.Outcome :=
  { Mirror.always (.ok ()) with
    limit := some 2
    pageSize := 1 }

def threeHashed : VideoTables :=
  updatePhashSuccess "x" "1111" "phash" "legacy_hex_8x8_v0"
    (upsertHetznerKey "x" "u/x.mp4" false twoHashed)

/-- With pages of one video a limit of two is kept: of three videos two are copied, and
both are recorded. -/
theorem limited_runs_two : BoundedRun Mirror.job mirrorTwo threeHashed 2 ∧
    Mirror.job.records mirrorTwo threeHashed 2
      = [(⟨"x", "u/x.mp4"⟩, .ok ()), (⟨"w", "u/w.mp4"⟩, .ok ())] := by
  have hends : (Mirror.run mirrorTwo threeHashed 2).isSome := by decide
  obtain ⟨r, hr⟩ := Option.isSome_iff_exists.mp hends
  have hrounds : ∀ s ∈ Mirror.job.roundsOf mirrorTwo threeHashed 2,
      Fits Mirror.pending mirrorTwo 2 s := by
    unfold Fits
    decide
  refine ⟨((limited_runs_iff 2 (by decide) threeHashed).1 mirrorTwo rfl).mpr
    (.inr fun fuel s hs => hrounds s (visited_subset hr fuel hs)), by decide⟩

/-- **A limit of one, two videos**: both are copied, and one is recorded. -/
theorem limited_run_unrecorded : ∃ s,
    Mirror.run mirrorOne twoHashed 1 = some (.ok (.limitReached, s)) ∧
      Mirror.job.attempts mirrorOne twoHashed 1
        = [⟨"w", "u/w.mp4"⟩, ⟨"v", "u/v.mp4"⟩] ∧
      Mirror.job.records mirrorOne twoHashed 1 = [(⟨"w", "u/w.mp4"⟩, .ok ())] :=
  ⟨_, rfl, by decide, by decide⟩

/-! ## Settings -/

/-- The three values that `update_config` stores and `get_config` reports. -/
structure Config where
  phashConcurrency : ℕ
  mirrorConcurrency : ℕ
  scanPageSize : ℤ
  deriving DecidableEq, Repr

structure ConfigUpdate where
  phashConcurrency : Option ℕ := none
  mirrorConcurrency : Option ℕ := none
  scanPageSize : Option ℤ := none
  deriving DecidableEq, Repr

/-- `PHASH_CONCURRENCY`, `MIRROR_CONCURRENCY` and `SCAN_PAGE_SIZE` of the
environment, where they are set and parse, or the defaults. -/
def Config.ofEnv (env : ConfigUpdate) : Config where
  phashConcurrency := env.phashConcurrency.getD 10
  mirrorConcurrency := env.mirrorConcurrency.getD 30
  scanPageSize := env.scanPageSize.getD 2500

/-- Whatever value is given is stored. -/
def updateConfig (config : Config) (payload : ConfigUpdate) : Config where
  phashConcurrency := payload.phashConcurrency.getD config.phashConcurrency
  mirrorConcurrency := payload.mirrorConcurrency.getD config.mirrorConcurrency
  scanPageSize := payload.scanPageSize.getD config.scanPageSize

/-- The settings after requests in this order. -/
def configured (env : ConfigUpdate) (updates : List ConfigUpdate) : Config :=
  updates.foldl updateConfig (.ofEnv env)

/-- The value a setting was last given, or what it was at the start. -/
def lastGiven {α : Type} (field : ConfigUpdate → Option α)
    (updates : List ConfigUpdate) (start : α) : α :=
  (updates.filterMap field).getLast?.getD start

/-! ### What a round is to do -/

/-- The page query answers rows, all of them are worked on, and the round neither
comes to nothing nor ends the run with `Ok`. -/
structure PageDone {Row σ ρ : Type} (query : Except SqlError (List Row))
    (worked : List Row) (round : σ ⊕ ρ) (s : σ) (success : ρ) : Prop where
  page : ∃ rows, query = .ok rows ∧ rows ≠ [] ∧ worked.Perm rows
  goesOn : round ≠ .inl s
  notOver : round ≠ .inr success

/-- `PageDone` in every round of a batch job that has rows to select. -/
def BatchWorks {Outcome : Type} (job : BatchJob Outcome)
    (selectable : VideoTables → List VideoRow) (pageSize : ℤ) (concurrency : ℕ) :
    Prop :=
  ∀ env : BatchEnv Outcome, env.pageSize = pageSize →
    env.concurrency = concurrency → ∀ s, env.cancelled s.rounds = false →
    selectable s.tables ≠ [] →
    PageDone (job.batch env s) (job.attempted env s) (batchStep job env s) s
      (.ok (.complete, s))

/-- The rows of a page as the stream of `media_phash` hands them out. -/
def workedRows (env : MediaPhash.RunEnv) (s : MediaPhash.RunState) :
    List MissingHashRow :=
  if env.concurrency = 0 then []
  else
    match MediaPhash.fetchPage env s with
    | .ok rows => (env.finished s.time).apply rows
    | .error _ => []

/-- `PageDone` in every round of `media_phash` that the limit leaves something
and that has rows past the cursor: the page query without its `LIMIT` tells. -/
def MediaPhashWorks (pageSize : ℤ) (concurrency : ℕ) : Prop :=
  ∀ env : MediaPhash.RunEnv, env.pageSize = pageSize →
    env.concurrency = concurrency → ∀ s : MediaPhash.RunState,
    env.cancelled s.time = false → (∀ r ∈ s.remaining env, 0 < r) →
    (∃ rows, videosMissingCanonicalPhash env.query (env.clock s.time) s.after none
      s.db.tables s.db.failures = .ok rows ∧ rows ≠ []) →
    PageDone (MediaPhash.fetchPage env s) (workedRows env s)
      (MediaPhash.runStep env s) s (s.finish false)

/-- The three jobs do their work under a configuration. -/
structure JobsWork (maxRetries : ℤ) (config : Config) : Prop where
  mediaPhash : MediaPhashWorks config.scanPageSize config.phashConcurrency
  phashBackfill : BatchWorks (PhashBackfill.job maxRetries) PhashBackfill.pending
    config.scanPageSize config.phashConcurrency
  mirror : BatchWorks Mirror.job Mirror.pending config.scanPageSize
    config.mirrorConcurrency

section Settings

variable {Outcome : Type} {job : BatchJob Outcome}
  {selectable : VideoTables → List VideoRow} {pageSize : ℤ} {concurrency : ℕ}

theorem recordResults_rounds {env : BatchEnv Outcome} {rows : List VideoRow}
    {s s' : BatchState} {full : Bool}
    (h : recordResults job env rows s = .ok (full, s')) : s'.rounds = s.rounds := by
  induction rows generalizing s with
  | nil =>
      cases h
      rfl
  | cons row rows ih =>
      unfold recordResults at h
      cases hrec : job.record row (env.outcome s.grandTotal) s.tables with
      | error e =>
          rw [hrec] at h
          cases h
      | ok t =>
          rw [hrec] at h
          dsimp only at h
          split_ifs at h
          · cases h
            rfl
          · exact @ih { s with tables := t, grandTotal := s.grandTotal + 1 } h

theorem batchWorks
    (hfetch : ∀ order limit t,
      job.fetch order limit t = fetchBatch order limit (selectable t))
    (hsize : 0 < pageSize) (hslots : 0 < concurrency) :
    BatchWorks job selectable pageSize concurrency := by
  rintro env rfl rfl s hcancel hne
  have hbatch : job.batch env s = .ok (((env.selected s.rounds).apply
      (selectable s.tables)).take env.pageSize.toNat) :=
    (hfetch ..).trans (fetchBatch_eq_ok.mpr ⟨hsize.le, rfl⟩)
  have hrows : ((env.selected s.rounds).apply (selectable s.tables)).take
      env.pageSize.toNat ≠ [] := by
    intro hnil
    rw [hnil] at hbatch
    exact hne ((fetchBatch_eq_nil hsize).mp ((hfetch ..).symm.trans hbatch))
  have hround := batchRound_of_running job hcancel
  constructor
  · refine ⟨_, hbatch, hrows, ?_⟩
    rw [attempted_of_batch hcancel hslots.ne' hbatch]
    exact (env.finished s.rounds).perm _
  · intro hstep
    rw [hstep] at hround
    cases hround with
    | stuck _ _ _ hzero => omega
    | next _ _ _ _ _ hrec =>
        have hrounds := recordResults_rounds hrec
        simp at hrounds
  · intro hstep
    rw [hstep] at hround
    cases hround with
    | complete hnil => exact hrows (Except.ok.inj (hbatch.symm.trans hnil))

/-- A batch job works exactly if its pages and its stream are not empty. -/
theorem batchWorks_iff
    (hfetch : ∀ order limit t,
      job.fetch order limit t = fetchBatch order limit (selectable t))
    (outcome : Outcome) {t : VideoTables} (ht : selectable t ≠ []) :
    BatchWorks job selectable pageSize concurrency ↔
      0 < pageSize ∧ 0 < concurrency := by
  constructor
  · intro h
    have hdone := h {
      limit := none
      pageSize := pageSize
      concurrency := concurrency
      cancelled := fun _ => false
      outcome := fun _ => outcome
      selected := fun _ => .none
      finished := fun _ => .none } rfl rfl { tables := t } rfl ht
    obtain ⟨rows, hrows, hne, hperm⟩ := hdone.page
    obtain ⟨hsize, hpage⟩ := fetchBatch_eq_ok.mp ((hfetch ..).symm.trans hrows)
    constructor
    · -- no row fits a page of size zero
      by_contra hle
      apply hne
      rw [hpage]
      dsimp only
      rw [show pageSize.toNat = 0 by omega, List.take_zero]
    · by_contra hzero
      have hattempted := @attempted_of_noSlots _ job {
        limit := none
        pageSize := pageSize
        concurrency := concurrency
        cancelled := fun _ => false
        outcome := fun _ => outcome
        selected := fun _ => .none
        finished := fun _ => .none } (by simpa using hzero)
      rw [hattempted] at hperm
      exact hne (List.nil_perm.mp hperm)
  · rintro ⟨hsize, hslots⟩
    exact batchWorks hfetch hsize hslots

theorem fetchPage_ne_nil {env : MediaPhash.RunEnv} {s : MediaPhash.RunState}
    {rows : List MissingHashRow} (hlimit : 0 < s.batchLimit env)
    (hrows : videosMissingCanonicalPhash env.query (env.clock s.time) s.after none
      s.db.tables s.db.failures = .ok rows) (hne : rows ≠ []) :
    ∃ page, MediaPhash.fetchPage env s = .ok page ∧ page ≠ [] := by
  obtain ⟨n, sel, hn, hsel, rfl⟩ := videosMissing_ok hrows
  obtain rfl := Except.ok.inj hn
  have hsome : sel ≠ [] := by
    rintro rfl
    exact hne rfl
  refine ⟨orderLimit MissingHashRow.videoId (some (s.batchLimit env).toNat) sel, ?_,
    fun hnil => hsome (orderLimit_eq_nil ?_ hnil)⟩
  · unfold MediaPhash.fetchPage videosMissingCanonicalPhash
    rw [limitOf_of_le (n := 0) hlimit.le, hsel]
    rfl
  · simp only [ne_eq, Option.some.injEq]
    omega

theorem persistRows_time {env : MediaPhash.RunEnv} {s s' : MediaPhash.RunState}
    {rows : List MissingHashRow} {c : Bool}
    (h : MediaPhash.persistRows env rows s = .ok (c, s')) : s.time ≤ s'.time := by
  obtain ⟨rest, htime, -⟩ := MediaPhash.persistRows_rule
    (fun t _ => s.time ≤ t.time)
    (fun t row rows db' summary ht _ => Nat.le_succ_of_le ht) (le_refl _) h
  exact htime

/-- `media_phash` works with pages and a stream that are not empty. -/
theorem mediaPhashWorks (hsize : 0 < pageSize) (hslots : 0 < concurrency) :
    MediaPhashWorks pageSize concurrency := by
  rintro env rfl rfl s hcancel hremaining ⟨rows, hrows, hne⟩
  have hlimit : 0 < s.batchLimit env := by
    unfold MediaPhash.RunState.batchLimit
    cases hr : s.remaining env with
    | none => exact hsize
    | some r => exact lt_min (hremaining r hr) hsize
  obtain ⟨page, hpage, hpageNe⟩ := fetchPage_ne_nil hlimit hrows hne
  have hround := MediaPhash.round_runStep env s
  constructor
  · refine ⟨page, hpage, hpageNe, ?_⟩
    unfold workedRows
    rw [if_neg hslots.ne', hpage]
    exact (env.finished s.time).perm page
  · intro hstep
    rw [hstep] at hround
    cases hround with
    | stuck hzero => omega
    | page rows' _ _ _ hpersist =>
        have htime := persistRows_time hpersist
        exact absurd htime (Nat.not_succ_le_self _)
  · intro hstep
    generalize hr : MediaPhash.runStep env s = r at hround
    rw [hstep] at hr
    cases hround with
    | cancelled hyes => cases hcancel.symm.trans hyes
    | limit hzero => exact absurd (hremaining 0 hzero) (lt_irrefl 0)
    | fetchError e hfetch => cases hpage.symm.trans hfetch
    | empty _ hfetch => exact hpageNe (Except.ok.inj (hpage.symm.trans hfetch))
    | stuck _ => cases hr
    | rowError _ _ _ _ => cases hr
    | cut _ s' _ _ =>
        have hstatus := congrArg Prod.fst (Except.ok.inj (Sum.inr.inj hr))
        exact MediaPhash.terminalStatus_ne _ hstatus
    | page _ _ _ _ _ => cases hr

/-- What `update_config` leaves of a setting is what it was last given. -/
theorem configured_eq {α : Type} (field : ConfigUpdate → Option α)
    (get : Config → α)
    (hget : ∀ config payload,
      get (updateConfig config payload) = (field payload).getD (get config))
    (updates : List ConfigUpdate) (config : Config) :
    get (updates.foldl updateConfig config)
      = lastGiven field updates (get config) := by
  unfold lastGiven
  induction updates generalizing config with
  | nil => rfl
  | cons payload updates ih =>
      rw [List.foldl_cons, ih, hget, List.filterMap_cons]
      cases field payload with
      | none => rfl
      | some a =>
          rw [List.getLast?_cons]
          rfl

/-- **Settings.** After any requests the three jobs do their work exactly if each
setting was last given a positive value, or was given none and began with one. -/
theorem jobs_work_iff (maxRetries : ℤ) (env : ConfigUpdate)
    (updates : List ConfigUpdate) :
    JobsWork maxRetries (configured env updates) ↔
      0 < lastGiven (·.scanPageSize) updates (env.scanPageSize.getD 2500) ∧
      0 < lastGiven (·.phashConcurrency) updates (env.phashConcurrency.getD 10) ∧
      0 < lastGiven (·.mirrorConcurrency) updates (env.mirrorConcurrency.getD 30) := by
  have hpage := configured_eq (·.scanPageSize) (·.scanPageSize) (fun _ _ => rfl)
    updates (.ofEnv env)
  have hphash := configured_eq (·.phashConcurrency) (·.phashConcurrency)
    (fun _ _ => rfl) updates (.ofEnv env)
  have hmirror := configured_eq (·.mirrorConcurrency) (·.mirrorConcurrency)
    (fun _ _ => rfl) updates (.ofEnv env)
  have hbackfill := @batchWorks_iff _ (PhashBackfill.job maxRetries)
    PhashBackfill.pending (configured env updates).scanPageSize
    (configured env updates).phashConcurrency (fun _ _ _ => rfl) (.error "")
    PhashBackfill.oneScanned (by decide)
  have hmirrored := @batchWorks_iff _ Mirror.job Mirror.pending
    (configured env updates).scanPageSize (configured env updates).mirrorConcurrency
    (fun _ _ _ => rfl) (.error "") Mirror.oneHashed (by decide)
  rw [show env.scanPageSize.getD 2500 = (Config.ofEnv env).scanPageSize from rfl,
    show env.phashConcurrency.getD 10 = (Config.ofEnv env).phashConcurrency from rfl,
    show env.mirrorConcurrency.getD 30 = (Config.ofEnv env).mirrorConcurrency from rfl,
    ← hpage, ← hphash, ← hmirror]
  constructor
  · rintro ⟨-, hb, hm⟩
    obtain ⟨hsize, hp⟩ := hbackfill.mp hb
    exact ⟨hsize, hp, (hmirrored.mp hm).2⟩
  · rintro ⟨hsize, hp, hm⟩
    exact ⟨mediaPhashWorks hsize hp, hbackfill.mpr ⟨hsize, hp⟩,
      hmirrored.mpr ⟨hsize, hm⟩⟩

/-- One request with a page size of zero: the next mirror run ends with `Ok` and
has not looked at the video that is to be mirrored. -/
theorem zero_page_size : (configured {} [{ scanPageSize := some 0 }]).scanPageSize = 0 ∧
    Mirror.pending Mirror.oneHashed ≠ [] ∧
    Mirror.run { Mirror.always (.ok ()) with pageSize := 0 } Mirror.oneHashed 1
      = some (.ok (.complete, { tables := Mirror.oneHashed })) := by
  refine ⟨rfl, by decide, rfl⟩

end Settings

end VideoStorage.Jobs
