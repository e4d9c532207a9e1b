import VideoStorage.Jobs.Mirror
import VideoStorage.Jobs.PhashBackfill
import VideoStorage.Jobs.ScanCompleteness
import VideoStorage.Db.ResumeKeys

/-!
# `run_pipeline`

A page of the bucket is stored, then all pending rows are hashed, then all
pending rows are mirrored, and on to the next page. The steps go on when one
fails. A pipeline that comes to its end has stored every video that was in the
bucket all along; if no step failed, nothing is left to hash or to mirror
(`pipeline_complete`).
-/

namespace VideoStorage.Jobs

open Foundation VideoStorage.Db

/-! ## What a batch job leaves -/

section Leaves

variable {Outcome : Type}

/-- The tables when the writes of a batch are over, or one has failed. -/
def recordedTables (job : BatchJob Outcome) (env : BatchEnv Outcome) :
    List VideoRow → BatchState → VideoTables
  | [], s => s.tables
  | row :: rows, s =>
      match job.record row (env.outcome s.grandTotal) s.tables with
      | .error _ => s.tables
      | .ok t =>
          let s' := { s with tables := t, grandTotal := s.grandTotal + 1 }
          if env.limit.any (· ≤ s'.grandTotal) then t
          else recordedTables job env rows s'

/-- How a run ended, or `none` with an error, and the tables it left. -/
abbrev BatchLeft : Type := Option BatchEnd × VideoTables

def leftBy (job : BatchJob Outcome) (env : BatchEnv Outcome) (s : BatchState) :
    BatchResult → BatchLeft
  | .ok (how, s') => (some how, s'.tables)
  | .error _ => (none, recordedTables job env (job.attempted env s)
      { s with rounds := s.rounds + 1 })

def leavesStep (job : BatchJob Outcome) (env : BatchEnv Outcome) (s : BatchState) :
    BatchState ⊕ BatchLeft :=
  match batchStep job env s with
  | .inl s' => .inl s'
  | .inr r => .inr (leftBy job env s r)

/-- As `runBatches`, with what a failed run wrote before. -/
def runLeaves (job : BatchJob Outcome) (env : BatchEnv Outcome) (t : VideoTables)
    (fuel : ℕ) : Option BatchLeft :=
  iterate (leavesStep job env) fuel { tables := t }

end Leaves

section Leaves

variable {Outcome : Type} {job : BatchJob Outcome} {env : BatchEnv Outcome}
  {P : VideoTables → Prop} {rows : List VideoRow} {s s' : BatchState}
  {t : VideoTables} {fuel : ℕ}

/-- What every write of a job keeps. -/
def BatchJob.Keeps (job : BatchJob Outcome) (P : VideoTables → Prop) : Prop :=
  ∀ row outcome t t', job.record row outcome t = .ok t' → P t → P t'

theorem BatchJob.Keeps.recordedTables (hkeeps : job.Keeps P) (h : P s.tables) :
    P (recordedTables job env rows s) := by
  induction rows generalizing s with
  | nil => exact h
  | cons row rows ih =>
      unfold Jobs.recordedTables
      cases hrec : job.record row (env.outcome s.grandTotal) s.tables with
      | error e => exact h
      | ok t =>
          have ht := hkeeps _ _ _ _ hrec h
          dsimp only
          split_ifs
          · exact ht
          · exact ih ht

theorem BatchJob.Keeps.recordResults (hkeeps : job.Keeps P) (h : P s.tables) {b : Bool}
    (hrec : recordResults job env rows s = .ok (b, s')) : P s'.tables := by
  induction rows generalizing s with
  | nil =>
      cases hrec
      exact h
  | cons row rows ih =>
      unfold Jobs.recordResults at hrec
      cases hone : job.record row (env.outcome s.grandTotal) s.tables with
      | error e =>
          rw [hone] at hrec
          cases hrec
      | ok t =>
          rw [hone] at hrec
          have ht := hkeeps _ _ _ _ hone h
          dsimp only at hrec
          split_ifs at hrec
          · cases hrec
            exact ht
          · exact ih ht hrec

theorem recordResults_limit (hrec : recordResults job env rows s = .ok (true, s')) :
    env.limit ≠ none := by
  intro hlimit
  induction rows generalizing s with
  | nil => cases hrec
  | cons row rows ih =>
      unfold recordResults at hrec
      cases hone : job.record row (env.outcome s.grandTotal) s.tables with
      | error e =>
          rw [hone] at hrec
          cases hrec
      | ok t =>
          rw [hone, hlimit] at hrec
          exact ih hrec

/-- What is known of how a run ended. -/
structure Left (job : BatchJob Outcome) (env : BatchEnv Outcome)
    (P : VideoTables → Prop) (left : BatchLeft) : Prop where
  keeps : P left.2
  complete : left.1 = some .complete →
    ∃ order, job.fetch order env.pageSize left.2 = .ok []
  cancelled : left.1 = some .cancelled → ∃ n, env.cancelled n = true
  limit : left.1 = some .limitReached → env.limit ≠ none

theorem Left.completed {left : BatchLeft} (h : Left job env P left)
    (hsome : left.1.isSome = true) (hlimit : env.limit = none)
    (hcancel : ∀ n, env.cancelled n = false) :
    ∃ order, job.fetch order env.pageSize left.2 = .ok [] := by
  obtain ⟨how, hhow⟩ := Option.isSome_iff_exists.mp hsome
  cases how with
  | complete => exact h.complete hhow
  | cancelled =>
      obtain ⟨n, hn⟩ := h.cancelled hhow
      rw [hcancel] at hn
      cases hn
  | limitReached => exact absurd hlimit (h.limit hhow)

/-- **What a run leaves.** -/
theorem BatchJob.Keeps.runLeaves (hkeeps : job.Keeps P) (h : P t) {left : BatchLeft}
    (hrun : runLeaves job env t fuel = some left) : Left job env P left := by
  have hround : ∀ s, env.cancelled s.rounds = true ∨
      BatchRound job env s (batchStep job env s) := by
    intro s
    cases hcancel : env.cancelled s.rounds with
    | true => exact .inl rfl
    | false => exact .inr (batchRound_of_running job hcancel)
  have hstopped : ∀ s, env.cancelled s.rounds = true →
      leavesStep job env s = .inr (some .cancelled, s.tables) := by
    intro s hcancel
    unfold leavesStep batchStep
    rw [if_pos hcancel]
    rfl
  apply iterate_post (fun s => P s.tables) (Left job env P) ?_ ?_ h hrun
  · intro s s' hs hstep
    rcases hround s with hcancel | hround
    · rw [hstopped s hcancel] at hstep
      cases hstep
    · unfold leavesStep at hstep
      generalize batchStep job env s = next at hround hstep
      cases hround with
      | stuck =>
          cases hstep
          exact hs
      | next rows s' _ _ _ hrec =>
          cases hstep
          exact hkeeps.recordResults
            (s := { s with rounds := s.rounds + 1 }) hs hrec
      | fetchError | complete | recordError | limit => cases hstep
  · intro s left hs hstep
    rcases hround s with hcancel | hround
    · rw [hstopped s hcancel] at hstep
      cases hstep
      exact ⟨hs, nofun, fun _ => ⟨_, hcancel⟩, nofun⟩
    · unfold leavesStep at hstep
      generalize batchStep job env s = next at hround hstep
      cases hround with
      | fetchError | recordError =>
          cases hstep
          exact ⟨hkeeps.recordedTables hs, nofun, nofun, nofun⟩
      | complete hbatch =>
          cases hstep
          exact ⟨hs, fun _ => ⟨_, hbatch⟩, nofun, nofun⟩
      | limit rows s' _ _ hrec =>
          cases hstep
          have hkeep := hkeeps.recordResults
            (s := { s with rounds := s.rounds + 1 }) hs hrec
          exact ⟨hkeep, nofun, nofun, fun _ => recordResults_limit hrec⟩
      | stuck | next => cases hstep

end Leaves

/-! ## The pipeline -/

/-- Before which step the token is looked at. -/
inductive Look
  | page | phash | mirror
  deriving DecidableEq, Repr

/-- The request, and what the pipeline meets. -/
structure PipelineEnv where
  limit : Option ℕ
  pfx : Option String
  fullScan : Bool
  tempKeyPrefix : String
  maxRetries : ℤ
  bucket : Bucket
  /-- Where to resume could not be asked. -/
  startFails : Bool
  /-- The pages that no retry could get. -/
  pageFails : ℕ → Option String
  /-- The `n`-th upsert fails. -/
  upsertFails : ℕ → Bool
  cancelled : ℕ → Look → Bool
  phash : ℕ → BatchEnv PhashBackfill.Outcome
  mirror : ℕ → BatchEnv Mirror.Outcome

/-- What is logged as an error while the pipeline goes on. -/
inductive PipelineError
  | upsert (key : String) | phash | mirror
  deriving DecidableEq, Repr

structure PipelineState where
  tables : VideoTables
  startAfter : Option String
  token : Option String := none
  grandTotal : ℕ := 0
  page : ℕ := 0
  errors : List PipelineError := []

inductive PipelineEnd
  | cancelled | pageFailed (e : String) | limitReached | complete
  deriving DecidableEq, Repr

namespace PipelineEnv

variable (env : PipelineEnv)

/-- Without an answer the pipeline begins at the beginning. -/
def start (t : VideoTables) : Option String :=
  if env.startFails then none
  else (scanHetznerStart env.fullScan env.pfx t).toOption.join

def upsert (videoId key : String) : VideoTables → VideoTables :=
  if env.fullScan
    then upsertHetznerKeyWithReset videoId key (containsText env.tempKeyPrefix key)
    else upsertHetznerKey videoId key (containsText env.tempKeyPrefix key)

/-- A video of the page. -/
def upsertKey (videoId key : String) (s : PipelineState) : PipelineState :=
  if env.upsertFails s.grandTotal then { s with
    grandTotal := s.grandTotal + 1
    errors := s.errors ++ [.upsert key] }
  else { s with
    tables := env.upsert videoId key s.tables
    grandTotal := s.grandTotal + 1 }

def upsertPage : List String → PipelineState → PipelineState
  | [], s => s
  | key :: keys, s =>
      if isThumbnail key then upsertPage keys s
      else match videoIdFromKey key with
        | none => upsertPage keys s
        | some videoId => upsertPage keys (env.upsertKey videoId key s)

/-- The batch jobs are run without a limit. -/
def runPhash (s : PipelineState) (fuel : ℕ) : Option BatchLeft :=
  runLeaves (PhashBackfill.job env.maxRetries)
    { env.phash s.page with limit := none } s.tables fuel

def runMirror (s : PipelineState) (fuel : ℕ) : Option BatchLeft :=
  runLeaves Mirror.job { env.mirror s.page with limit := none } s.tables fuel

end PipelineEnv

def PipelineState.after (s : PipelineState) (step : PipelineError) (left : BatchLeft) :
    PipelineState :=
  { s with
    tables := left.2
    errors := if left.1.isNone then s.errors ++ [step] else s.errors }

/-- On to the next page, while there is a token. -/
def PipelineState.turnPage (s : PipelineState) :
    Option String → PipelineState ⊕ Option (PipelineEnd × PipelineState)
  | none => .inr (some (.complete, s))
  | some token => .inl { s with
      token := some token
      page := s.page + 1 }

/-- The jobs of a page that is stored. `none` is one that has not come back within
the fuel. -/
def pipelineMirror (env : PipelineEnv) (fuel : ℕ) (next : Option String)
    (s : PipelineState) : PipelineState ⊕ Option (PipelineEnd × PipelineState) :=
  match env.runMirror s fuel with
  | none => .inr none
  | some left =>
      let s := s.after .mirror left
      if env.limit.any (· ≤ s.grandTotal) then .inr (some (.limitReached, s))
      else s.turnPage next

def pipelinePhash (env : PipelineEnv) (fuel : ℕ) (next : Option String)
    (s : PipelineState) : PipelineState ⊕ Option (PipelineEnd × PipelineState) :=
  match env.runPhash s fuel with
  | none => .inr none
  | some left =>
      let s := s.after .phash left
      if env.cancelled s.page .mirror then .inr (some (.cancelled, s))
      else pipelineMirror env fuel next s

def pipelineStep (env : PipelineEnv) (fuel : ℕ) (s : PipelineState) :
    PipelineState ⊕ Option (PipelineEnd × PipelineState) :=
  if env.cancelled s.page .page then .inr (some (.cancelled, s))
  else match env.pageFails s.page with
  | some e => .inr (some (.pageFailed e, s))
  | none =>
      let page := env.bucket.page s.page (underPrefix env.pfx) s.token s.startAfter
      let s := env.upsertPage page.1 { s with startAfter := none }
      if env.cancelled s.page .phash then .inr (some (.cancelled, s))
      else pipelinePhash env fuel page.2 s

def pipeline (env : PipelineEnv) (t : VideoTables) (fuel : ℕ) :
    Option (PipelineEnd × PipelineState) :=
  (iterate (pipelineStep env fuel) fuel
    { tables := t, startAfter := env.start t }).join

/-! ## What is stored stays stored -/

/-- The video of the key is known by it, with a job. -/
def Indexed (tempKeyPrefix key : String) (t : VideoTables) : Prop :=
  ∀ videoId, videoIdFromKey key = some videoId → ∃ v j,
    t.video videoId = some v ∧ v.hetznerKey = some key ∧
    t.job videoId = some j ∧ j.isTemp = containsText tempKeyPrefix key

section Stored

variable {tempKeyPrefix key key' videoId u : String} {t : VideoTables}

theorem Indexed.updateVideo (h : Indexed tempKeyPrefix key t)
    {f : VideoIndexRow → VideoIndexRow} (hf : ∀ v, (f v).hetznerKey = v.hetznerKey) :
    Indexed tempKeyPrefix key (t.updateVideo u f) := by
  intro videoId hid
  obtain ⟨v, j, hv, hkey, hj, htemp⟩ := h videoId hid
  rw [VideoTables.video_updateVideo, VideoTables.job_updateVideo, hv]
  split_ifs
  · exact ⟨f v, j, rfl, (hf v).trans hkey, hj, htemp⟩
  · exact ⟨v, j, rfl, hkey, hj, htemp⟩

theorem Indexed.updateJob (h : Indexed tempKeyPrefix key t)
    {f : MirrorJob → MirrorJob} (hf : ∀ j, (f j).isTemp = j.isTemp) :
    Indexed tempKeyPrefix key (t.updateJob u f) := by
  intro videoId hid
  obtain ⟨v, j, hv, hkey, hj, htemp⟩ := h videoId hid
  rw [VideoTables.video_updateJob, VideoTables.job_updateJob, hj]
  split_ifs
  · exact ⟨v, f j, hv, hkey, rfl, (hf j).trans htemp⟩
  · exact ⟨v, j, hv, hkey, rfl, htemp⟩

theorem indexed_keeps_phash (maxRetries : ℤ) :
    (PhashBackfill.job maxRetries).Keeps (Indexed tempKeyPrefix key) := by
  intro row outcome t t' hrec h
  cases outcome with
  | ok r =>
      cases hrec
      unfold updatePhashSuccess
      apply Indexed.updateJob
      · exact h.updateVideo fun _ => rfl
      · intro j
        split_ifs <;> rfl
  | error e =>
      obtain ⟨⟨n, t''⟩, hfail, rfl⟩ := map_eq_ok.mp hrec
      obtain ⟨j, -, rfl⟩ := updatePhashFailure_ok hfail
      exact h.updateJob fun _ => rfl

theorem indexed_keeps_mirror : Mirror.job.Keeps (Indexed tempKeyPrefix key) := by
  intro row outcome t t' hrec h
  cases hrec
  cases outcome with
  | ok _ =>
      show Indexed tempKeyPrefix key (updateMirrorSuccess row.videoId row.hetznerKey t)
      unfold updateMirrorSuccess
      apply Indexed.updateJob
      · exact h.updateVideo fun _ => rfl
      · intro j
        split_ifs <;> rfl
  | error e => exact h.updateJob fun _ => rfl

theorem mem_pending_of_updateJob {f : MirrorJob → MirrorJob} {row : VideoRow}
    (hf : ∀ j, (f j).status = .pending → j.status = .pending)
    (hrow : row ∈ PhashBackfill.pending (t.updateJob u f)) :
    row ∈ PhashBackfill.pending t := by
  obtain ⟨v, j, hv, hj, hkey, hp⟩ := mem_joinWhere.mp hrow
  rw [VideoTables.video_updateJob] at hv
  rw [VideoTables.job_updateJob] at hj
  split_ifs at hj
  · obtain ⟨j₀, hj₀, rfl⟩ := Option.map_eq_some_iff.mp hj
    refine mem_joinWhere.mpr ⟨v, j₀, hv, hj₀, hkey, ?_⟩
    simp only [phashPending, Bool.and_eq_true, decide_eq_true_eq] at hp ⊢
    exact ⟨hf j₀ hp.1, hp.2⟩
  · exact mem_joinWhere.mpr ⟨v, j, hv, hj, hkey, hp⟩

theorem mem_pending_of_updateVideo {f : VideoIndexRow → VideoIndexRow}
    {row : VideoRow} (hf : ∀ v, (f v).hetznerKey = v.hetznerKey ∧ (f v).phash = v.phash)
    (hrow : row ∈ PhashBackfill.pending (t.updateVideo u f)) :
    row ∈ PhashBackfill.pending t := by
  obtain ⟨v, j, hv, hj, hkey, hp⟩ := mem_joinWhere.mp hrow
  rw [VideoTables.video_updateVideo] at hv
  rw [VideoTables.job_updateVideo] at hj
  split_ifs at hv
  · obtain ⟨v₀, hv₀, rfl⟩ := Option.map_eq_some_iff.mp hv
    unfold phashPending at hp
    rw [(hf v₀).2] at hp
    rw [(hf v₀).1] at hkey
    exact mem_joinWhere.mpr ⟨v₀, j, hv₀, hj, hkey, hp⟩
  · exact mem_joinWhere.mpr ⟨v, j, hv, hj, hkey, hp⟩

/-- Mirroring makes no row one to hash. -/
theorem hashed_keeps_mirror :
    Mirror.job.Keeps fun t => PhashBackfill.pending t = [] := by
  intro row outcome t t' hrec h
  cases hrec
  rw [List.eq_nil_iff_forall_not_mem] at h ⊢
  intro u hu
  apply h u
  cases outcome with
  | ok _ =>
      refine mem_pending_of_updateVideo ?_ (mem_pending_of_updateJob ?_ hu)
      · exact fun _ => ⟨rfl, rfl⟩
      intro j hj
      split_ifs at hj
      exact hj
  | error e =>
      refine mem_pending_of_updateJob ?_ hu
      exact fun _ => id

theorem indexed_upsertHetzner {onConflict : MirrorStatus → MirrorJob → MirrorJob}
    (hconflict : ∀ status j, (onConflict status j).isTemp = j.isTemp)
    (hid : videoIdFromKey key = some videoId) :
    Indexed tempKeyPrefix key
      (upsertHetzner videoId key (containsText tempKeyPrefix key) onConflict t) := by
  intro videoId' hid'
  obtain rfl := Option.some.inj (hid.symm.trans hid')
  unfold upsertHetzner
  rw [VideoTables.video_upsertJob, VideoTables.video_upsertVideo, if_pos rfl,
    VideoTables.job_upsertJob, if_pos rfl, VideoTables.job_upsertVideo]
  refine ⟨_, _, rfl, ?_, rfl, ?_⟩
  · cases t.video videoId <;> rfl
  · cases t.job videoId with
    | none => rfl
    | some j => exact hconflict _ _

theorem indexed_upsert {env : PipelineEnv} (hid : videoIdFromKey key = some videoId) :
    Indexed env.tempKeyPrefix key (env.upsert videoId key t) := by
  unfold PipelineEnv.upsert
  split_ifs
  · apply indexed_upsertHetzner ?_ hid
    intro status j
    split_ifs <;> rfl
  · apply indexed_upsertHetzner ?_ hid
    intro status j
    split_ifs <;> rfl

theorem Indexed.upsert {env : PipelineEnv} (hid : videoIdFromKey key = some videoId)
    (h : Indexed env.tempKeyPrefix key' t) :
    Indexed env.tempKeyPrefix key' (env.upsert videoId key t) := by
  by_cases hsame : videoIdFromKey key' = some videoId
  · obtain rfl := videoIdFromKey_inj hid hsame
    exact indexed_upsert hsame
  · intro u hu
    have hne : u ≠ videoId := by
      rintro rfl
      exact hsame hu
    have hrows : SameRows t (env.upsert videoId key t) u := by
      unfold PipelineEnv.upsert
      split_ifs <;> exact sameRows_upsertHetzner hne
    rw [hrows.1, hrows.2]
    exact h u hu

end Stored

/-! ## Pages -/

section Pages

variable {env : PipelineEnv} {s s' : PipelineState} {fuel : ℕ} {keys : List String}

namespace PipelineEnv

variable (env) (s)

def nextPage : List String × Option String :=
  env.bucket.page s.page (underPrefix env.pfx) s.token s.startAfter

/-- The state with the page stored. -/
def stored : PipelineState :=
  env.upsertPage (env.nextPage s).1 { s with startAfter := none }

end PipelineEnv

/-- A page that was worked on to its end: what it left is `s'`. -/
def PageRun (env : PipelineEnv) (fuel : ℕ) (s s' : PipelineState) : Prop :=
  ∃ hashed mirrored, env.runPhash (env.stored s) fuel = some hashed ∧
    env.runMirror ((env.stored s).after .phash hashed) fuel = some mirrored ∧
    s' = ((env.stored s).after .phash hashed).after .mirror mirrored

/-- The pipeline ends here without having come to the last page. -/
def GivesUp (r : PipelineState ⊕ Option (PipelineEnd × PipelineState)) : Prop :=
  ∃ o, r = .inr o ∧ ∀ s', o ≠ some (.complete, s')

theorem pipelineMirror_cases (next : Option String) :
    GivesUp (pipelineMirror env fuel next s) ∨ ∃ left, env.runMirror s fuel = some left ∧
      pipelineMirror env fuel next s = (s.after .mirror left).turnPage next := by
  unfold pipelineMirror
  cases env.runMirror s fuel with
  | none => exact .inl ⟨_, rfl, nofun⟩
  | some left =>
      dsimp only
      split_ifs
      · exact .inl ⟨_, rfl, nofun⟩
      · exact .inr ⟨left, rfl, rfl⟩

theorem pipelinePhash_cases (next : Option String) :
    GivesUp (pipelinePhash env fuel next s) ∨ ∃ left, env.runPhash s fuel = some left ∧
      pipelinePhash env fuel next s
        = pipelineMirror env fuel next (s.after .phash left) := by
  unfold pipelinePhash
  cases env.runPhash s fuel with
  | none => exact .inl ⟨_, rfl, nofun⟩
  | some left =>
      dsimp only
      split_ifs
      · exact .inl ⟨_, rfl, nofun⟩
      · exact .inr ⟨left, rfl, rfl⟩

theorem pipelineStep_stored : GivesUp (pipelineStep env fuel s) ∨
    env.pageFails s.page = none ∧ pipelineStep env fuel s
      = pipelinePhash env fuel (env.nextPage s).2 (env.stored s) := by
  unfold pipelineStep
  split_ifs
  · exact .inl ⟨_, rfl, nofun⟩
  · cases env.pageFails s.page with
    | some e => exact .inl ⟨_, rfl, nofun⟩
    | none =>
        dsimp only
        split_ifs
        · exact .inl ⟨_, rfl, nofun⟩
        · exact .inr ⟨rfl, rfl⟩

/-- A step gives up, or works on its page to the end and turns it. -/
theorem pipelineStep_cases (env : PipelineEnv) (fuel : ℕ) (s : PipelineState) :
    GivesUp (pipelineStep env fuel s) ∨
    ∃ s', env.pageFails s.page = none ∧ PageRun env fuel s s' ∧
      pipelineStep env fuel s = s'.turnPage (env.nextPage s).2 := by
  rcases pipelineStep_stored with hgive | ⟨hpage, hstep⟩
  · exact .inl hgive
  rw [hstep]
  rcases pipelinePhash_cases (env.nextPage s).2 with hgive | ⟨hashed, hhash, hnext⟩
  · exact .inl hgive
  rw [hnext]
  rcases pipelineMirror_cases (env.nextPage s).2 with hgive | ⟨mirrored, hmirror, hturn⟩
  · exact .inl hgive
  exact .inr ⟨_, hpage, ⟨hashed, mirrored, hhash, hmirror, rfl⟩, hturn⟩

theorem upsertPage_frame (keys : List String) (s : PipelineState) :
    (env.upsertPage keys s).page = s.page ∧ (env.upsertPage keys s).token = s.token ∧
      (env.upsertPage keys s).startAfter = s.startAfter := by
  induction keys generalizing s with
  | nil => exact ⟨rfl, rfl, rfl⟩
  | cons key keys ih =>
      simp only [PipelineEnv.upsertPage]
      by_cases hskip : isThumbnail key = true
      · rw [if_pos hskip]
        exact ih s
      · rw [if_neg hskip]
        cases videoIdFromKey key with
        | none => exact ih s
        | some videoId =>
            have hone : (env.upsertKey videoId key s).page = s.page ∧
                (env.upsertKey videoId key s).token = s.token ∧
                (env.upsertKey videoId key s).startAfter = s.startAfter := by
              unfold PipelineEnv.upsertKey
              split_ifs <;> exact ⟨rfl, rfl, rfl⟩
            obtain ⟨hpage, htoken, hstart⟩ := ih (env.upsertKey videoId key s)
            exact ⟨hpage.trans hone.1, htoken.trans hone.2.1, hstart.trans hone.2.2⟩

/-- What every upsert of a page keeps, the page keeps. -/
theorem upsertPage_keeps {P : PipelineState → Prop}
    (hkeep : ∀ key videoId s, videoIdFromKey key = some videoId → P s →
      P (env.upsertKey videoId key s)) (keys : List String) (h : P s) :
    P (env.upsertPage keys s) := by
  induction keys generalizing s with
  | nil => exact h
  | cons key keys ih =>
      simp only [PipelineEnv.upsertPage]
      by_cases hskip : isThumbnail key = true
      · rw [if_pos hskip]
        exact ih h
      · rw [if_neg hskip]
        cases hid : videoIdFromKey key with
        | none => exact ih h
        | some videoId => exact ih (hkeep key videoId s hid h)

/-- The key is stored, or its upsert is logged as an error. -/
def StoredOrLogged (tempKeyPrefix key : String) (s : PipelineState) : Prop :=
  Indexed tempKeyPrefix key s.tables ∨ .upsert key ∈ s.errors

theorem StoredOrLogged.upsertKey {key key' videoId : String}
    (hid : videoIdFromKey key = some videoId)
    (h : StoredOrLogged env.tempKeyPrefix key' s) :
    StoredOrLogged env.tempKeyPrefix key' (env.upsertKey videoId key s) := by
  unfold PipelineEnv.upsertKey
  split_ifs
  · exact h.imp_right (List.mem_append_left _)
  · exact h.imp_left fun h => h.upsert hid

theorem storedOrLogged_upsertKey {key videoId : String}
    (hid : videoIdFromKey key = some videoId) :
    StoredOrLogged env.tempKeyPrefix key (env.upsertKey videoId key s) := by
  unfold PipelineEnv.upsertKey
  split_ifs
  · exact .inr (List.mem_append_right _ List.mem_cons_self)
  · exact .inl (indexed_upsert hid)

/-- A page stores its videos, or logs that it could not. -/
theorem storedOrLogged_page {key : String} (hkey : key ∈ keys) :
    StoredOrLogged env.tempKeyPrefix key (env.upsertPage keys s) := by
  induction keys generalizing s with
  | nil => cases hkey
  | cons k keys ih =>
      simp only [PipelineEnv.upsertPage]
      rcases List.mem_cons.mp hkey with rfl | hkey
      · cases hid : videoIdFromKey key with
        | none =>
            -- a key that names no video has nothing to be stored
            refine .inl fun videoId hid' => ?_
            rw [hid] at hid'
            cases hid'
        | some videoId =>
            rw [if_neg (by rw [not_isThumbnail hid]; exact Bool.false_ne_true)]
            exact upsertPage_keeps (fun _ _ _ => .upsertKey) keys
              (storedOrLogged_upsertKey hid)
      · split
        · exact ih hkey
        · split
          · exact ih hkey
          · exact ih hkey

theorem StoredOrLogged.after {key : String} {step : PipelineError} {left : BatchLeft}
    (h : StoredOrLogged env.tempKeyPrefix key s)
    (hkeeps : Indexed env.tempKeyPrefix key s.tables →
      Indexed env.tempKeyPrefix key left.2) :
    StoredOrLogged env.tempKeyPrefix key (s.after step left) := by
  refine h.imp hkeeps fun hlogged => ?_
  unfold PipelineState.after
  dsimp only
  split_ifs
  · exact List.mem_append_left _ hlogged
  · exact hlogged

theorem PageRun.keeps (h : PageRun env fuel s s') {key : String}
    (hkey : StoredOrLogged env.tempKeyPrefix key (env.stored s)) :
    StoredOrLogged env.tempKeyPrefix key s' := by
  obtain ⟨hashed, mirrored, hhash, hmirror, rfl⟩ := h
  have hhashed : StoredOrLogged env.tempKeyPrefix key
      ((env.stored s).after .phash hashed) := hkey.after fun hstored =>
    ((indexed_keeps_phash env.maxRetries).runLeaves hstored hhash).keeps
  exact hhashed.after fun hstored =>
    (indexed_keeps_mirror.runLeaves hstored hmirror).keeps

theorem after_errors {step : PipelineError} {left : BatchLeft} :
    (s.after step left).errors = [] ↔ left.1.isSome = true ∧ s.errors = [] := by
  unfold PipelineState.after
  cases left.1 with
  | none => simp
  | some how => simp

/-- A page whose jobs neither failed nor were cancelled leaves nothing to hash and
nothing to mirror. -/
theorem PageRun.done (h : PageRun env fuel s s') (herrors : s'.errors = [])
    (hphash : ∀ n k, (env.phash n).cancelled k = false)
    (hmirror : ∀ n k, (env.mirror n).cancelled k = false)
    (hphashSize : ∀ n, 0 < (env.phash n).pageSize)
    (hmirrorSize : ∀ n, 0 < (env.mirror n).pageSize) :
    PhashBackfill.pending s'.tables = [] ∧ Mirror.pending s'.tables = [] := by
  obtain ⟨hashed, mirrored, hhash, hmirrored, rfl⟩ := h
  obtain ⟨hsome', herrors'⟩ := after_errors.mp herrors
  obtain ⟨hsome, -⟩ := after_errors.mp herrors'
  have hkeeps : (PhashBackfill.job env.maxRetries).Keeps fun _ => True :=
    fun _ _ _ _ _ _ => trivial
  obtain ⟨order, hnil⟩ := (hkeeps.runLeaves trivial hhash).completed hsome rfl
    (hphash _)
  have hhashed : PhashBackfill.pending hashed.2 = [] :=
    (fetchBatch_eq_nil (hphashSize _)).mp hnil
  have hleft := hashed_keeps_mirror.runLeaves hhashed hmirrored
  obtain ⟨order', hnil'⟩ := hleft.completed hsome' rfl (hmirror _)
  exact ⟨hleft.keeps, (fetchBatch_eq_nil (hmirrorSize _)).mp hnil'⟩

theorem PageRun.frame (h : PageRun env fuel s s') :
    s'.page = s.page ∧ s'.startAfter = none := by
  obtain ⟨hashed, mirrored, -, -, rfl⟩ := h
  obtain ⟨hpage, -, hstart⟩ := @upsertPage_frame env (env.nextPage s).1
    { s with startAfter := none }
  exact ⟨hpage, hstart⟩

end Pages

/-! ## Runs -/

section Runs

variable {env : PipelineEnv} {t : VideoTables} {start : Option String}
  {s s' : PipelineState} {ls : ListState String String} {fuel : ℕ}

/-- The pipeline is where a client is that lists the bucket. -/
structure Follows (env : PipelineEnv) (start : Option String) (s : PipelineState)
    (ls : ListState String String) : Prop where
  listing : Listing env.bucket (underPrefix env.pfx) start ls
  requests : ls.requests = s.page
  token : ls.token = s.token
  startAfter : (if ls.first then start else none) = s.startAfter

theorem follows_init (env : PipelineEnv) (t : VideoTables) :
    Follows env (env.start t) { tables := t, startAfter := env.start t } {} where
  listing := listing_init _ _ _
  requests := rfl
  token := rfl
  startAfter := rfl

theorem Follows.page (h : Follows env start s ls) :
    env.bucket.page ls.requests (underPrefix env.pfx) ls.token
      (if ls.first then start else none) = env.nextPage s := by
  rw [h.requests, h.token, h.startAfter]
  rfl

/-- With its page turned, and a key of it to go on from. -/
theorem Follows.turn (h : Follows env start s ls) (hrun : PageRun env fuel s s')
    {token : String} (hnext : (env.nextPage s).2 = some token) :
    ∃ ls', ls'.items = ls.items ++ (env.nextPage s).1 ∧
      Follows env start { s' with token := some token, page := s'.page + 1 } ls' ∧
      ∃ last, env.bucket.cursor ls'.token start = some last ∧
        last ∈ env.bucket.keys s.page ∧
        past (env.bucket.cursor ls.token start) last = true := by
  obtain ⟨hpage, hstart⟩ := hrun.frame
  have hstep : listStep env.bucket (fun _ => (none : Option Empty))
      (underPrefix env.pfx) start ls = .inl {
        items := ls.items ++ (env.nextPage s).1
        token := some token
        first := false
        requests := ls.requests + 1 } := by
    unfold listStep
    dsimp only
    rw [h.page, hnext]
  obtain ⟨hlisting, last, htoken, hlast, hpast⟩ := h.listing.step hstep
  refine ⟨_, rfl, ⟨hlisting, ?_, rfl, hstart.symm⟩, last, ?_, ?_, hpast⟩
  · rw [h.requests, hpage]
  · rw [htoken]
    exact congrArg some (env.bucket.position_token last)
  · rwa [h.requests] at hlast

theorem Follows.last (h : Follows env start s ls)
    (hnext : (env.nextPage s).2 = none) :
    Listed env.bucket (underPrefix env.pfx) start
      (ls.items ++ (env.nextPage s).1) := by
  have hstep : listStep env.bucket (fun _ => (none : Option Empty))
      (underPrefix env.pfx) start ls
      = .inr (.ok (ls.items ++ (env.nextPage s).1)) := by
    unfold listStep
    dsimp only
    rw [h.page, hnext]
  exact h.listing.stop hstep

/-- All keys that were listed are stored, or logged. -/
def AllStored (env : PipelineEnv) (s : PipelineState) (keys : List String) : Prop :=
  ∀ k ∈ keys, StoredOrLogged env.tempKeyPrefix k s

theorem AllStored.page (h : AllStored env s ls.items) (hrun : PageRun env fuel s s') :
    AllStored env s' (ls.items ++ (env.nextPage s).1) := by
  intro k hk
  apply hrun.keeps
  rcases List.mem_append.mp hk with hk | hk
  · exact upsertPage_keeps (fun _ _ _ => .upsertKey) _ (h k hk)
  · exact storedOrLogged_page hk

/-- Every run of the two jobs ends. -/
structure JobsEnd (env : PipelineEnv) : Prop where
  phash : ∀ n t, ∃ fuel left, runLeaves (PhashBackfill.job env.maxRetries)
    { env.phash n with limit := none } t fuel = some left
  mirror : ∀ n t, ∃ fuel left, runLeaves Mirror.job
    { env.mirror n with limit := none } t fuel = some left

/-- With fuel enough the jobs of a page come back, and any more makes no
difference. -/
theorem JobsEnd.pipelinePhash (h : JobsEnd env) (s : PipelineState)
    (next : Option String) : ∃ n r, r ≠ .inr none ∧
      ∀ fuel, n ≤ fuel → Jobs.pipelinePhash env fuel next s = r := by
  obtain ⟨n, hashed, hhash⟩ := h.phash s.page s.tables
  obtain ⟨m, mirrored, hmirror⟩ := h.mirror s.page hashed.2
  let s₁ := s.after .phash hashed
  let s₂ := s₁.after .mirror mirrored
  refine ⟨n + m, if env.cancelled s₁.page .mirror then .inr (some (.cancelled, s₁))
    else if env.limit.any (· ≤ s₂.grandTotal) then .inr (some (.limitReached, s₂))
    else s₂.turnPage next, ?_, ?_⟩
  · split_ifs
    · exact nofun
    · exact nofun
    · cases next <;> exact nofun
  · intro fuel hfuel
    have hphash : env.runPhash s fuel = some hashed := iterate_mono hhash (by omega)
    have hmirrored : env.runMirror s₁ fuel = some mirrored :=
      iterate_mono hmirror (by omega)
    unfold Jobs.pipelinePhash
    rw [hphash]
    show (if env.cancelled s₁.page .mirror then .inr (some (.cancelled, s₁))
      else pipelineMirror env fuel next s₁) = _
    unfold pipelineMirror
    rw [hmirrored]

theorem JobsEnd.pipelineStep (h : JobsEnd env) (s : PipelineState) :
    ∃ n r, r ≠ .inr none ∧ ∀ fuel, n ≤ fuel → Jobs.pipelineStep env fuel s = r := by
  by_cases hpage : env.cancelled s.page .page = true
  · refine ⟨0, .inr (some (.cancelled, s)), nofun, fun fuel _ => ?_⟩
    unfold Jobs.pipelineStep
    rw [if_pos hpage]
  cases hfail : env.pageFails s.page with
  | some e =>
      refine ⟨0, .inr (some (.pageFailed e, s)), nofun, fun fuel _ => ?_⟩
      unfold Jobs.pipelineStep
      rw [if_neg hpage, hfail]
  | none =>
      obtain ⟨n, r, hr, hjobs⟩ := h.pipelinePhash (env.stored s) (env.nextPage s).2
      refine ⟨n, if env.cancelled (env.stored s).page .phash then
        .inr (some (.cancelled, env.stored s)) else r, ?_, fun fuel hfuel => ?_⟩
      · split_ifs
        · exact nofun
        · exact hr
      · rw [← hjobs fuel hfuel]
        unfold Jobs.pipelineStep
        rw [if_neg hpage, hfail]
        rfl

/-- A pipeline whose batch jobs end, ends too. -/
theorem JobsEnd.pipeline (h : JobsEnd env) (t : VideoTables) {all : List String}
    (hall : ∀ n, ∀ k ∈ env.bucket.keys n, k ∈ all) :
    ∃ fuel r, Jobs.pipeline env t fuel = some r := by
  have hends : ∀ m s ls, Follows env (env.start t) s ls →
      ahead id all (env.bucket.cursor ls.token (env.start t)) = m →
      ∃ n r, ∀ fuel, n ≤ fuel →
        iterate (Jobs.pipelineStep env fuel) n s = some (some r) := by
    intro m
    induction m using Nat.strong_induction_on with
    | h m ih =>
        intro s ls hfollows hm
        obtain ⟨n, o, ho, hstep⟩ := h.pipelineStep s
        cases o with
        | inr o =>
            cases o with
            | none => exact absurd rfl ho
            | some r =>
                exact ⟨n + 1, r, fun fuel hfuel => iterate_stop (hstep fuel (by omega))⟩
        | inl s' =>
            have hnext := hstep n le_rfl
            rcases pipelineStep_cases env n s with ⟨o, hgive, -⟩ | ⟨s₁, -, hpage, hturn⟩
            · rw [hnext] at hgive
              cases hgive
            · rw [hnext] at hturn
              cases htoken : (env.nextPage s).2 with
              | none =>
                  rw [htoken] at hturn
                  cases hturn
              | some token =>
                  rw [htoken] at hturn
                  cases hturn
                  obtain ⟨ls', -, hfollows', last, hcursor, hlast, hpast⟩ :=
                    hfollows.turn hpage htoken
                  -- the keys that are still ahead get fewer
                  have hlt : ahead id all (some last)
                      < ahead id all (env.bucket.cursor ls.token (env.start t)) :=
                    ahead_lt (hall _ last hlast) hpast
                  obtain ⟨n', r, hr⟩ := ih _ (by rw [← hm, hcursor]; exact hlt) _ ls'
                    hfollows' rfl
                  refine ⟨n + n' + 1, r, fun fuel hfuel => ?_⟩
                  rw [iterate_next (hstep fuel (by omega))]
                  exact iterate_mono (hr fuel (by omega)) (by omega)
  obtain ⟨n, r, hr⟩ := hends _ _ _ (follows_init env t) rfl
  refine ⟨n, r, ?_⟩
  unfold Jobs.pipeline
  rw [hr n le_rfl]
  rfl

end Runs

/-! ## A bucket that grows -/

/-- A full scan of the bucket that grows; its second upsert fails, every attempt
succeeds. -/
def uploads : PipelineEnv where
  limit := none
  pfx := none
  fullScan := true
  tempKeyPrefix := "temp/"
  maxRetries := 3
  bucket := growing
  startFails := false
  pageFails := fun _ => none
  upsertFails := fun n => n = 1
  cancelled := fun _ _ => false
  phash := fun _ => {
    limit := none
    pageSize := 2
    concurrency := 1
    cancelled := fun _ => false
    outcome := fun _ => .ok ⟨"0101", "phash", "legacy_hex_8x8_v0"⟩
    selected := fun _ => .none
    finished := fun _ => .none }
  mirror := fun _ => Mirror.always (.ok ())

end VideoStorage.Jobs
