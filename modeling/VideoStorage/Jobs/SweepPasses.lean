import VideoStorage.Jobs.MediaPhashCoverage
import VideoStorage.Jobs.RetrySpacing

/-!
# The passes of the sweep

The gate of a pass, `any_eligible_for_hash`, and the runs of `media_phash` it
lets through. The gate is the first page of a run without a shard
(`gate_iff_page`); after a run that returns `Ok` only a back-off that ends can open
it (`drain_closes_gate`). Logged attempt by attempt, any sequence of runs is a
history of single attempts (`Passes.attempts`), so what is known of these holds
of the fleet.
-/

namespace VideoStorage.Jobs.MediaPhash

open Foundation MediaIndex

/-! ## The gate -/

section Gate

variable {env : RunEnv} {db : Db} {now : ℤ}

theorem inShard_none {q : MissingHashQuery} (h : q.shard = none)
    (videoId : String) : q.inShard videoId = .ok true := by
  unfold MissingHashQuery.inShard
  rw [h]

end Gate

/-! ## The attempts of a run -/

/-- What the stream loop attempts, and where it stops. -/
def streamLog (env : RunEnv) :
    List MissingHashRow → RunState → List Attempt × RunState
  | [], s => ([], s)
  | row :: rows, s =>
      if env.cancelled s.time then ([], s)
      else
        let summary :=
          { s.summary with scannedRows := s.summary.scannedRows + 1 }
        match persistOne (env.clock s.time) env.jobRunId row
            (hashRow env.deps row) s.db summary with
        | .error _ => ([⟨env.clock s.time, row.videoId, .refused⟩], s)
        | .ok (db, summary) =>
            let rest := streamLog env rows (s.persisted row db summary)
            (⟨env.clock s.time, row.videoId, .of (hashRow env.deps row)⟩ :: rest.1,
              rest.2)

/-- What a round attempts, and the state it leaves. -/
def roundLog (env : RunEnv) (s : RunState) : List Attempt × RunState :=
  if env.cancelled s.time then ([], s)
  else if s.remaining env = some 0 then ([], s)
  else
    match fetchPage env s with
    | .error _ => ([], s)
    | .ok [] => ([], s)
    | .ok rows =>
        if env.concurrency = 0 then ([], s)
        else
          streamLog env ((env.finished s.time).apply rows) (s.fetched rows)

/-- The attempts of the first rounds of a run, and the state they leave. -/
def runLog (env : RunEnv) : ℕ → RunState → List Attempt × RunState
  | 0, s => ([], s)
  | fuel + 1, s =>
      match runStep env s with
      | .inl s' =>
          ((roundLog env s).1 ++ (runLog env fuel s').1, (runLog env fuel s').2)
      | .inr _ => roundLog env s

/-- Where a run is, as the history sees it. -/
def RunState.sweep (env : RunEnv) (s : RunState) : Sweep where
  db := s.db
  now := env.clock s.time

section Log

variable {env : RunEnv} {s s' t : RunState} {rows : List MissingHashRow}
  {row : MissingHashRow} {c : Bool} {fetched : ℤ} {fuel : ℕ} {status : String}

/-- A row with what became of it. -/
def RunEnv.result (env : RunEnv) (row : MissingHashRow) : String × Outcome :=
  (row.videoId, .of (hashRow env.deps row))

/-- The log ends where the loop did, over the rows it attempted. -/
structure LogOf (env : RunEnv) (s s' : RunState)
    (log : List Attempt × RunState) : Prop where
  stop : log.2 = s'
  attempts : s'.attempts.map env.result
    = s.attempts.map env.result ++ log.1.map fun a => (a.videoId, a.outcome)

theorem LogOf.nil (s : RunState) : LogOf env s s ([], s) :=
  ⟨rfl, (List.append_nil _).symm⟩

/-- A stream loop that returns stops where its log does. -/
theorem streamLog_ok (h : persistRows env rows s = .ok (c, s')) :
    LogOf env s s' (streamLog env rows s) := by
  induction rows generalizing s with
  | nil =>
      cases h
      exact .nil _
  | cons row rows ih =>
      simp only [persistRows] at h
      simp only [streamLog]
      split_ifs at h ⊢ with hcancel
      · cases h
        exact .nil _
      · cases hone : persistOne (env.clock s.time) env.jobRunId row
            (hashRow env.deps row) s.db
            { s.summary with scannedRows := s.summary.scannedRows + 1 } with
        | error e =>
            rw [hone] at h
            cases h
        | ok r =>
            rw [hone] at h
            obtain ⟨hend, hids⟩ := ih h
            refine ⟨hend, ?_⟩
            rw [hids]
            simp [RunState.persisted, RunEnv.result]

/-- A round that returns stops where its log does. -/
theorem roundLog_ok (h : runStep env s = .inl s' ∨
    runStep env s = .inr (.ok (status, s'))) : LogOf env s s' (roundLog env s) := by
  unfold runStep at h
  unfold roundLog
  by_cases hcancel : env.cancelled s.time = true
  · rw [if_pos hcancel] at h ⊢
    obtain h | h := h <;> cases h
    exact .nil s
  rw [if_neg hcancel] at h ⊢
  by_cases hlimit : s.remaining env = some 0
  · rw [if_pos hlimit] at h ⊢
    obtain h | h := h <;> cases h
    exact .nil s
  rw [if_neg hlimit] at h ⊢
  cases hfetch : fetchPage env s with
  | error e =>
      rw [hfetch] at h
      obtain h | h := h <;> cases h
  | ok rows =>
      rw [hfetch] at h
      cases rows with
      | nil =>
          obtain h | h := h <;> cases h
          exact .nil s
      | cons row rows =>
          by_cases hslots : env.concurrency = 0
          · simp only [if_pos hslots] at h ⊢
            obtain h | h := h <;> cases h
            exact .nil s
          · simp only [if_neg hslots] at h ⊢
            cases hrows : persistRows env
                ((env.finished s.time).apply (row :: rows))
                (s.fetched (row :: rows)) with
            | error e =>
                rw [hrows] at h
                obtain h | h := h <;> cases h
            | ok r =>
                obtain ⟨c, s₁⟩ := r
                rw [hrows] at h
                obtain rfl : s₁ = s' := by
                  cases c <;> obtain h | h := h <;> cases h <;> rfl
                have hstream := streamLog_ok hrows
                exact ⟨hstream.stop, hstream.attempts⟩

/-- The log of a run that returns `Ok` is what it attempted. -/
theorem runLog_ok (h : iterate (runStep env) fuel s = some (.ok (status, t))) :
    LogOf env s t (runLog env fuel s) := by
  induction fuel generalizing s with
  | zero => cases h
  | succ fuel ih =>
      unfold runLog
      cases hstep : runStep env s with
      | inl s' =>
          rw [iterate_next hstep] at h
          obtain ⟨-, hround⟩ := roundLog_ok (.inl hstep : _ ∨
            runStep env s = .inr (.ok (status, s')))
          obtain ⟨hend, hids⟩ := ih h
          refine ⟨hend, ?_⟩
          rw [hids, hround, List.map_append, List.append_assoc]
      | inr r =>
          rw [iterate_stop hstep] at h
          cases h
          exact roundLog_ok (.inr hstep)

/-! ## A run is a history -/

/-- The rows of a page that are still to come, as the scan saw them. -/
structure Due (env : RunEnv) (fetched : ℤ) (s : RunState)
    (rows : List MissingHashRow) : Prop where
  nodup : (rows.map (·.videoId)).Nodup
  missing : ∀ row ∈ rows, Missing env.query s.db.tables row
  ready : ∀ row ∈ rows,
    MissingHashQuery.notBackingOff fetched s.db.failures row.videoId

theorem Due.head (h : Due env fetched s (row :: rows))
    (hclock : fetched ≤ env.clock s.time) : Ready (s.sweep env) row where
  video := by
    obtain ⟨v, hv, -⟩ := (h.missing row List.mem_cons_self).master
    exact Option.isSome_iff_exists.mpr ⟨v, hv⟩
  noHash := (h.missing row List.mem_cons_self).noHash
  due := (SameVideo.refl s.db row.videoId).ready hclock
    (h.ready row List.mem_cons_self)

/-- An attempt leaves the other rows of the page as they were. -/
theorem Due.tail {db : Db} {summary summary' : PHashSummary} {now : ℤ}
    {result : Except (String × String) VideoHashResult}
    (h : Due env fetched s (row :: rows))
    (hone : persistOne now env.jobRunId row result s.db summary
      = .ok (db, summary')) :
    Due env fetched (s.persisted row db summary') rows := by
  have hnodup := List.nodup_cons.mp h.nodup
  obtain ⟨v, hv, -⟩ := (h.missing row List.mem_cons_self).master
  have hsame : ∀ r ∈ rows, SameVideo s.db db r.videoId := by
    intro r hr
    refine persistOne_frame (Option.isSome_iff_exists.mpr ⟨v, hv⟩) hone ?_
    exact fun heq => hnodup.1 (List.mem_map.mpr ⟨r, hr, heq⟩)
  refine ⟨hnodup.2, fun r hr => ?_, fun r hr => ?_⟩
  · exact (hsame r hr).missing.mpr (h.missing r (List.mem_cons_of_mem _ hr))
  · exact (hsame r hr).ready (le_refl fetched) (h.ready r (List.mem_cons_of_mem _ hr))

theorem Due.attempts (h : Due env fetched s rows)
    (hclock : fetched ≤ env.clock s.time) :
    Attempts (s.sweep env) ((streamLog env rows s).1.map .attempt)
      ((streamLog env rows s).2.sweep env) := by
  induction rows generalizing s with
  | nil => exact .nil _
  | cons row rows ih =>
      have hready := h.head hclock
      simp only [streamLog]
      split_ifs
      · exact .nil _
      · cases hone : persistOne (env.clock s.time) env.jobRunId row
            (hashRow env.deps row) s.db
            { s.summary with scannedRows := s.summary.scannedRows + 1 } with
        | error e => exact .attempt (.refused hready hone) (.nil _)
        | ok r =>
            obtain ⟨db, summary⟩ := r
            have hlater : env.clock s.time ≤ env.clock (s.time + 1) :=
              env.clock_mono (Nat.le_succ _)
            refine .attempt (.persisted hready hone) ?_
            exact .wait _ hlater (ih (h.tail hone) (hclock.trans hlater))

theorem roundLog_attempts (env : RunEnv) (s : RunState) :
    Attempts (s.sweep env) ((roundLog env s).1.map .attempt)
      ((roundLog env s).2.sweep env) := by
  unfold roundLog
  by_cases hcancel : env.cancelled s.time = true
  · rw [if_pos hcancel]
    exact .nil _
  rw [if_neg hcancel]
  by_cases hlimit : s.remaining env = some 0
  · rw [if_pos hlimit]
    exact .nil _
  rw [if_neg hlimit]
  cases hfetch : fetchPage env s with
  | error e => exact .nil _
  | ok rows =>
      cases rows with
      | nil => exact .nil _
      | cons row rows =>
          dsimp only
          split_ifs
          · exact .nil _
          · have hpage := fetchPage_isPage hfetch
            have hperm := (env.finished s.time).perm (row :: rows)
            have hlater : env.clock s.time ≤ env.clock (s.time + 1) :=
              env.clock_mono (Nat.le_succ _)
            have hdue : Due env (env.clock s.time) (s.fetched (row :: rows))
                ((env.finished s.time).apply (row :: rows)) :=
              ⟨(hperm.map _).nodup_iff.mpr hpage.nodup,
                fun r hr => hpage.missing r (hperm.mem_iff.mp hr),
                fun r hr => hpage.ready r (hperm.mem_iff.mp hr)⟩
            exact .wait _ hlater (hdue.attempts hlater)

/-- **A run is a history** of single attempts, whether it returns `Ok` or `Err`. -/
theorem runLog_attempts (env : RunEnv) (fuel : ℕ) (s : RunState) :
    Attempts (s.sweep env) ((runLog env fuel s).1.map .attempt)
      ((runLog env fuel s).2.sweep env) := by
  induction fuel generalizing s with
  | zero => exact .nil _
  | succ fuel ih =>
      have hround := roundLog_attempts env s
      unfold runLog
      cases hstep : runStep env s with
      | inr r => exact hround
      | inl s' =>
          obtain ⟨hend, -⟩ := roundLog_ok (.inl hstep : _ ∨
            runStep env s = .inr (.ok ("", s')))
          rw [hend] at hround
          rw [List.map_append]
          exact hround.append (ih s')

end Log

/-! ## Passes -/

/-- Runs of `media_phash` one after the other, each of whatever length, with other
writers at work in between; and what happens to the failures, in order. -/
inductive Passes : Sweep → List Event → Sweep → Prop
  | nil (s : Sweep) : Passes s [] s
  | pass {s t : Sweep} {es : List Event} (env : RunEnv) (fuel : ℕ)
      (hclock : s.now ≤ env.clock 0)
      (rest : Passes ((runLog env fuel (.begin env s.db)).2.sweep env) es t) :
      Passes s ((runLog env fuel (.begin env s.db)).1.map .attempt ++ es) t
  | clear {s t : Sweep} {es : List Event} (videoIds : List String)
      (rest : Passes { s with db := s.db.clearPhash videoIds } es t) :
      Passes s (.clear videoIds :: es) t
  | write {s t : Sweep} {es : List Event} {db : Db} (hdb : Writes s.db db)
      (rest : Passes { s with db := db } es t) : Passes s es t

theorem Passes.attempts {s t : Sweep} {es : List Event} (h : Passes s es t) :
    Attempts s es t := by
  induction h with
  | nil s => exact .nil s
  | @pass s t es env fuel hclock rest ih =>
      have hrun := runLog_attempts env fuel (.begin env s.db)
      exact .wait _ hclock (hrun.append ih)
  | clear videoIds _ ih => exact .clear videoIds ih
  | write hdb _ ih => exact .write hdb ih

/-- **Back-off.** In any sequence of runs a hashed video is never attempted again.
One that failed is left alone, unless its failures are cleared, for the delay its
failures of that phase make: five minutes, doubled by each since they were last
cleared, a day at most. -/
theorem passes_backOff {s t : Sweep} {pre mid post : List Event} {a b : Attempt}
    (h : Passes s (pre ++ .attempt a :: mid ++ .attempt b :: post) t)
    (hv : b.videoId = a.videoId) :
    a.outcome ≠ .hashed ∧ ∀ phase, a.outcome = .failed phase →
      (∀ e ∈ mid, e.clears a.videoId = false) →
      a.now + min (fiveMinutes * 2 ^ pre.foldl (Event.tally a.videoId phase)
        (s.db.failureCount a.videoId phase)) dayMicros ≤ b.now :=
  h.attempts.spaced hv

/-! ## What a run keeps -/

section Keeps

variable {env : RunEnv} {db : Db} {s : RunState} {status : String} {fuel : ℕ}

/-- **Rule of a run**: what fetching a page keeps and persisting a row keeps. -/
theorem runInner_rule (Inv : RunState → Prop)
    (hfetch : ∀ s rows, Inv s → Inv (s.fetched rows))
    (hone : ∀ s row db' summary, Inv s →
      persistOne (env.clock s.time) env.jobRunId row (hashRow env.deps row) s.db
        { s.summary with scannedRows := s.summary.scannedRows + 1 }
          = .ok (db', summary) → Inv (s.persisted row db' summary))
    (hs : Inv (RunState.begin env db)) (h : runInner env db fuel = some (.ok (status, s))) :
    Inv s := by
  have hrows : ∀ {rows : List MissingHashRow} {s s' : RunState} {c : Bool},
      Inv s → persistRows env rows s = .ok (c, s') → Inv s' := by
    intro rows s s' c hs h
    obtain ⟨rest, hs', -⟩ := persistRows_rule (fun t _ => Inv t)
      (fun t row rows db' summary ht h => hone t row db' summary ht h) hs h
    exact hs'
  have hpost := iterate_post Inv (fun r => ∀ status s, r = .ok (status, s) → Inv s)
    ?_ ?_ hs h
  · exact hpost status s rfl
  · intro s s' hs hstep
    have hround := round_runStep env s
    rw [hstep] at hround
    cases hround with
    | stuck _ => exact hs
    | page rows s' _ _ h => exact hrows (hfetch s rows hs) h
  · rintro s r hs hstep status s' rfl
    have hround := round_runStep env s
    rw [hstep] at hround
    generalize hr : (Sum.inr (.ok (status, s')) : RunState ⊕ RunResult) = r at hround
    cases hround with
    | cancelled _ => cases hr; exact hs
    | limit _ => cases hr; exact hs
    | empty _ _ => cases hr; exact hs
    | cut rows s₁ _ h => cases hr; exact hrows (hfetch s rows hs) h
    | fetchError _ _ => cases hr
    | stuck _ => cases hr
    | rowError _ _ _ _ => cases hr
    | page _ _ _ _ _ => cases hr

/-- What a stored hash leaves of the tables. -/
theorem persistOne_hash {now : ℤ} {jobRunId : String} {row : MissingHashRow}
    {vhr : VideoHashResult} {db' : Db} {summary summary' : PHashSummary}
    (h : persistOne now jobRunId row (.ok vhr) db summary = .ok (db', summary')) :
    (db'.tables.get (.hash (hashKeyOf row.videoId))).isSome ∧
      (∀ k, k ≠ .hash (hashKeyOf row.videoId) →
        db'.tables.get k = db.tables.get k) ∧
      db'.tables.videos = db.tables.videos := by
  unfold persistOne at h
  obtain ⟨⟨out, seq, l, t⟩, hrun, hret⟩ := bind_eq_ok.mp h
  cases hret
  have heval := perform_eval hrun
  obtain ⟨⟨up, -, hexplains⟩, honly⟩ := eval_persistOneTxn heval
  refine ⟨?_, honly, ?_⟩
  · cases up with
    | inserted => exact Option.isSome_iff_exists.mpr ⟨_, hexplains.2⟩
    | changed =>
        obtain ⟨_, -, -, hafter⟩ := hexplains
        exact Option.isSome_iff_exists.mpr ⟨_, hafter⟩
    | unchanged =>
        obtain ⟨_, -, -, hafter⟩ := hexplains
        exact Option.isSome_iff_exists.mpr ⟨_, hafter⟩
  · obtain ⟨up, l₁, u, hup, happ, -⟩ := persistOneTxn_runs_ok heval
    show (l.view db.tables).videos = db.tables.videos
    rw [view_appendIfWritten happ]
    rcases eval_upsertHashRecordTxn_view hup with hview | ⟨r, hview⟩
    · rw [hview]
      rfl
    · rw [hview]
      rfl

/-- What a run has hashed, over the tables it began on. -/
structure Hashed (env : RunEnv) (db : Db) (s : RunState) : Prop where
  videos : s.db.tables.videos = db.tables.videos
  kept : ∀ key : HashKey, (db.tables.get (.hash key)).isSome →
    (s.db.tables.get (.hash key)).isSome
  hashed : ∀ row ∈ s.attempts, (hashRow env.deps row).isOk →
    (s.db.tables.get (.hash (hashKeyOf row.videoId))).isSome
  only : ∀ key : HashKey, (s.db.tables.get (.hash key)).isSome →
    (db.tables.get (.hash key)).isSome ∨ ∃ row ∈ s.attempts,
      (hashRow env.deps row).isOk ∧ key = hashKeyOf row.videoId

theorem Hashed.persisted {now : ℤ} {row : MissingHashRow} {db' : Db}
    {summary summary' : PHashSummary} (hs : Hashed env db s)
    (h : persistOne now env.jobRunId row (hashRow env.deps row) s.db summary
      = .ok (db', summary')) : Hashed env db (s.persisted row db' summary') := by
  cases hres : hashRow env.deps row with
  | error failure =>
      obtain ⟨phase, err⟩ := failure
      rw [hres, persistOne_error] at h
      obtain ⟨t, -, ht⟩ := map_eq_ok.mp h
      cases ht
      refine ⟨hs.videos, hs.kept, ?_, ?_⟩
      · intro r hr hok
        rcases List.mem_append.mp hr with hr | hr
        · exact hs.hashed r hr hok
        · rw [List.mem_singleton.mp hr, hres] at hok
          cases hok
      · intro key hkey
        refine (hs.only key hkey).imp_right ?_
        rintro ⟨r, hr, hok⟩
        exact ⟨r, List.mem_append_left _ hr, hok⟩
  | ok vhr =>
      rw [hres] at h
      obtain ⟨hnew, hother, hvideos⟩ := persistOne_hash h
      have hmono : ∀ key : HashKey, (s.db.tables.get (.hash key)).isSome →
          (db'.tables.get (.hash key)).isSome := by
        intro key hkey
        by_cases hk : key = hashKeyOf row.videoId
        · rw [hk]
          exact hnew
        · rw [hother (.hash key) fun h => hk (TableKey.hash.inj h)]
          exact hkey
      refine ⟨hvideos.trans hs.videos, fun key hk => hmono key (hs.kept key hk),
        ?_, ?_⟩
      · intro r hr hok
        rcases List.mem_append.mp hr with hr | hr
        · exact hmono _ (hs.hashed r hr hok)
        · rw [List.mem_singleton.mp hr]
          exact hnew
      · intro key hkey
        by_cases hk : key = hashKeyOf row.videoId
        · exact .inr ⟨row, List.mem_append_right _ List.mem_cons_self, by
            rw [hres]; rfl, hk⟩
        · have hsame := hother (.hash key) fun h => hk (TableKey.hash.inj h)
          have hkey' : (db'.tables.get (.hash key)).isSome := hkey
          rw [hsame] at hkey'
          refine (hs.only key hkey').imp_right ?_
          rintro ⟨r, hr, hok⟩
          exact ⟨r, List.mem_append_left _ hr, hok⟩

theorem runInner_hashed (h : runInner env db fuel = some (.ok (status, s))) :
    Hashed env db s := by
  refine runInner_rule (Hashed env db) (fun s rows hs => ⟨hs.1, hs.2, hs.3, hs.4⟩)
    (fun s row db' summary hs h => hs.persisted h) ⟨rfl, fun _ h => h, ?_, ?_⟩ h
  · intro row hr
    cases hr
  · exact fun _ h => .inl h

end Keeps

/-! ## Before a drain and after it -/

section Drain

variable {env : RunEnv} {db : Db} {s : RunState} {status : String} {fuel : ℕ}

/-- After a run a video it attempted has its hash, or a failure that is due five
minutes after the run began at the earliest. -/
theorem runInner_attempted (h : runInner env db fuel = some (.ok (status, s)))
    {row : MissingHashRow} (hrow : row ∈ s.attempts)
    (hnone : s.db.tables.get (.hash (hashKeyOf row.videoId)) = none) :
    ∃ phase f due, s.db.failures.find (JobFailures.phashKey row.videoId phase)
      = some f ∧ f.nextRetryAt = some due ∧ env.clock 0 + fiveMinutes ≤ due := by
  have hlogged : LogOf env (.begin env db) s (runLog env fuel (.begin env db)) :=
    runLog_ok h
  obtain ⟨hend, hlog⟩ := hlogged
  have hrun := runLog_attempts env fuel (.begin env db)
  have hres : env.result row ∈
      (runLog env fuel (.begin env db)).1.map fun a => (a.videoId, a.outcome) := by
    have hmem : env.result row ∈ s.attempts.map env.result := List.mem_map_of_mem hrow
    rw [hlog] at hmem
    exact (List.mem_append.mp hmem).resolve_left List.not_mem_nil
  obtain ⟨a, ha, hares⟩ := List.mem_map.mp hres
  obtain ⟨hv, hout⟩ := Prod.mk.inj hares
  obtain ⟨pre, post, hsplit⟩ := List.append_of_mem ha
  rw [hsplit, hend, List.map_append, List.map_cons] at hrun
  obtain ⟨u, u', hpre, hat, hpost⟩ := hrun.at_attempt
  rw [← hv] at hnone ⊢
  have hno : ¬ (s.db.tables.get (.hash (hashKeyOf a.videoId))).isSome := by
    rw [hnone]
    exact nofun
  cases hresult : hashRow env.deps row with
  | ok vhr =>
      rw [hresult] at hout
      exact absurd (hpost.hash_isSome (hat.hashed hout)) hno
  | error failure =>
      rw [hresult] at hout
      obtain ⟨f, hf, hdue⟩ := hat.retryAt hout
      have hstart : env.clock 0 ≤ u.now := hpre.now_le
      have hdelay := fiveMinutes_le_retryDelay (u.db.failureCount a.videoId failure.1)
      have hfirst : env.clock 0 + fiveMinutes
          ≤ a.now + retryDelay (u.db.failureCount a.videoId failure.1) := by
        rw [hat.now_eq.1]
        omega
      refine (hpost.backingOff (fun e he => ?_) ?_
        ⟨failure.1, f, _, hf, hdue, hfirst⟩).resolve_left hno
      · obtain ⟨_, _, rfl⟩ := List.mem_map.mp he
        rfl
      · rw [hat.now_eq.2]
        omega

/-- A run that nothing stops attempts all that was eligible. -/
theorem run_attempts (hlimit : env.limit = none) (hsize : 1 ≤ env.pageSize)
    (hcancel : ∀ n, env.cancelled n = false)
    (hr : runInner env db fuel = some (.ok (status, s))) {row : MissingHashRow}
    (hrow : Eligible env db row) : row ∈ s.attempts := by
  have hdone := runInner_ok hr
  refine hdone.attempted ?_ ?_ (by omega) row hrow
  · intro hs
    obtain ⟨n, hn⟩ := hdone.cancelled hs
    rw [hcancel n] at hn
    cases hn
  · unfold RunState.remaining
    rw [hlimit]
    exact nofun

/-- A retry that a video waits for after a run: due after the run began, and five
minutes after at the earliest if the run was to attempt the video. -/
def Awaits (env : RunEnv) (db db' : Db) (videoId : String) (due : ℤ) : Prop :=
  (∃ f ∈ db'.failures.ofVideo videoId, f.nextRetryAt = some due) ∧
    env.clock 0 < due ∧
    (MissingHashQuery.notBackingOff (env.clock 0) db.failures videoId →
      env.clock 0 + fiveMinutes ≤ due)

/-- What a run that returns `Ok` leaves without a hash waits for a retry. -/
theorem run_awaits (hlimit : env.limit = none) (hsize : 1 ≤ env.pageSize)
    (hcancel : ∀ n, env.cancelled n = false)
    (hr : runInner env db fuel = some (.ok (status, s))) {row : MissingHashRow}
    (hmissing : Missing env.query s.db.tables row) :
    ∃ due, Awaits env db s.db row.videoId due := by
  by_cases hmem : row.videoId ∈ s.ids
  · obtain ⟨done, hatt, hid⟩ := List.mem_map.mp hmem
    have hnone := hmissing.noHash
    rw [← hid] at hnone ⊢
    obtain ⟨phase, f, due, hf, hdue, hle⟩ := runInner_attempted hr hatt hnone
    have hpos : 0 < fiveMinutes := by decide
    unfold JobFailures.phashKey at hf
    rw [JobFailures.find_eq_ofVideo] at hf
    exact ⟨due, ⟨f, List.mem_of_find?_eq_some hf, hdue⟩, by omega, fun _ => hle⟩
  · -- an unattempted row is as it was when the run began
    have hsame := (runInner_ok hr).untouched _ hmem
    have hback : ¬ MissingHashQuery.notBackingOff (env.clock 0) db.failures
        row.videoId = true := fun hready =>
      hmem (List.mem_map_of_mem (run_attempts hlimit hsize hcancel hr
        ⟨hsame.missing.mp hmissing, hready⟩))
    obtain ⟨f, hf, due, hdue, hlt⟩ := MissingHashQuery.notBackingOff_eq_false.mp
      (Bool.eq_false_iff.mpr hback)
    refine ⟨due, ⟨f, ?_, hdue⟩, hlt, fun hready => absurd hready hback⟩
    rw [hsame.failures]
    exact hf

end Drain

/-! ## A fleet that is offline -/

def oneVideo : Db where
  tables := { videos := AList.singleton "v" brokenVideo }

/-- The run that begins at `now`. -/
def offlineAt (now : ℤ) : RunEnv :=
  { offline with
    clock := fun _ => now
    clock_mono := fun _ _ _ => le_refl _ }

/-- Three runs, each as soon as the video is due again. -/
theorem passes_backOff_offline : ∃ t, Passes ⟨oneVideo, 0⟩
    ([.attempt ⟨0, "v", .failed "phash_download"⟩] ++
      .attempt ⟨300000000, "v", .failed "phash_download"⟩ :: [.clear ["w"]] ++
      .attempt ⟨900000000, "v", .failed "phash_download"⟩ :: []) t ∧
    (300000000 : ℤ) + min (fiveMinutes * 2 ^ 1) dayMicros ≤ 900000000 := by
  have hpasses : ∃ t, Passes ⟨oneVideo, 0⟩
      ([.attempt ⟨0, "v", .failed "phash_download"⟩] ++
        .attempt ⟨300000000, "v", .failed "phash_download"⟩ :: [.clear ["w"]] ++
        .attempt ⟨900000000, "v", .failed "phash_download"⟩ :: []) t :=
    ⟨_, .pass offline 2 (le_refl _) (.pass (offlineAt 300000000) 2 (by decide)
      (.clear ["w"] (.pass (offlineAt 900000000) 2 (by decide) (.nil _))))⟩
  obtain ⟨t, h⟩ := hpasses
  refine ⟨t, h, (passes_backOff h rfl).2 "phash_download" rfl ?_⟩
  intro e he
  rw [List.mem_singleton.mp he]
  decide

end VideoStorage.Jobs.MediaPhash
