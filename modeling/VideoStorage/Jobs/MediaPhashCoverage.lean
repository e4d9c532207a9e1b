import VideoStorage.Jobs.MediaPhashFailures

/-!
# `media_phash`: coverage

Which rows a run attempts when nothing disturbs it: the eligible ones, from the
smallest id up, each once, as many as the limit allows. While it runs the scan's
predicate changes under it, since rows get hashes or start to back off; but only
attempted rows change, and these are behind the cursor. So a row past the cursor
is selected exactly if it was eligible when the run began (`Covering.page_eligible`).
-/

namespace VideoStorage.Jobs.MediaPhash

open Foundation MediaIndex

/-! ## The eligible rows -/

/-- The eligible rows of the master table. -/
def eligibleRows (env : RunEnv) (db : Db) : List MissingHashRow :=
  (masterRows db.tables).filter fun row =>
    (db.tables.get (.hash (env.query.hashKey row.videoId))).isNone
      && (env.query.inShard row.videoId).toOption == some true
      && MissingHashQuery.notBackingOff (env.clock 0) db.failures row.videoId

section Eligible

variable {env : RunEnv} {db : Db} {row : MissingHashRow}

theorem mem_eligibleRows : row ∈ eligibleRows env db ↔ Eligible env db row := by
  unfold eligibleRows
  rw [List.mem_filter, mem_masterRows, Bool.and_eq_true, Bool.and_eq_true,
    Option.isNone_iff_eq_none, beq_iff_eq]
  have hshard : (env.query.inShard row.videoId).toOption = some true ↔
      env.query.inShard row.videoId = .ok true := by
    cases env.query.inShard row.videoId with
    | error e => exact ⟨nofun, nofun⟩
    | ok b =>
        show some b = some true ↔ Except.ok b = .ok true
        rw [Option.some.injEq, Except.ok.injEq]
  rw [hshard]
  constructor
  · rintro ⟨hmaster, ⟨hnone, hin⟩, hready⟩
    exact ⟨⟨hmaster, hnone, hin⟩, hready⟩
  · rintro ⟨⟨hmaster, hnone, hin⟩, hready⟩
    exact ⟨hmaster, ⟨hnone, hin⟩, hready⟩

theorem eligibleRows_nodup (env : RunEnv) (db : Db) :
    ((eligibleRows env db).map (·.videoId)).Nodup :=
  (masterRows_nodup db.tables).sublist (List.filter_sublist.map _)

end Eligible

/-! ## One more row -/

/-- `Progress` of a run that attempts eligible rows, each once: every hash it
computes is inserted and announced. -/
structure Tally (env : RunEnv) (db : Db) (s : RunState) : Prop
    extends Progress env db s where
  once : s.ids.Nodup
  eligible : ∀ row ∈ s.attempts, Eligible env db row
  upserted : s.summary.hashRowsUpserted = s.attempts.countP (! fails env ·)
  appended :
    s.summary.hashFeedEventsAppended = s.attempts.countP (! fails env ·)

section Rows

variable {env : RunEnv} {db db' : Db} {s s' : RunState} {row : MissingHashRow}
  {rows : List MissingHashRow} {summary : PHashSummary} {c : Bool}

theorem RunState.ids_persisted :
    (s.persisted row db' summary).ids = s.ids ++ [row.videoId] := by
  simp [RunState.persisted, RunState.ids]

/-- A computed hash of a row without one counts as a write and an event. -/
theorem persistOne_writes {now : ℤ} (hmissing : Missing env.query s.db.tables row)
    (h : persistOne now env.jobRunId row (hashRow env.deps row) s.db
      { s.summary with scannedRows := s.summary.scannedRows + 1 }
        = .ok (db', summary)) :
    summary.hashRowsUpserted
        = s.summary.hashRowsUpserted + (if ! fails env row then 1 else 0) ∧
      summary.hashFeedEventsAppended
        = s.summary.hashFeedEventsAppended
          + (if ! fails env row then 1 else 0) := by
  unfold fails
  cases hres : hashRow env.deps row with
  | error failure =>
      obtain ⟨phase, err⟩ := failure
      rw [hres, persistOne_error] at h
      obtain ⟨t, -, ht⟩ := map_eq_ok.mp h
      cases ht
      exact ⟨rfl, rfl⟩
  | ok vhr =>
      obtain ⟨v, hv, -⟩ := hmissing.master
      have hvideo : (mediaIndex .none).present s.db.tables
          (TableKey.video row.videoId) := by
        show (s.db.tables.get (.video row.videoId)).isSome
        rw [hv]
        rfl
      obtain ⟨db₁, out, hok, -, -, hout⟩ := persistOne_ok hvideo
      obtain rfl := hout hmissing.noHash
      rw [hres, hok] at h
      cases h
      exact ⟨rfl, rfl⟩

theorem Tally.persisted {now : ℤ} (ht : Tally env db s)
    (hfresh : row.videoId ∉ s.ids) (helig : Eligible env db row)
    (hvideo : (mediaIndex .none).present s.db.tables
      (TableKey.video row.videoId))
    (h : persistOne now env.jobRunId row (hashRow env.deps row) s.db
      { s.summary with scannedRows := s.summary.scannedRows + 1 }
        = .ok (db', summary)) :
    Tally env db (s.persisted row db' summary) := by
  have hmissing := (ht.untouched _ hfresh).missing.mpr helig.missing
  obtain ⟨hupserted, happended⟩ := persistOne_writes hmissing h
  refine ⟨ht.toProgress.persisted hfresh hvideo h, ?_, ?_, ?_, ?_⟩
  · rw [RunState.ids_persisted, ← List.concat_eq_append]
    exact ht.once.concat hfresh
  · intro r hr
    rcases List.mem_append.mp hr with hr | hr
    · exact ht.eligible r hr
    · rw [List.mem_singleton.mp hr]
      exact helig
  · simp only [RunState.persisted, List.countP_append, List.countP_singleton]
    rw [hupserted, ht.upserted]
  · simp only [RunState.persisted, List.countP_append, List.countP_singleton]
    rw [happended, ht.appended]

/-- The stream loop, over rows that were eligible when the run began. -/
theorem persistRows_tally (h : persistRows env rows s = .ok (c, s'))
    (ht : Tally env db s) (hpend : Pending s rows)
    (helig : ∀ row ∈ rows, Eligible env db row) : Tally env db s' := by
  have hrule := persistRows_rule
    (fun t todo => Tally env db t ∧ Pending t todo ∧
      ∀ row ∈ todo, Eligible env db row) ?_ ⟨ht, hpend, helig⟩ h
  · obtain ⟨rest, ⟨ht', -, -⟩, -⟩ := hrule
    exact ht'
  · rintro t row todo db' summary ⟨ht, htodo, helig⟩ hone
    have hfresh := htodo.fresh row List.mem_cons_self
    have hvideo := htodo.master row List.mem_cons_self
    have hrow := helig row List.mem_cons_self
    exact ⟨ht.persisted hfresh hrow hvideo hone, htodo.tail hone,
      fun r hr => helig r (List.mem_cons_of_mem _ hr)⟩

end Rows

/-! ## One more page -/

theorem SameVideo.symm {db db' : Db} {videoId : String}
    (h : SameVideo db db' videoId) : SameVideo db' db videoId :=
  ⟨h.master.symm, fun k hk => (h.hash k hk).symm, h.failures.symm⟩

/-- Between two pages of a run that keeps to its limit. -/
structure Coverage (env : RunEnv) (db : Db) (s : RunState) : Prop
    extends Covering env db s, Tally env db s where
  within : ∀ l, env.limit = some l → (s.attempts.length : ℤ) ≤ l

section Pages

variable {env : RunEnv} {db : Db} {s s' : RunState} {rows : List MissingHashRow}

theorem coverage_init (db : Db) (hlimit : ∀ l, env.limit = some l → 0 ≤ l) :
    Coverage env db { db := db, summary := { jobRunId := env.jobRunId } } where
  toCovering := covering_init env db
  once := List.nodup_nil
  eligible row hr := by cases hr
  upserted := rfl
  appended := rfl
  within := hlimit

/-- **What a page holds.** Its rows were not attempted, so nothing that the
predicate reads of them has changed. -/
theorem Covering.page_eligible (h : Covering env db s)
    (hclock : ∀ n, env.clock n = env.clock 0)
    (hfetch : fetchPage env s = .ok rows) :
    ∀ row ∈ rows, Eligible env db row := by
  intro row hr
  have hpage := fetchPage_isPage hfetch
  have hsame := h.untouched _ (h.fresh (hpage.past row hr))
  exact ⟨hsame.missing.mp (hpage.missing row hr),
    hsame.symm.ready (hclock s.time).le (hpage.ready row hr)⟩

theorem Coverage.remaining_eq {r : ℤ} (h : Coverage env db s)
    (hr : s.remaining env = some r) :
    ∃ l, env.limit = some l ∧ r = l - s.attempts.length := by
  obtain ⟨l, hl, rfl⟩ := Option.map_eq_some_iff.mp hr
  exact ⟨l, hl, by rw [h.scanned]⟩

theorem Coverage.batchLimit_nonneg (h : Coverage env db s)
    (hsize : 0 ≤ env.pageSize) : 0 ≤ s.batchLimit env := by
  unfold RunState.batchLimit
  cases hr : s.remaining env with
  | none => exact hsize
  | some r =>
      obtain ⟨l, hl, rfl⟩ := h.remaining_eq hr
      have hwithin := h.within l hl
      exact le_min (by omega) hsize

theorem Coverage.page (h : Coverage env db s)
    (hclock : ∀ n, env.clock n = env.clock 0)
    (hfetch : fetchPage env s = .ok rows) (hne : rows ≠ [])
    (hrows : persistRows env ((env.finished s.time).apply rows) (s.fetched rows)
      = .ok (false, s')) : Coverage env db s' := by
  have hperm := (env.finished s.time).perm rows
  have htally : Tally env db (s.fetched rows) :=
    ⟨h.toProgress.fetched, h.once, h.eligible, h.upserted, h.appended⟩
  have htally' := persistRows_tally hrows htally (h.pending hfetch)
    fun row hr => h.page_eligible hclock hfetch row (hperm.mem_iff.mp hr)
  refine ⟨h.toCovering.page hfetch hne hrows, htally'.once, htally'.eligible,
    htally'.upserted, htally'.appended, ?_⟩
  obtain ⟨-, -, -, hatt⟩ := h.stream hfetch hrows
  intro l hl
  have hlen : s'.attempts.length = s.attempts.length + rows.length := by
    rw [hatt rfl, List.length_append, hperm.length_eq]
  -- the page was cut by what is left of the limit
  have hbatch := length_videosMissing hfetch
  unfold RunState.batchLimit RunState.remaining at hbatch
  rw [hl, Option.map_some, h.scanned] at hbatch
  dsimp only at hbatch
  omega

theorem Coverage.step (h : Coverage env db s)
    (hclock : ∀ n, env.clock n = env.clock 0)
    (hstep : runStep env s = .inl s') : Coverage env db s' := by
  have hround := round_runStep env s
  rw [hstep] at hround
  cases hround with
  | stuck _ => exact h
  | page rows s' hfetch hne hrows => exact h.page hclock hfetch hne hrows

/-- An eligible row below an attempted one is behind the cursor too. -/
theorem Coverage.fromBelow (h : Coverage env db s) :
    FromBelow MissingHashRow.videoId (eligibleRows env db) s.attempts where
  nodup := h.once
  subset row hr := mem_eligibleRows.mpr (h.eligible row hr)
  below row hr other hother hlt := by
    refine h.covered other (mem_eligibleRows.mp hother) ?_
    have hbehind := h.behind row.videoId (List.mem_map_of_mem hr)
    cases hafter : s.after with
    | none =>
        rw [hafter] at hbehind
        cases hbehind
    | some a =>
        rw [hafter, past_some, decide_eq_false_iff_not, not_lt] at hbehind
        rw [past_some, decide_eq_false_iff_not, not_lt]
        exact hlt.le.trans hbehind

end Pages

/-! ## Runs -/

/-- No statement of the run fails: each failure ends the run with its error. -/
def NoSqlErrors (env : RunEnv) (db : Db) : Prop :=
  ∀ fuel e, runInner env db fuel ≠ some (.error e)

/-- What a run that is left alone leaves behind: it attempted the first of the
eligible rows, in whatever order, and counted what became of each. -/
structure Covers (env : RunEnv) (db : Db) (status : String) (s : RunState) :
    Prop where
  once : s.ids.Nodup
  attempted : s.attempts.Perm (orderLimit MissingHashRow.videoId
    (env.limit.map Int.toNat) (eligibleRows env db))
  scanned : s.summary.scannedRows = s.attempts.length
  failed : s.summary.rowFailures = s.attempts.countP (fails env)
  upserted : s.summary.hashRowsUpserted = s.attempts.countP (! fails env ·)
  appended :
    s.summary.hashFeedEventsAppended = s.attempts.countP (! fails env ·)
  status : status = if s.summary.rowFailures = 0 then "succeeded"
    else "succeeded_with_failures"

section Runs

variable {env : RunEnv} {db : Db} {s s' : RunState} {status : String}

/-- Not cancelled, a run ends where it looked for the next page. -/
theorem runStep_stop (hcancel : ∀ n, env.cancelled n = false)
    (h : Covering env db s) (hstep : runStep env s = .inr (.ok (status, s'))) :
    s' = s ∧ status = terminalStatus false s.summary.rowFailures := by
  have hround := round_runStep env s
  rw [hstep] at hround
  generalize hr : (Sum.inr (.ok (status, s')) : RunState ⊕ RunResult) = r at hround
  cases hround with
  | cancelled hc =>
      rw [hcancel] at hc
      cases hc
  | limit _ =>
      cases hr
      exact ⟨rfl, rfl⟩
  | fetchError e _ => cases hr
  | empty _ _ =>
      cases hr
      exact ⟨rfl, rfl⟩
  | stuck _ => cases hr
  | rowError rows e _ _ => cases hr
  | cut rows s₁ hfetch hrows =>
      obtain ⟨-, -, hc, -⟩ := h.stream hfetch hrows
      obtain ⟨n, hn⟩ := hc rfl
      rw [hcancel] at hn
      cases hn
  | page rows s₁ _ _ _ => cases hr

theorem Coverage.covers (h : Coverage env db s)
    (hcancel : ∀ n, env.cancelled n = false) (hsize : 1 ≤ env.pageSize)
    (hstep : runStep env s = .inr (.ok (status, s'))) :
    Covers env db status s' := by
  have hskipped := h.toCovering.ok hstep
  obtain ⟨rfl, rfl⟩ := runStep_stop hcancel h.toCovering hstep
  refine ⟨h.once, ?_, h.scanned, h.counted, h.upserted, h.appended, rfl⟩
  refine h.fromBelow.perm_orderLimit (eligibleRows_nodup env db) ?_ ?_
  · intro n hn
    obtain ⟨l, hl, rfl⟩ := Option.map_eq_some_iff.mp hn
    have hwithin := h.within l hl
    omega
  · by_cases hrem : s'.remaining env = some 0
    · -- the limit is used up
      obtain ⟨l, hl, hzero⟩ := h.remaining_eq hrem
      refine .inl ?_
      rw [hl, Option.map_some, Option.some.injEq]
      omega
    · -- the next page was empty
      refine .inr fun row hr => ?_
      exact hskipped.attempted (terminalStatus_ne _) hrem (by omega) row
        (mem_eligibleRows.mp hr)

/-- The shard of a row only depends on its id, and no run adds a video. -/
theorem Coverage.fetchPage_isOk (h : Coverage env db s)
    (hsize : 0 ≤ env.pageSize) (hshard : ∀ row ∈ masterRows db.tables,
      ∃ b, env.query.inShard row.videoId = .ok b) :
    ∃ rows, fetchPage env s = .ok rows := by
  refine videosMissing_isOk ?_ ?_
  · intro n hn
    obtain rfl := Option.some.inj hn
    exact h.batchLimit_nonneg hsize
  · intro row hr
    by_cases hmem : row.videoId ∈ s.ids
    · obtain ⟨done, hdone, hid⟩ := List.mem_map.mp hmem
      exact ⟨true, hid ▸ (h.eligible done hdone).missing.shard⟩
    · obtain ⟨v, hv, hrow⟩ := mem_masterRows.mp hr
      refine hshard row (mem_masterRows.mpr ⟨v, ?_, hrow⟩)
      rw [← (h.untouched _ hmem).master]
      exact hv

/-- The statements of a run that can fail are the one that doubles a delay and
the one that puts a row in a shard. -/
theorem noSqlErrors (hsize : 0 ≤ env.pageSize)
    (hlimit : ∀ l, env.limit = some l → 0 ≤ l)
    (hclock : ∀ n, env.clock n = env.clock 0) (hbound : RetriesBounded env db)
    (hshard : ∀ row ∈ masterRows db.tables,
      ∃ b, env.query.inShard row.videoId = .ok b) : NoSqlErrors env db := by
  intro fuel e h
  have hpost := iterate_post
    (fun s => Coverage env db s ∧ Rounds (runStep env) (.begin env db) s)
    (fun r => ∀ e, r ≠ .error e) ?_ ?_ ⟨coverage_init db hlimit, .refl⟩ h
  · exact hpost e rfl
  · rintro s s' ⟨hs, hrounds⟩ hstep
    exact ⟨hs.step hclock hstep, hrounds.tail hstep⟩
  · rintro s r ⟨hs, hrounds⟩ hstep e rfl
    obtain ⟨e', -, herror⟩ := rounds_error hbound hrounds hstep
    obtain ⟨rows, hfetch⟩ := hs.fetchPage_isOk hsize hshard
    rw [hfetch] at herror
    cases herror

/-- **Coverage.** A run that nothing disturbs ends, having attempted exactly the
eligible rows with the smallest ids, as many as its limit allows. -/
theorem run_covers (env : RunEnv) (db : Db) (hsize : 1 ≤ env.pageSize)
    (hslots : 1 ≤ env.concurrency) (hlimit : ∀ l, env.limit = some l → 0 ≤ l)
    (hcancel : ∀ n, env.cancelled n = false)
    (hclock : ∀ n, env.clock n = env.clock 0) (hsql : NoSqlErrors env db) :
    ∃ fuel status s, runInner env db fuel = some (.ok (status, s)) ∧
      Covers env db status s := by
  obtain ⟨fuel, r, hr⟩ := @runInner_total env db hslots
  cases r with
  | error e => exact absurd hr (hsql fuel e)
  | ok result =>
      obtain ⟨status, s⟩ := result
      refine ⟨fuel, status, s, hr, ?_⟩
      have hpost := iterate_post (Coverage env db)
        (fun r => ∀ status s, r = .ok (status, s) → Covers env db status s)
        (fun _ _ hs hstep => hs.step hclock hstep) ?_ (coverage_init db hlimit) hr
      · exact hpost status s rfl
      · rintro s r hs hstep status s' rfl
        exact hs.covers hcancel hsize hstep

end Runs

/-! ## Two of three videos -/

/-- Two rows at most, page by page; the downloads of one video fail. -/
def cutShort : RunEnv :=
  { offline with
    deps := { offline.deps with
      s3 := fun row _ => if row.videoId = "a" then .error "timeout" else .ok ()
      decode := fun _ => .ok (.ok ⟨"0110", ⟨⟨0⟩, 0, 0, 0, ⟨0⟩⟩⟩) }
    limit := some 2
    pageSize := 1 }

def threeVideos : Db where
  tables := {
    videos := ((AList.singleton "b" brokenVideo).insert "a" brokenVideo).insert
      "c" brokenVideo }

example : (eligibleRows cutShort threeVideos).map (·.videoId) = ["c", "a", "b"] := by
  decide

theorem run_covers_two_of_three : ∃ fuel status s,
    runInner cutShort threeVideos fuel = some (.ok (status, s)) ∧
      Covers cutShort threeVideos status s := by
  have hlimit : ∀ l, cutShort.limit = some l → 0 ≤ l := by
    rintro l ⟨⟩
    decide
  refine run_covers cutShort threeVideos (by decide) (by decide) hlimit
    (fun _ => rfl) (fun _ => rfl) (noSqlErrors (by decide) hlimit (fun _ => rfl)
      ?_ fun _ _ => ⟨true, rfl⟩)
  intro row phase err f _ _ hf
  cases hf

end VideoStorage.Jobs.MediaPhash
