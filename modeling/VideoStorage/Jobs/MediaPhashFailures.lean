import VideoStorage.Jobs.MediaPhashRun

/-!
# `media_phash`: failing rows

A run that began on `db` keeps `Progress`, row by row and page by page, and never
skips an eligible row (`Covering`). The result is `row_failures`: failing rows are
counted and skipped exactly as long as those that the run attempts have stored
counts by which the back-off can be doubled (`RetriesBounded`).
-/

namespace VideoStorage.Jobs.MediaPhash

open Foundation MediaIndex

/-! ## What a run has done so far -/

def RunState.ids (s : RunState) : List String := s.attempts.map (·.videoId)

/-- The row could not be hashed. -/
def fails (env : RunEnv) (row : MissingHashRow) : Bool :=
  (hashRow env.deps row).toOption.isNone

/-- A failed row has its failure recorded, over the count it had. -/
def FailureRecorded (db s : Db) (videoId phase : String) : Prop :=
  (∀ f, db.failures.find (JobFailures.phashKey videoId phase) = some f →
    f.retryCount ≤ 34) ∧
  ∃ now g, s.failures.find (JobFailures.phashKey videoId phase) = some g ∧
    JobFailures.Recorded now
      (db.failures.find (JobFailures.phashKey videoId phase)) g

/-- The state of a run that began on `db`: unattempted videos are as they were,
attempts and failures are counted, failures recorded. -/
structure Progress (env : RunEnv) (db : Db) (s : RunState) : Prop where
  untouched : ∀ v, v ∉ s.ids → SameVideo db s.db v
  scanned : s.summary.scannedRows = s.attempts.length
  counted : s.summary.rowFailures = s.attempts.countP (fails env)
  recorded : ∀ row ∈ s.attempts, ∀ phase err,
    hashRow env.deps row = .error (phase, err) →
    FailureRecorded db s.db row.videoId phase

/-- Rows of a page that are still to come: distinct, not attempted, and in the
master table. -/
structure Pending (s : RunState) (rows : List MissingHashRow) : Prop where
  nodup : (rows.map (·.videoId)).Nodup
  fresh : ∀ row ∈ rows, row.videoId ∉ s.ids
  master : ∀ row ∈ rows,
    (mediaIndex .none).present s.db.tables (TableKey.video row.videoId)

section Rows

variable {env : RunEnv} {db db' : Db} {s s' : RunState} {row : MissingHashRow}
  {rows : List MissingHashRow} {summary : PHashSummary} {c : Bool}

/-- What `persist_one` adds to the totals. -/
theorem persistOne_summary {now : ℤ}
    (hvideo : (mediaIndex .none).present s.db.tables
      (TableKey.video row.videoId))
    (h : persistOne now env.jobRunId row (hashRow env.deps row) s.db
      { s.summary with scannedRows := s.summary.scannedRows + 1 }
        = .ok (db', summary)) :
    summary.scannedRows = s.summary.scannedRows + 1 ∧
      summary.rowFailures
        = s.summary.rowFailures + if fails env row then 1 else 0 := by
  unfold fails
  cases hres : hashRow env.deps row with
  | error failure =>
      obtain ⟨phase, err⟩ := failure
      rw [hres, persistOne_error] at h
      obtain ⟨t, -, ht⟩ := map_eq_ok.mp h
      cases ht
      exact ⟨rfl, rfl⟩
  | ok vhr =>
      obtain ⟨db₁, out, hok, -, -⟩ := persistOne_ok hvideo
      rw [hres, hok] at h
      cases h
      cases out <;> exact ⟨rfl, rfl⟩

theorem Progress.persisted {now : ℤ} (hp : Progress env db s)
    (hfresh : row.videoId ∉ s.ids)
    (hvideo : (mediaIndex .none).present s.db.tables
      (TableKey.video row.videoId))
    (h : persistOne now env.jobRunId row (hashRow env.deps row) s.db
      { s.summary with scannedRows := s.summary.scannedRows + 1 }
        = .ok (db', summary)) :
    Progress env db (s.persisted row db' summary) := by
  have hsummary := persistOne_summary hvideo h
  refine ⟨?_, ?_, ?_, ?_⟩
  · intro v hv
    simp only [RunState.persisted, RunState.ids, List.map_append, List.mem_append,
      List.map_cons, List.map_nil, List.mem_singleton, not_or] at hv
    exact (hp.untouched v hv.1).trans (persistOne_frame hvideo h hv.2)
  · simp only [RunState.persisted, List.length_append, List.length_singleton]
    rw [hsummary.1, hp.scanned]
  · simp only [RunState.persisted, List.countP_append, List.countP_singleton]
    rw [hsummary.2, hp.counted]
  · intro r hr phase err hres
    simp only [RunState.persisted] at hr ⊢
    rcases List.mem_append.mp hr with hr | hr
    · obtain ⟨hcount, now', g, hg, hrec⟩ := hp.recorded r hr phase err hres
      -- an earlier failure is of another video
      have hne : r.videoId ≠ row.videoId := by
        intro heq
        exact hfresh (heq ▸ List.mem_map_of_mem hr)
      refine ⟨hcount, now', g, ?_, hrec⟩
      rw [(persistOne_frame hvideo h hne).find phase]
      exact hg
    · obtain rfl := List.mem_singleton.mp hr
      -- the failure just recorded counts on from what the run found
      rw [hres, persistOne_error] at h
      obtain ⟨t, hrec, ht⟩ := map_eq_ok.mp h
      cases ht
      have hsame := (hp.untouched r.videoId hfresh).find phase
      obtain ⟨g, hg, hgrec⟩ := JobFailures.find_recordPhash hrec
      have hcount := JobFailures.recordPhash_succeeds_iff.mp ⟨t, hrec⟩
      rw [hsame] at hgrec hcount
      exact ⟨hcount, now, g, hg, hgrec⟩

theorem Pending.tail {now : ℤ} (hpend : Pending s (row :: rows))
    (h : persistOne now env.jobRunId row (hashRow env.deps row) s.db
      { s.summary with scannedRows := s.summary.scannedRows + 1 }
        = .ok (db', summary)) :
    Pending (s.persisted row db' summary) rows := by
  have hnodup := List.nodup_cons.mp hpend.nodup
  have hne : ∀ r ∈ rows, r.videoId ≠ row.videoId := by
    intro r hr heq
    exact hnodup.1 (List.mem_map.mpr ⟨r, hr, heq⟩)
  have hvideo := hpend.master row List.mem_cons_self
  refine ⟨hnodup.2, ?_, ?_⟩
  · intro r hr
    simp only [RunState.persisted, RunState.ids, List.map_append, List.mem_append,
      List.map_cons, List.map_nil, List.mem_singleton, not_or]
    exact ⟨hpend.fresh r (List.mem_cons_of_mem _ hr), hne r hr⟩
  · intro r hr
    have hmaster := (persistOne_frame hvideo h (hne r hr)).master
    have hpresent := hpend.master r (List.mem_cons_of_mem _ hr)
    unfold Schema.present at hpresent ⊢
    show (db'.tables.get (.video r.videoId)).isSome
    rw [hmaster]
    exact hpresent

/-- **Rule of the stream loop**, for what holds of the state with the rows still
to come. Only a cancellation leaves some. -/
theorem persistRows_rule (Inv : RunState → List MissingHashRow → Prop)
    (hrow : ∀ s row rows db' summary, Inv s (row :: rows) →
      persistOne (env.clock s.time) env.jobRunId row (hashRow env.deps row) s.db
        { s.summary with scannedRows := s.summary.scannedRows + 1 }
          = .ok (db', summary) → Inv (s.persisted row db' summary) rows)
    (hs : Inv s rows) (h : persistRows env rows s = .ok (c, s')) :
    ∃ rest, Inv s' rest ∧ (c = false → rest = []) ∧
      (c = true → ∃ n, env.cancelled n = true) := by
  induction rows generalizing s with
  | nil =>
      cases h
      exact ⟨[], hs, fun _ => rfl, nofun⟩
  | cons row rows ih =>
      simp only [persistRows] at h
      split_ifs at h with hcancel
      · cases h
        exact ⟨_, hs, nofun, fun _ => ⟨_, hcancel⟩⟩
      · cases hone : persistOne (env.clock s.time) env.jobRunId row
            (hashRow env.deps row) s.db
            { s.summary with scannedRows := s.summary.scannedRows + 1 } with
        | error e =>
            rw [hone] at h
            cases h
        | ok r =>
            rw [hone] at h
            exact ih (hrow s row rows r.1 r.2 hs hone) h

/-- The stream loop goes through the page in order and leaves the cursor. -/
theorem persistRows_progress (h : persistRows env rows s = .ok (c, s'))
    (hp : Progress env db s) (hpend : Pending s rows) :
    Progress env db s' ∧ s'.after = s.after ∧
      (c = true → ∃ n, env.cancelled n = true) ∧
      (c = false → s'.attempts = s.attempts ++ rows) := by
  have hrule := persistRows_rule
    (fun t todo => Progress env db t ∧ Pending t todo ∧ t.after = s.after ∧
      t.attempts ++ todo = s.attempts ++ rows) ?_ ⟨hp, hpend, rfl, rfl⟩ h
  · obtain ⟨rest, ⟨hp', -, hafter, hatt⟩, hrest, hcancel⟩ := hrule
    refine ⟨hp', hafter, hcancel, fun hc => ?_⟩
    rw [← hatt, hrest hc, List.append_nil]
  · rintro t row todo db' summary ⟨ht, htodo, hafter, hatt⟩ hone
    have hfresh := htodo.fresh row List.mem_cons_self
    have hvideo := htodo.master row List.mem_cons_self
    refine ⟨ht.persisted hfresh hvideo hone, htodo.tail hone, hafter, ?_⟩
    rw [← hatt]
    exact List.append_assoc t.attempts [row] todo

/-- A row is an error of the run exactly when its failure is the one after the last
that can be recorded. -/
theorem persistOne_error_iff {now : ℤ}
    (hvideo : (mediaIndex .none).present s.db.tables
      (TableKey.video row.videoId)) :
    (∃ e, persistOne now env.jobRunId row (hashRow env.deps row) s.db summary
        = .error e) ↔
      ∃ phase err f, hashRow env.deps row = .error (phase, err) ∧
        s.db.failures.find (JobFailures.phashKey row.videoId phase) = some f ∧
        34 < f.retryCount := by
  cases hres : hashRow env.deps row with
  | ok vhr =>
      obtain ⟨db', out, hok, -, -⟩ := persistOne_ok hvideo
      rw [hok]
      simp
  | error failure =>
      obtain ⟨phase, err⟩ := failure
      rw [persistOne_error]
      have hsucceeds : (∃ t', s.db.failures.recordPhash now env.jobRunId row.videoId
          phase err = .ok t') ↔ _ := JobFailures.recordPhash_succeeds_iff
      cases hrec : s.db.failures.recordPhash now env.jobRunId row.videoId phase err with
      | ok t =>
          have hle := hsucceeds.mp ⟨t, hrec⟩
          refine iff_of_false nofun ?_
          rintro ⟨_, _, f, heq, hf, hcount⟩
          obtain ⟨rfl, rfl⟩ := Prod.mk.inj (Except.error.inj heq)
          exact absurd (hle f hf) (by omega)
      | error e =>
          refine iff_of_true ⟨e, rfl⟩ ?_
          -- were every count small, the failure would be recorded
          by_contra hnone
          have hle : ∀ f, s.db.failures.find
              (JobFailures.phashKey row.videoId phase) = some f →
              f.retryCount ≤ 34 := by
            intro f hf
            by_contra hcount
            exact hnone ⟨phase, err, f, rfl, hf, by omega⟩
          obtain ⟨t, ht⟩ := hsucceeds.mpr hle
          rw [hrec] at ht
          cases ht

theorem persistRows_cons (hgoing : env.cancelled s.time = false)
    (h : persistOne (env.clock s.time) env.jobRunId row (hashRow env.deps row) s.db
      { s.summary with scannedRows := s.summary.scannedRows + 1 }
        = .ok (db', summary)) :
    persistRows env (row :: rows) s =
      persistRows env rows (s.persisted row db' summary) := by
  simp only [persistRows, hgoing, h]
  rfl

theorem persistRows_cons_error {e : SqlError} (hgoing : env.cancelled s.time = false)
    (h : persistOne (env.clock s.time) env.jobRunId row (hashRow env.deps row) s.db
      { s.summary with scannedRows := s.summary.scannedRows + 1 } = .error e) :
    persistRows env (row :: rows) s = .error (.persist row.videoId e) := by
  simp only [persistRows, hgoing, h]
  rfl

theorem persistRows_cons_cancelled (hcancel : env.cancelled s.time = true) :
    persistRows env (row :: rows) s = .ok (true, s) := by
  simp only [persistRows, hcancel]
  rfl

/-- The stream loop, from a row on that it comes to. -/
theorem persistRows_append {before : List MissingHashRow}
    (h : persistRows env before s = .ok (false, s')) :
    persistRows env (before ++ rows) s = persistRows env rows s' := by
  induction before generalizing s with
  | nil =>
      cases h
      rfl
  | cons row before ih =>
      cases hgoing : env.cancelled s.time with
      | true =>
          rw [persistRows_cons_cancelled hgoing] at h
          cases h
      | false =>
          cases hone : persistOne (env.clock s.time) env.jobRunId row
              (hashRow env.deps row) s.db
              { s.summary with scannedRows := s.summary.scannedRows + 1 } with
          | error e =>
              rw [persistRows_cons_error hgoing hone] at h
              cases h
          | ok r =>
              rw [persistRows_cons hgoing hone] at h
              rw [List.cons_append, persistRows_cons hgoing hone]
              exact ih h

/-- An error of the stream loop is one of a row that it came to. -/
theorem persistRows_error {e : RunError} (h : persistRows env rows s = .error e) :
    ∃ before row rest t e', rows = before ++ row :: rest ∧
      persistRows env before s = .ok (false, t) ∧ env.cancelled t.time = false ∧
      persistOne (env.clock t.time) env.jobRunId row (hashRow env.deps row) t.db
        { t.summary with scannedRows := t.summary.scannedRows + 1 } = .error e' ∧
      e = .persist row.videoId e' := by
  induction rows generalizing s with
  | nil => cases h
  | cons row rows ih =>
      cases hgoing : env.cancelled s.time with
      | true =>
          rw [persistRows_cons_cancelled hgoing] at h
          cases h
      | false =>
          cases hone : persistOne (env.clock s.time) env.jobRunId row
              (hashRow env.deps row) s.db
              { s.summary with scannedRows := s.summary.scannedRows + 1 } with
          | error e' =>
              rw [persistRows_cons_error hgoing hone] at h
              exact ⟨[], row, rows, s, e', rfl, rfl, hgoing, hone,
                (Except.error.inj h).symm⟩
          | ok r =>
              rw [persistRows_cons hgoing hone] at h
              obtain ⟨before, row', rest, t, e', rfl, hbefore, hrest⟩ := ih h
              refine ⟨row :: before, row', rest, t, e', rfl, ?_, hrest⟩
              rw [persistRows_cons hgoing hone]
              exact hbefore

end Rows

/-! ## Nothing eligible is skipped -/

/-- Eligible when the run begins: without a hash, in its shard, not backing
off. -/
structure Eligible (env : RunEnv) (db : Db) (row : MissingHashRow) : Prop where
  missing : Missing env.query db.tables row
  ready : MissingHashQuery.notBackingOff (env.clock 0) db.failures row.videoId

/-- Between two pages: every video attempted is behind the cursor, and every
eligible row behind the cursor was attempted. -/
structure Covering (env : RunEnv) (db : Db) (s : RunState) : Prop
    extends Progress env db s where
  behind : ∀ v ∈ s.ids, past s.after v = false
  covered : ∀ row, Eligible env db row → past s.after row.videoId = false →
    row ∈ s.attempts

section Pages

variable {env : RunEnv} {db : Db} {s s' : RunState} {row last : MissingHashRow}
  {rows : List MissingHashRow} {c : Bool}

theorem covering_init (env : RunEnv) (db : Db) :
    Covering env db { db := db, summary := { jobRunId := env.jobRunId } } where
  untouched v _ := .refl db v
  scanned := rfl
  counted := rfl
  recorded row hr := by cases hr
  behind v hv := by cases hv
  covered row _ h := by cases h

theorem Covering.fresh (h : Covering env db s)
    (hpast : past s.after row.videoId = true) : row.videoId ∉ s.ids := by
  intro hmem
  rw [h.behind _ hmem] at hpast
  cases hpast

theorem fetchPage_isPage (hfetch : fetchPage env s = .ok rows) :
    IsPage env.query (env.clock s.time) s.after (some (s.batchLimit env))
      s.db.tables s.db.failures rows :=
  isPage_videosMissing hfetch

/-- The rows of a page, in whatever order they come, are all still to do. -/
theorem Covering.pending (h : Covering env db s)
    (hfetch : fetchPage env s = .ok rows) :
    Pending (s.fetched rows) ((env.finished s.time).apply rows) := by
  have hpage := fetchPage_isPage hfetch
  have hperm := (env.finished s.time).perm rows
  refine ⟨(hperm.map _).nodup_iff.mpr hpage.nodup, ?_, ?_⟩
  · intro row hr
    exact h.fresh (hpage.past row (hperm.mem_iff.mp hr))
  · intro row hr
    obtain ⟨v, hv, -⟩ := (hpage.missing row (hperm.mem_iff.mp hr)).master
    show (s.db.tables.get (.video row.videoId)).isSome
    rw [hv]
    rfl

theorem Progress.fetched (h : Progress env db s) :
    Progress env db (s.fetched rows) :=
  ⟨h.untouched, h.scanned, h.counted, h.recorded⟩

/-- What the stream loop does with a page. -/
theorem Covering.stream (h : Covering env db s)
    (hfetch : fetchPage env s = .ok rows)
    (hrows : persistRows env ((env.finished s.time).apply rows) (s.fetched rows)
      = .ok (c, s')) :
    Progress env db s' ∧ s'.after = nextCursor MissingHashRow.videoId rows ∧
      (c = true → ∃ n, env.cancelled n = true) ∧
      (c = false →
        s'.attempts = s.attempts ++ (env.finished s.time).apply rows) :=
  persistRows_progress hrows h.toProgress.fetched (h.pending hfetch)

/-- An eligible row past the cursor is on the page or past its last row. -/
theorem Covering.fetched_or_past (h : Covering env db s)
    (hfetch : fetchPage env s = .ok rows) (helig : Eligible env db row)
    (hpast : past s.after row.videoId = true)
    (hlimit : s.batchLimit env ≠ 0) :
    row ∈ rows ∨
      ∃ last, rows.getLast? = some last ∧ last.videoId < row.videoId := by
  have hsame := h.untouched _ (h.fresh hpast)
  have hclock : env.clock 0 ≤ env.clock s.time := env.clock_mono (Nat.zero_le _)
  refine (fetchPage_isPage hfetch).noGaps row (hsame.missing.mpr helig.missing)
    hpast (hsame.ready hclock helig.ready) ?_
  exact fun hz => hlimit (Option.some.inj hz)

/-- The cursor moves to the last row of the page, which was past it. -/
theorem Covering.cursor (h : Covering env db s)
    (hfetch : fetchPage env s = .ok rows) (hne : rows ≠ [])
    (hrows : persistRows env ((env.finished s.time).apply rows) (s.fetched rows)
      = .ok (c, s')) :
    ∃ last, rows.getLast? = some last ∧ s'.after = some last.videoId ∧
      past s.after last.videoId = true ∧ Missing env.query db.tables last := by
  have hpage := fetchPage_isPage hfetch
  obtain ⟨-, hafter, -⟩ := h.stream hfetch hrows
  cases hlast : rows.getLast? with
  | none => exact absurd (List.getLast?_eq_none_iff.mp hlast) hne
  | some last =>
      have hmem := List.mem_of_getLast? hlast
      have hsame := h.untouched _ (h.fresh (hpage.past last hmem))
      refine ⟨last, rfl, ?_, hpage.past last hmem,
        hsame.missing.mp (hpage.missing last hmem)⟩
      rw [hafter, nextCursor, hlast]
      rfl

/-- A page that is not cancelled takes the invariant to the next round. -/
theorem Covering.page (h : Covering env db s)
    (hfetch : fetchPage env s = .ok rows) (hne : rows ≠ [])
    (hrows : persistRows env ((env.finished s.time).apply rows) (s.fetched rows)
      = .ok (false, s')) : Covering env db s' := by
  have hpage := fetchPage_isPage hfetch
  have hperm := (env.finished s.time).perm rows
  obtain ⟨hprog', -, -, hatt⟩ := h.stream hfetch hrows
  have hall := hatt rfl
  obtain ⟨last, hlast, hcursor, hlastPast, -⟩ := h.cursor hfetch hne hrows
  refine ⟨hprog', ?_, ?_⟩
  · intro v hv
    rw [hcursor, past_some, decide_eq_false_iff_not, not_lt]
    unfold RunState.ids at hv
    rw [hall, List.map_append] at hv
    rcases List.mem_append.mp hv with hv | hv
    · -- an old attempt is behind the old cursor, which is behind the page
      have hbehind := h.behind v hv
      cases hs : s.after with
      | none =>
          rw [hs] at hbehind
          cases hbehind
      | some a =>
          rw [hs] at hbehind hlastPast
          simp only [past_some, decide_eq_true_eq, decide_eq_false_iff_not,
            not_lt] at hbehind hlastPast
          exact hbehind.trans hlastPast.le
    · obtain ⟨row, hr, rfl⟩ := List.mem_map.mp hv
      exact hpage.upTo last hlast row (hperm.mem_iff.mp hr)
  · intro row helig hrow
    rw [hcursor, past_some, decide_eq_false_iff_not] at hrow
    rw [hall]
    cases hpast : past s.after row.videoId with
    | false => exact List.mem_append_left _ (h.covered row helig hpast)
    | true =>
        have hlimit : s.batchLimit env ≠ 0 :=
          fun hz => hne (hpage.zero (congrArg some hz))
        rcases h.fetched_or_past hfetch helig hpast hlimit with
          hmem | ⟨last', hlast', hlt⟩
        · exact List.mem_append_right _ (hperm.mem_iff.mpr hmem)
        · rw [hlast] at hlast'
          obtain rfl := Option.some.inj hlast'
          exact absurd hlt hrow

end Pages

/-! ## Runs -/

/-- What a run that returns `Ok` has done. Left alone (not cancelled, its limit
not used up, pages not of size zero) it has attempted every row that was
eligible when it began. -/
structure Skipped (env : RunEnv) (db : Db) (status : String) (s : RunState) :
    Prop extends Progress env db s where
  cancelled : status = "cancelled" → ∃ n, env.cancelled n = true
  attempted : status ≠ "cancelled" → s.remaining env ≠ some 0 →
    env.pageSize ≠ 0 → ∀ row, Eligible env db row → row ∈ s.attempts

/-- Where a run on `db` begins. -/
def RunState.begin (env : RunEnv) (db : Db) : RunState :=
  { db := db, summary := { jobRunId := env.jobRunId } }

/-- A round that gets a page and goes through it. -/
structure Opens (env : RunEnv) (s : RunState) (rows : List MissingHashRow) :
    Prop where
  going : env.cancelled s.time = false
  room : s.remaining env ≠ some 0
  slots : env.concurrency ≠ 0
  fetched : fetchPage env s = .ok rows

/-- The run on `db` comes to a row in the state `s`: it is on a page, so it is due
and within the limit, those before it are done, and nobody has cancelled. -/
inductive ComesTo (env : RunEnv) (db : Db) (row : MissingHashRow) :
    RunState → Prop
  | mk (s₀ s : RunState) (rows before rest : List MissingHashRow)
      (hrounds : Rounds (runStep env) (.begin env db) s₀) (hopens : Opens env s₀ rows)
      (hpage : (env.finished s₀.time).apply rows = before ++ row :: rest)
      (hbefore : persistRows env before (s₀.fetched rows) = .ok (false, s))
      (hgoing : env.cancelled s.time = false) : ComesTo env db row s

def Attempted (env : RunEnv) (db : Db) (row : MissingHashRow) : Prop :=
  ∃ s, ComesTo env db row s

/-- Where a row that the run attempts cannot be hashed, the count found for that
phase can be raised. -/
def RetriesBounded (env : RunEnv) (db : Db) : Prop :=
  ∀ row phase err f, Attempted env db row →
    hashRow env.deps row = .error (phase, err) →
    db.failures.find (JobFailures.phashKey row.videoId phase) = some f →
    f.retryCount ≤ 34

section Runs

variable {env : RunEnv} {db : Db} {s s' : RunState} {status : String}
  {e : RunError} {fuel : ℕ} {r : RunResult}

theorem terminalStatus_ne (n : ℕ) : terminalStatus false n ≠ "cancelled" := by
  unfold terminalStatus runStatus
  rw [if_neg Bool.false_ne_true]
  split <;> decide

/-- The ways a round can go. -/
inductive Round (env : RunEnv) (s : RunState) : RunState ⊕ RunResult → Prop
  | cancelled (h : env.cancelled s.time = true) :
      Round env s (.inr (.ok ("cancelled", s)))
  | limit (h : s.remaining env = some 0) :
      Round env s (.inr (s.finish false))
  | fetchError (e : SqlError) (hfetch : fetchPage env s = .error e) :
      Round env s (.inr (.error (.fetch e)))
  | empty (hlimit : s.remaining env ≠ some 0)
      (hfetch : fetchPage env s = .ok []) :
      Round env s (.inr (s.finish false))
  | stuck (h : env.concurrency = 0) : Round env s (.inl s)
  | rowError (rows : List MissingHashRow) (e : RunError)
      (hfetch : fetchPage env s = .ok rows) (h : persistRows env
        ((env.finished s.time).apply rows) (s.fetched rows) = .error e) :
      Round env s (.inr (.error e))
  | cut (rows : List MissingHashRow) (s' : RunState)
      (hfetch : fetchPage env s = .ok rows) (h : persistRows env
        ((env.finished s.time).apply rows) (s.fetched rows) = .ok (true, s')) :
      Round env s (.inr (.ok ("cancelled", s')))
  | page (rows : List MissingHashRow) (s' : RunState)
      (hfetch : fetchPage env s = .ok rows) (hne : rows ≠ [])
      (h : persistRows env ((env.finished s.time).apply rows) (s.fetched rows)
        = .ok (false, s')) : Round env s (.inl s')

theorem round_runStep (env : RunEnv) (s : RunState) :
    Round env s (runStep env s) := by
  unfold runStep
  by_cases hcancel : env.cancelled s.time = true
  · rw [if_pos hcancel]
    exact .cancelled hcancel
  rw [if_neg hcancel]
  by_cases hlimit : s.remaining env = some 0
  · rw [if_pos hlimit]
    exact .limit hlimit
  rw [if_neg hlimit]
  cases hfetch : fetchPage env s with
  | error e => exact .fetchError e hfetch
  | ok rows =>
      cases rows with
      | nil => exact .empty hlimit hfetch
      | cons row rows =>
          by_cases hslots : env.concurrency = 0
          · simp only [if_pos hslots]
            exact .stuck hslots
          · simp only [if_neg hslots]
            cases h : persistRows env ((env.finished s.time).apply (row :: rows))
                (s.fetched (row :: rows)) with
            | error e => exact .rowError _ e hfetch h
            | ok r =>
                obtain ⟨c, s'⟩ := r
                cases c with
                | true => exact .cut _ s' hfetch h
                | false => exact .page _ s' hfetch (List.cons_ne_nil _ _) h

theorem Covering.step (h : Covering env db s) (hstep : runStep env s = .inl s') :
    Covering env db s' := by
  have hround := round_runStep env s
  rw [hstep] at hround
  cases hround with
  | stuck _ => exact h
  | page rows s' hfetch hne hrows => exact h.page hfetch hne hrows

theorem Covering.ok (h : Covering env db s)
    (hstep : runStep env s = .inr (.ok (status, s'))) :
    Skipped env db status s' := by
  have hround := round_runStep env s
  rw [hstep] at hround
  generalize hr : (Sum.inr (.ok (status, s')) : RunState ⊕ RunResult) = r at hround
  cases hround with
  | cancelled hc =>
      cases hr
      exact ⟨h.toProgress, fun _ => ⟨_, hc⟩, fun hne => absurd rfl hne⟩
  | limit hl =>
      cases hr
      exact ⟨h.toProgress, fun hs => absurd hs (terminalStatus_ne _),
        fun _ hne => absurd hl hne⟩
  | fetchError e _ => cases hr
  | empty hl hfetch =>
      cases hr
      refine ⟨h.toProgress, fun hs => absurd hs (terminalStatus_ne _), ?_⟩
      intro _ _ hsize row helig
      cases hpast : past s.after row.videoId with
      | false => exact h.covered row helig hpast
      | true =>
          -- an empty page under a positive limit: nothing is left
          have hlimit : s.batchLimit env ≠ 0 := by
            unfold RunState.batchLimit
            cases hrem : s.remaining env with
            | none => exact hsize
            | some r =>
                have hr : r ≠ 0 := fun hz => hl (hrem.trans (congrArg some hz))
                show min r env.pageSize ≠ 0
                omega
          rcases h.fetched_or_past hfetch helig hpast hlimit with
            hmem | ⟨last, hlast, -⟩
          · cases hmem
          · cases hlast
  | stuck _ => cases hr
  | rowError rows e hfetch _ => cases hr
  | cut rows s₁ hfetch hrows =>
      cases hr
      obtain ⟨hprog', -, hc, -⟩ := h.stream hfetch hrows
      exact ⟨hprog', fun _ => hc rfl, fun hne => absurd rfl hne⟩
  | page rows s₁ hfetch _ _ => cases hr

theorem Covering.of_rounds (h : Rounds (runStep env) (.begin env db) s) :
    Covering env db s :=
  h.invariant (Covering env db) (fun _ _ hs hstep => hs.step hstep) (covering_init env db)

/-- The row is one of the table's that misses its hash, is due when its page is
fetched, and is as the run found it. -/
structure Found (env : RunEnv) (db : Db) (row : MissingHashRow) (s : RunState) :
    Prop where
  missing : Missing env.query db.tables row
  due : ∃ n, MissingHashQuery.notBackingOff (env.clock n) db.failures row.videoId
  present : (mediaIndex .none).present s.db.tables (TableKey.video row.videoId)
  same : SameVideo db s.db row.videoId

theorem ComesTo.found {row : MissingHashRow} (h : ComesTo env db row s) :
    Found env db row s := by
  obtain ⟨s₀, s, rows, before, rest, hrounds, hopens, hpage, hbefore, -⟩ := h
  have hcov := Covering.of_rounds hrounds
  have hisPage := fetchPage_isPage hopens.fetched
  have hpend := hcov.pending hopens.fetched
  rw [hpage] at hpend
  have hmem : row ∈ rows := by
    have hperm := (env.finished s₀.time).perm rows
    rw [← hperm.mem_iff, hpage]
    exact List.mem_append_right _ List.mem_cons_self
  have hself : SameVideo db s₀.db row.videoId :=
    hcov.untouched _ (hcov.fresh (hisPage.past row hmem))
  have hdue := hisPage.ready row hmem
  unfold MissingHashQuery.notBackingOff at hdue
  rw [hself.failures] at hdue
  -- the rows before it on the page are others
  have hother : row.videoId ∉ before.map (·.videoId) := by
    have hnodup := hpend.nodup
    rw [List.map_append] at hnodup
    intro hin
    exact (List.nodup_append.mp hnodup).2.2 _ hin row.videoId
      (List.mem_map_of_mem List.mem_cons_self) rfl
  have hbeforePend : Pending (s₀.fetched rows) before := by
    refine ⟨?_, fun r hr => hpend.fresh r (List.mem_append_left _ hr),
      fun r hr => hpend.master r (List.mem_append_left _ hr)⟩
    have hnodup := hpend.nodup
    rw [List.map_append] at hnodup
    exact (List.nodup_append.mp hnodup).1
  obtain ⟨hprog, -, -, hatt⟩ :=
    persistRows_progress hbefore hcov.toProgress.fetched hbeforePend
  have hnew : row.videoId ∉ s.ids := by
    unfold RunState.ids
    rw [hatt rfl, List.map_append, List.mem_append]
    rintro (hin | hin)
    · exact hpend.fresh row (List.mem_append_right _ List.mem_cons_self) hin
    · exact hother hin
  have hsame := hprog.untouched _ hnew
  refine ⟨hself.missing.mp (hisPage.missing row hmem), ⟨_, hdue⟩, ?_, hsame⟩
  have hmaster := hpend.master row (List.mem_append_right _ List.mem_cons_self)
  unfold Schema.present at hmaster ⊢
  show (s.db.tables.get (.video row.videoId)).isSome
  rw [hsame.master, ← hself.master]
  exact hmaster

/-- Small counts of the rows that are due at some time of the run are enough. -/
theorem RetriesBounded.of_due (h : ∀ row phase err f n,
    Missing env.query db.tables row →
    MissingHashQuery.notBackingOff (env.clock n) db.failures row.videoId →
    hashRow env.deps row = .error (phase, err) →
    db.failures.find (JobFailures.phashKey row.videoId phase) = some f →
    f.retryCount ≤ 34) : RetriesBounded env db := by
  rintro row phase err f ⟨s, hcomes⟩ hres hf
  have hfound := hcomes.found
  obtain ⟨n, hdue⟩ := hfound.due
  exact h row phase err f n hfound.missing hdue hres hf

/-- What a round does that opens a page. -/
theorem Opens.runStep_error {rows : List MissingHashRow} (h : Opens env s rows)
    (hrows : persistRows env ((env.finished s.time).apply rows) (s.fetched rows)
      = .error e) : runStep env s = .inr (.error e) := by
  unfold runStep
  rw [if_neg (Bool.eq_false_iff.mp h.going), if_neg h.room, h.fetched]
  cases rows with
  | nil =>
      rw [(List.perm_nil.mp ((env.finished s.time).perm [])).trans rfl] at hrows
      cases hrows
  | cons row rows => simp only [if_neg h.slots, hrows]

/-- A round that ends with an error has fetched none of its rows, or come to one. -/
theorem runStep_error (h : runStep env s = .inr (.error e)) :
    (∃ e', e = .fetch e' ∧ fetchPage env s = .error e') ∨
      ∃ rows, Opens env s rows ∧ persistRows env
        ((env.finished s.time).apply rows) (s.fetched rows) = .error e := by
  unfold runStep at h
  by_cases hcancel : env.cancelled s.time = true
  · rw [if_pos hcancel] at h
    cases h
  rw [if_neg hcancel] at h
  by_cases hlimit : s.remaining env = some 0
  · rw [if_pos hlimit] at h
    cases h
  rw [if_neg hlimit] at h
  cases hfetch : fetchPage env s with
  | error e' =>
      rw [hfetch] at h
      cases h
      exact .inl ⟨e', rfl, rfl⟩
  | ok rows =>
      rw [hfetch] at h
      cases rows with
      | nil => cases h
      | cons row rows =>
          by_cases hslots : env.concurrency = 0
          · simp only [if_pos hslots] at h
            cases h
          simp only [if_neg hslots] at h
          refine .inr ⟨row :: rows,
            ⟨Bool.eq_false_iff.mpr hcancel, hlimit, hslots, hfetch⟩, ?_⟩
          cases hrows : persistRows env ((env.finished s.time).apply (row :: rows))
              (s.fetched (row :: rows)) with
          | error e' =>
              rw [hrows] at h
              cases h
              rfl
          | ok r =>
              obtain ⟨c, s'⟩ := r
              rw [hrows] at h
              cases c <;> cases h

/-- Rows that the run attempts do not end it where their counts can be raised. -/
theorem rounds_error (hbound : RetriesBounded env db)
    (hrounds : Rounds (runStep env) (.begin env db) s)
    (hstep : runStep env s = .inr (.error e)) :
    ∃ e', e = .fetch e' ∧ fetchPage env s = .error e' := by
  rcases runStep_error hstep with hfetch | ⟨rows, hopens, hrows⟩
  · exact hfetch
  · obtain ⟨before, row, rest, t, e', hpage, hbefore, hgoing, herr, -⟩ :=
      persistRows_error hrows
    have hcomes : ComesTo env db row t :=
      .mk s t rows before rest hrounds hopens hpage hbefore hgoing
    have hfound := hcomes.found
    obtain ⟨phase, err, f, hres, hf, hcount⟩ :=
      (persistOne_error_iff hfound.present).mp ⟨e', herr⟩
    rw [hfound.same.find phase] at hf
    have hle := hbound row phase err f ⟨t, hcomes⟩ hres hf
    omega

/-- A row that the run attempts ends it where its count cannot be raised. -/
theorem ComesTo.ends {row : MissingHashRow} {phase err : String} {f : MediaJobFailure}
    (h : ComesTo env db row s) (hres : hashRow env.deps row = .error (phase, err))
    (hf : db.failures.find (JobFailures.phashKey row.videoId phase) = some f)
    (hcount : 34 < f.retryCount) :
    ∃ fuel e, runInner env db fuel = some (.error (.persist row.videoId e)) := by
  have hfound := h.found
  obtain ⟨s₀, s, rows, before, rest, hrounds, hopens, hpage, hbefore, hgoing⟩ := h
  obtain ⟨e, herr⟩ : ∃ e, persistOne (env.clock s.time) env.jobRunId row
      (hashRow env.deps row) s.db
      { s.summary with scannedRows := s.summary.scannedRows + 1 } = .error e :=
    (persistOne_error_iff hfound.present).mpr ⟨phase, err, f, hres,
      (hfound.same.find phase).trans hf, hcount⟩
  have hrows : persistRows env ((env.finished s₀.time).apply rows) (s₀.fetched rows)
      = .error (.persist row.videoId e) := by
    rw [hpage, persistRows_append hbefore, persistRows_cons_error hgoing herr]
  obtain ⟨n, hn⟩ := hrounds.iterate_eq
  refine ⟨n + 1, e, ?_⟩
  show iterate (runStep env) (n + 1) (.begin env db) = _
  rw [hn, iterate_stop (hopens.runStep_error hrows)]

theorem runInner_ok (h : runInner env db fuel = some (.ok (status, s))) :
    Skipped env db status s := by
  have hpost := iterate_post (Covering env db)
    (fun r => ∀ status s, r = .ok (status, s) → Skipped env db status s)
    (fun _ _ hs hstep => hs.step hstep) ?_ (covering_init env db) h
  · exact hpost status s rfl
  · rintro s r hs hstep status s' rfl
    exact hs.ok hstep

theorem runInner_error (hbound : RetriesBounded env db)
    (h : runInner env db fuel = some (.error e)) : ∃ e', e = .fetch e' := by
  have hpost := iterate_post (Rounds (runStep env) (.begin env db))
    (fun r => ∀ e, r = .error e → ∃ e', e = RunError.fetch e')
    (fun _ _ hs hstep => hs.tail hstep) ?_ .refl h
  · exact hpost e rfl
  · rintro s r hs hstep e rfl
    obtain ⟨e', he, -⟩ := rounds_error hbound hs hstep
    exact ⟨e', he⟩

theorem Covering.advances (h : Covering env db s) (hslots : 0 < env.concurrency)
    (hstep : runStep env s = .inl s') :
    ahead MissingHashRow.videoId (masterRows db.tables) s'.after
      < ahead MissingHashRow.videoId (masterRows db.tables) s.after := by
  have hround := round_runStep env s
  rw [hstep] at hround
  cases hround with
  | stuck hz => omega
  | page rows s' hfetch hne hrows =>
      obtain ⟨last, -, hcursor, hpast, hmissing⟩ := h.cursor hfetch hne hrows
      rw [hcursor]
      exact ahead_lt (mem_masterRows.mpr hmissing.master) hpast

/-- Every round but the last moves the cursor. -/
theorem runInner_total (hslots : 0 < env.concurrency) :
    ∃ fuel r, runInner env db fuel = some r := by
  obtain ⟨r, hr⟩ := iterate_total (runStep env) (Covering env db)
    (fun s => ahead MissingHashRow.videoId (masterRows db.tables) s.after)
    (fun s s' hs hstep => ⟨hs.step hstep, hs.advances hslots hstep⟩)
    (covering_init env db)
  exact ⟨_, r, hr⟩

/-- A run left alone that meets a count past the last doubling does not return
`Ok`: the eligible row would have been attempted, and its failure recorded. -/
theorem runInner_aborts {row : MissingHashRow} {phase err : String}
    {f : MediaJobFailure} (hlimit : env.limit = none)
    (hcancel : ∀ n, env.cancelled n = false) (hsize : env.pageSize ≠ 0)
    (helig : Eligible env db row)
    (hres : hashRow env.deps row = .error (phase, err))
    (hf : db.failures.find (JobFailures.phashKey row.videoId phase) = some f)
    (hcount : 34 < f.retryCount) (h : runInner env db fuel = some r) :
    ∃ e, r = .error e := by
  cases r with
  | error e => exact ⟨e, rfl⟩
  | ok result =>
      obtain ⟨status, s⟩ := result
      have hdone := runInner_ok h
      have hstatus : status ≠ "cancelled" := by
        intro hs
        obtain ⟨n, hn⟩ := hdone.cancelled hs
        rw [hcancel n] at hn
        cases hn
      have hrem : s.remaining env ≠ some 0 := by
        unfold RunState.remaining
        rw [hlimit]
        exact nofun
      have hatt := hdone.attempted hstatus hrem hsize row helig
      have hle := (hdone.recorded row hatt phase err hres).1 f hf
      omega

/-- The run does not end because of a row, and when it returns `Ok` every failing
row was counted and skipped. -/
def SkipsFailures (env : RunEnv) (db : Db) : RunResult → Prop
  | .ok (status, s) => Skipped env db status s
  | .error (.fetch _) => True
  | .error (.persist _ _) => False

theorem skipsFailures_iff :
    (∀ fuel r, runInner env db fuel = some r → SkipsFailures env db r) ↔
      RetriesBounded env db := by
  constructor
  · rintro h row phase err f ⟨s, hcomes⟩ hres hf
    by_contra hcount
    obtain ⟨fuel, e, hend⟩ := hcomes.ends hres hf (by omega)
    exact h fuel _ hend
  · intro hbound fuel r h
    cases r with
    | ok result => exact runInner_ok h
    | error e =>
        obtain ⟨e', rfl⟩ := runInner_error hbound h
        trivial

/-- **Failing rows.** One more failure is recorded over a stored count exactly
up to 34. A run skips failing rows exactly when those that it attempts have such
counts, and always comes to an end; left alone with one eligible failing row past
34 it returns `Err`. -/
theorem row_failures (now : ℤ) (jobRunId videoId phase error : String)
    (t : JobFailures) (f : MediaJobFailure)
    (hf : t.find (JobFailures.phashKey videoId phase) = some f) (env : RunEnv)
    (db : Db) :
    ((∃ t' g, t.recordPhash now jobRunId videoId phase error = .ok t' ∧
      t'.find (JobFailures.phashKey videoId phase) = some g ∧
      g.retryCount = f.retryCount + 1 ∧
      g.nextRetryAt
        = some (now + min (fiveMinutes * 2 ^ f.retryCount) dayMicros)) ↔
      f.retryCount ≤ 34) ∧
    ((∀ fuel r, runInner env db fuel = some r → SkipsFailures env db r) ↔
      RetriesBounded env db) ∧
    (0 < env.concurrency → ∃ fuel r, runInner env db fuel = some r) ∧
    (∀ row ph err g, env.limit = none → (∀ n, env.cancelled n = false) →
      env.pageSize ≠ 0 → Eligible env db row →
      hashRow env.deps row = .error (ph, err) →
      db.failures.find (JobFailures.phashKey row.videoId ph) = some g →
      34 < g.retryCount →
      ∀ fuel r, runInner env db fuel = some r → ∃ e, r = .error e) := by
  refine ⟨JobFailures.recordPhash_iff hf, skipsFailures_iff, runInner_total, ?_⟩
  intro row ph err g hlimit hcancel hsize helig hres hg hcount fuel r h
  exact runInner_aborts hlimit hcancel hsize helig hres hg hcount h

end Runs

/-! ## A video that keeps failing -/

/-- A run in which every download fails. -/
def offline : RunEnv where
  jobRunId := "run"
  deps := {
    tempfile := fun _ => .ok ()
    fileClone := fun _ => .ok ()
    s3 := fun _ _ => .error "timeout"
    storj := fun _ _ => .error "timeout"
    decode := fun _ => .error "" }
  hashtext := fun _ => 0
  limit := none
  shard := none
  pageSize := 2500
  concurrency := 10
  cancelled := fun _ => false
  clock := fun _ => 0
  clock_mono := fun _ _ _ => le_refl _
  finished := fun _ => .none

def brokenVideo : ServableVideo :=
  { (default : ServableVideo) with
    servableStatus := "servable"
    storageProvider := some "hetzner"
    objectKey := some "v.mp4" }

/-- A video whose download failed `n` times, due again. -/
def failedBefore (n : ℕ) : Db where
  tables := { videos := AList.singleton "v" brokenVideo }
  failures := {
    rows := [{ phashFailure 0 "run" "v" "phash_download" "timeout" with
      retryCount := n
      nextRetryAt := some 0 }]
    keyed := by simp [phashFailure] }

/-- Beside it a video that failed 35 times and is backing off. -/
def backingOff : Db where
  tables := { videos := (AList.singleton "v" brokenVideo).insert "u" brokenVideo }
  failures := {
    rows := [
      { phashFailure 0 "run" "u" "phash_download" "timeout" with
        retryCount := 3
        nextRetryAt := some 0 },
      { phashFailure 0 "run" "v" "phash_download" "timeout" with
        retryCount := 35
        nextRetryAt := some dayMicros }]
    keyed := by simp [phashFailure] }

/-- The run does not come to the second video. -/
theorem backingOff_bounded : RetriesBounded offline backingOff := by
  refine .of_due fun row phase err f n _ hdue _ hf => ?_
  rw [JobFailures.phashKey, JobFailures.find_eq_ofVideo] at hf
  have hmem := List.mem_of_find?_eq_some hf
  have hready := List.all_eq_true.mp hdue f hmem
  rcases List.mem_pair.mp (List.mem_filter.mp hmem).1 with rfl | rfl
  · decide
  · exact absurd hready Bool.false_ne_true

theorem row_failures_offline :
    (∃ s, runInner offline backingOff 2 =
        some (.ok ("succeeded_with_failures", s)) ∧
      s.attempts = [brokenVideo.missingRow "u"] ∧
      Skipped offline backingOff "succeeded_with_failures" s) ∧
    (∀ fuel r, runInner offline (failedBefore 35) fuel = some r →
      ∃ e, r = .error e) := by
  constructor
  · obtain ⟨-, hskips, -, -⟩ := row_failures 0 "run" "u" "phash_download" ""
      backingOff.failures _ rfl offline backingOff
    exact ⟨_, rfl, rfl, hskips.mpr backingOff_bounded 2 _ rfl⟩
  · have helig : Eligible offline (failedBefore 35)
        (brokenVideo.missingRow "v") :=
      ⟨⟨⟨brokenVideo, rfl, rfl⟩, rfl, rfl⟩, rfl⟩
    exact (row_failures 0 "run" "v" "phash_download" ""
      (failedBefore 35).failures _ rfl offline (failedBefore 35)).2.2.2
      _ "phash_download" "hetzner download v.mp4: timeout" _ rfl
      (fun _ => rfl) (by decide) helig rfl rfl (by decide)

/-- The failures of a video that fails once a day for `n` days. -/
def failDaily : ℕ → Except SqlError JobFailures
  | 0 => .ok {}
  | n + 1 => do
      let t ← failDaily n
      t.recordPhash (n * dayMicros) "run" "v" "phash_download" "timeout"

/-- The thirty-sixth failure is not recorded, and the run that meets it ends. -/
theorem run_aborted_by_row :
    failDaily 36 = .error .intervalOutOfRange ∧
    runInner offline (failedBefore 35) 1
      = some (.error (.persist "v" .intervalOutOfRange)) :=
  ⟨rfl, rfl⟩

end VideoStorage.Jobs.MediaPhash
