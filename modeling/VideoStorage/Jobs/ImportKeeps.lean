import VideoStorage.Jobs.ImportRun

/-!
# What an import keeps

Of the tables that `media_phash` works on a run of the import changes little: the
hashes it writes are all of its own `input_media_version`, and the failures it
records are its own (`importCurrentVideoIndex_keeps`).
-/

namespace VideoStorage.Jobs.MediaImports

open Foundation MediaIndex
open MediaPhash (Db performTxn)
open VideoStorage.Db (VideoTables)

/-! ## A row -/

section Row

variable {O : OtherWork} {st : (mediaIndex O).Store}
  {l l' l₁ l₂ : Loc (mediaIndex O)} {sfwBucket jobRunId : String}
  {row : LegacyVideoIndexRow} {rows : List LegacyVideoIndexRow}

/-- The hashes of other versions of the media are as they were. -/
def OtherHashesKept (st : (mediaIndex O).Store) (l l' : Loc (mediaIndex O)) : Prop :=
  ∀ key : HashKey, key.inputMediaVersion ≠ inputMediaVersion →
    (mediaIndex O).get (l'.view st) (TableKey.hash key)
      = (mediaIndex O).get (l.view st) (TableKey.hash key)

theorem OtherHashesKept.trans (h : OtherHashesKept st l l₁)
    (h₁ : OtherHashesKept st l₁ l₂) : OtherHashesKept st l l₂ :=
  fun key hkey => (h₁ key hkey).trans (h key hkey)

theorem otherHashesKept_append {outcome : UpsertOutcome} {input : FeedEventInput}
    {u : Unit} (h : Eval st (appendIfWritten (O := O) outcome input) l u l') :
    OtherHashesKept st l l' := by
  intro key _
  rw [view_appendIfWritten h]

theorem otherHashesKept_importMedia {storage : StorageRef}
    {out : ServableVideoUpsertOutcome}
    (h : Eval st (importMediaRowTxn (O := O) row storage) l out l') :
    OtherHashesKept st l l' := by
  intro key _
  apply (eval_importMediaRowTxn h).1.rows (TableKey.hash key)
  rintro (h | ⟨_, ⟨⟩⟩)
  cases h

theorem otherHashesKept_importHash {hashes : List (HashRecordInput × UpsertOutcome)}
    (h : Eval st (importHashTxn (O := O) sfwBucket row) l hashes l') :
    OtherHashesKept st l l' := by
  rcases importHashTxn_runs h with ⟨-, rfl⟩ |
    ⟨phash, kind, version, outcome, l₁, u, hup, happ, -⟩
  · exact fun _ _ => rfl
  · refine .trans (fun key hkey => ?_) (otherHashesKept_append happ)
    apply (eval_upsertHashRecordTxn hup).1.rows (TableKey.hash key)
    rintro ⟨⟩
    exact hkey rfl

theorem otherHashesKept_importOneRow {imported : ImportedRow}
    (h : Eval st (importOneRowTxn (O := O) sfwBucket row jobRunId) l imported l') :
    OtherHashesKept st l l' := by
  rcases importOneRowTxn_runs h with ⟨-, -, -, rfl⟩ |
    ⟨storage, out, l₁, u, l₂, -, hmedia, happ, hhash, -⟩
  · exact fun _ _ => rfl
  · exact ((otherHashesKept_importMedia hmedia).trans (otherHashesKept_append happ)).trans
      (otherHashesKept_importHash hhash)

theorem otherHashesKept_importPage {imported : List ImportedRow}
    (h : Eval st (importPageTxn (O := O) sfwBucket jobRunId rows) l imported l') :
    OtherHashesKept st l l' := by
  induction rows generalizing l imported with
  | nil =>
      obtain ⟨-, rfl⟩ := eval_ret.mp h
      exact fun _ _ => rfl
  | cons row rows ih =>
      obtain ⟨first, l₁, rest, hone, hpage, -⟩ := importPageTxn_runs_cons h
      exact (otherHashesKept_importOneRow hone).trans (ih hpage)

end Row

/-! ## A run -/

structure ImportKeeps (db db' : Db) : Prop where
  hashes : ∀ key : HashKey, key.inputMediaVersion ≠ inputMediaVersion →
    db'.tables.get (.hash key) = db.tables.get (.hash key)
  failures : RecordsImports db.failures db'.failures

theorem ImportKeeps.refl (db : Db) : ImportKeeps db db := ⟨fun _ _ => rfl, .refl⟩

theorem ImportKeeps.trans {db db₁ db₂ : Db} (h : ImportKeeps db db₁)
    (h₁ : ImportKeeps db₁ db₂) : ImportKeeps db db₂ where
  hashes key hkey := (h₁.hashes key hkey).trans (h.hashes key hkey)
  failures := h.failures.trans h₁.failures

section Runs

variable {env : ImportEnv} {vi : VideoTables} {db db' : Db} {s s' : ImportState}
  {rows page : List LegacyVideoIndexRow} {row : LegacyVideoIndexRow}

theorem importOneRow_keeps {imported : ImportedRow}
    (h : env.importOneRow row db = .ok (imported, db')) : ImportKeeps db db' := by
  obtain ⟨-, seq, l, failures, hperform, rfl⟩ := transact_eq_ok.mp h
  obtain ⟨_, _, _, _, hperforms, hrecords⟩ :=
    (@performs_importOneRowTxn db.tables {} db.failures 0 env.sfwBucket env.jobRunId
      idleOracle row) db.seq
  obtain ⟨-, -, -, rfl⟩ := Prod.mk.inj (Except.ok.inj (hperforms.symm.trans hperform))
  exact ⟨otherHashesKept_importOneRow (perform_eval hperform), hrecords⟩

theorem importPage_keeps {imported : List ImportedRow}
    (h : env.importPage page db = .ok (imported, db')) : ImportKeeps db db' := by
  obtain ⟨-, seq, l, failures, hperform, rfl⟩ := transact_eq_ok.mp h
  obtain ⟨_, _, _, _, hperforms, hrecords⟩ :=
    (@performs_importPageTxn db.tables {} db.failures 0 env.sfwBucket env.jobRunId
      idleOracle page) db.seq
  obtain ⟨-, -, -, rfl⟩ := Prod.mk.inj (Except.ok.inj (hperforms.symm.trans hperform))
  exact ⟨otherHashesKept_importPage (perform_eval hperform), hrecords⟩

theorem importRows_keeps (rows : List LegacyVideoIndexRow) (s : ImportState) :
    ImportKeeps s.db (importRows env rows s).1.db := by
  induction rows generalizing s with
  | nil => exact .refl _
  | cons row rows ih =>
      unfold importRows
      cases hone : env.importOneRow row s.db with
      | ok r =>
          obtain ⟨imported, db⟩ := r
          exact (importOneRow_keeps hone).trans (ih (s.imported [imported] db))
      | error e =>
          dsimp only
          cases hrec : s.db.failures.recordImport env.jobRunId row.videoId "import_error"
              (env.errorText e) with
          | error e' => exact .refl _
          | ok failures =>
              have hrecorded : ImportKeeps s.db
                  ((s.rolledBack (env.drawn [row])).failed failures).db :=
                ⟨fun _ _ => rfl, .single ⟨_, _, _, _, hrec⟩⟩
              dsimp only
              split_ifs
              · exact hrecorded
              · exact hrecorded.trans (ih _)

theorem importBatch_keeps (page : List LegacyVideoIndexRow) (s : ImportState) :
    ImportKeeps s.db (importBatch env page s).1.db := by
  unfold importBatch
  cases hpage : env.importPage page s.db with
  | ok r => exact importPage_keeps hpage
  | error e =>
      -- rolled back, the transaction has only drawn cursors
      obtain ⟨hhashes, hfailures⟩ :=
        @importRows_keeps env page (s.rolledBack (env.drawn page))
      exact ⟨hhashes, hfailures⟩

theorem importStep_keeps (s : ImportState) : ImportKeeps s.db
    ((importStep env vi s).elim (·.db) (·.1.db)) := by
  unfold importStep
  split_ifs
  · exact .refl _
  · exact .refl _
  · cases fetchMissingLegacyRowsAfter s.after (s.pageLimit env) vi s.db.tables with
    | error e => exact .refl _
    | ok page =>
        cases page with
        | nil => exact .refl _
        | cons row rows =>
            have hkeeps := @importBatch_keeps env (row :: rows) (s.fetched (row :: rows))
            dsimp only
            cases hbatch : importBatch env (row :: rows) (s.fetched (row :: rows)) with
            | mk s' e =>
                rw [hbatch] at hkeeps
                cases e <;> exact hkeeps

/-- **A run of the import** leaves the hashes of `media_phash` as they are, and
records failures of its own only, however it ends. -/
theorem importCurrentVideoIndex_keeps {fuel : ℕ} {r : ImportResult}
    (h : importCurrentVideoIndex env vi db fuel = some r) : ImportKeeps db r.1.db := by
  have hloop : iterate (importStep env vi) fuel (importInit env db) = some r →
      ImportKeeps db r.1.db := by
    refine iterate_post (fun s : ImportState => ImportKeeps db s.db)
      (fun r : ImportResult => ImportKeeps db r.1.db) ?_ ?_ (.refl _)
    · intro s s' hs hstep
      have hkeeps := @importStep_keeps env vi s
      rw [hstep] at hkeeps
      exact hs.trans hkeeps
    · intro s r hs hstep
      have hkeeps := @importStep_keeps env vi s
      rw [hstep] at hkeeps
      exact hs.trans hkeeps
  unfold importCurrentVideoIndex at h
  cases hlimit : env.limit with
  | none =>
      rw [hlimit] at h
      exact hloop h
  | some limit =>
      rw [hlimit] at h
      dsimp only at h
      split_ifs at h
      · obtain rfl := Option.some.inj h
        exact .refl _
      · exact hloop h

end Runs

end VideoStorage.Jobs.MediaImports
