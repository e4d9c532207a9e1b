import VideoStorage.Jobs.Writers

/-!
# The hash outbox

Replaying the `hash_upserted` events gives `servable_video_hashes`, in every
reachable state of all writers. Each writer's body is taken apart into upserts
with their append (`tracked_hashUpsert`) and stretches that touch no hash row;
the interleaving is `reachable_outbox`.
-/

namespace VideoStorage.Jobs

open Foundation MediaIndex
open Relation (ReflTransGen)
open MediaImports (LegacyVideoIndexRow ImportedRow)
open MediaPhash (VideoHashResult)

variable {O : OtherWork}

/-- The hash column of the table, by key. -/
def hashTable (t : Tables) (key : HashKey) : Option String :=
  (t.hashes.lookup key).map (·.hashValue)

/-- The upserts that wrote, as what a consumer should read. -/
def writtenHashes (hashes : List (HashRecordInput × UpsertOutcome)) :
    List (HashKey × String) :=
  (hashes.filter (·.2.isWrite)).map fun u => (u.1.key, u.1.hashValue)

theorem writtenHashes_append
    (xs ys : List (HashRecordInput × UpsertOutcome)) :
    writtenHashes (xs ++ ys) = writtenHashes xs ++ writtenHashes ys := by
  unfold writtenHashes
  rw [List.filter_append, List.map_append]

variable {st : (mediaIndex O).Store} {l l' l₁ l₂ : Loc (mediaIndex O)}

/-- Between `l` and `l'` the hash outbox is kept. -/
abbrev HashTracked (st : (mediaIndex O).Store) (l l' : Loc (mediaIndex O))
    (hashes : List (HashRecordInput × UpsertOutcome)) : Prop :=
  Tracked (D := mediaIndex O) readHash hashTable st l l' (writtenHashes hashes)

theorem HashTracked.trans {xs ys : List (HashRecordInput × UpsertOutcome)}
    (h₁ : HashTracked st l l₁ xs) (h₂ : HashTracked st l₁ l₂ ys) :
    HashTracked st l l₂ (xs ++ ys) := by
  unfold HashTracked
  rw [writtenHashes_append]
  exact Tracked.trans h₁ h₂

/-- What touches no hash row leaves the hash table as it is. -/
theorem hashTable_of_only {S : TableKey → Prop} (h : l.Only S st l')
    (hS : ∀ key, ¬ S (.hash key)) :
    hashTable (l'.view st) = hashTable (l.view st) := by
  funext key
  exact congrArg (Option.map HashRecord.hashValue) (h.rows _ (hS key))

theorem hashTable_ne {key key' : HashKey}
    (h : l.Only (· = TableKey.hash key') st l') (hne : key ≠ key') :
    hashTable (l'.view st) key = hashTable (l.view st) key := by
  refine congrArg (Option.map HashRecord.hashValue)
    (h.rows (TableKey.hash key) ?_)
  intro e
  exact hne (TableKey.hash.inj e)

theorem writtenHashes_single (input : HashRecordInput) (out : UpsertOutcome) :
    writtenHashes [(input, out)]
      = if out.isWrite then [(input.key, input.hashValue)] else [] := by
  unfold writtenHashes
  cases hw : out.isWrite <;> simp [hw]

/-- **One upsert with its append.** The table changes at the key exactly when
the event is appended, and to the value the event carries. -/
theorem tracked_hashUpsert {input : HashRecordInput} {out : UpsertOutcome}
    {event : FeedEventInput} {u : Unit}
    (hup : Eval st (upsertHashRecordTxn (O := O) input) l out l₁)
    (happ : Eval st (appendIfWritten out event) l₁ u l₂)
    (hread : readHash event.toRow = some (input.key, input.hashValue)) :
    HashTracked st l l₂ [(input, out)] := by
  obtain ⟨honly, hex⟩ := eval_upsertHashRecordTxn hup
  unfold HashTracked
  rw [writtenHashes_single]
  refine tracked_upsert honly.pend (fun key hne => hashTable_ne honly hne) ?_ ?_
    happ hread
  · intro hw
    exact congrArg (Option.map HashRecord.hashValue) (hex.same hw)
  · intro hw
    have hafter : (mediaIndex O).get (l₁.view st) (TableKey.hash input.key)
        = some input.toRow := by
      cases out with
      | inserted => exact hex.2
      | changed =>
          obtain ⟨row, -, -, hafter⟩ := hex
          exact hafter
      | unchanged => cases hw
    exact congrArg (Option.map HashRecord.hashValue) hafter

/-! ## The bodies -/

theorem tracked_persistOneTxn {jobRunId : String} {row : MissingHashRow}
    {res : Except (String × String) VideoHashResult}
    {out : Option UpsertOutcome}
    (h : Eval st (MediaPhash.persistOneTxn (O := O) jobRunId row res) l out l') :
    HashTracked st l l' (persistReport row res out).hashes := by
  cases res with
  | ok vhr =>
      obtain ⟨outcome, l₁, u, hup, happ, rfl⟩ :=
        MediaPhash.persistOneTxn_runs_ok h
      exact tracked_hashUpsert hup happ (readHash_persist row vhr)
  | error failure =>
      obtain ⟨rfl, rfl⟩ := MediaPhash.persistOneTxn_runs_error h
      exact Tracked.refl _

theorem tracked_importHashTxn {sfwBucket : String} {row : LegacyVideoIndexRow}
    {hashes : List (HashRecordInput × UpsertOutcome)}
    (h : Eval st (MediaImports.importHashTxn (O := O) sfwBucket row) l hashes l') :
    HashTracked st l l' hashes := by
  rcases MediaImports.importHashTxn_runs h with ⟨rfl, rfl⟩ |
    ⟨phash, kind, version, outcome, l₁, u, hup, happ, rfl⟩
  · exact Tracked.refl _
  · exact tracked_hashUpsert hup happ
      (readHash_import sfwBucket row phash kind version)

theorem tracked_importOneRowTxn {sfwBucket jobRunId : String}
    {row : LegacyVideoIndexRow} {imported : ImportedRow}
    (h : Eval st (MediaImports.importOneRowTxn (O := O) sfwBucket row jobRunId)
      l imported l') : HashTracked st l l' imported.hashes := by
  rcases MediaImports.importOneRowTxn_runs h with ⟨-, -, hhashes, rfl⟩ |
    ⟨storage, out, l₁, u, l₂, -, hmedia, happ, hhash, -⟩
  · rw [hhashes]
    exact Tracked.refl _
  · -- the master row has no column of the hash table
    have honly := (MediaImports.eval_importMediaRowTxn hmedia).1
    have hnohash : ∀ key, ¬ VideoRows row.videoId (.hash key) := by
      rintro key (⟨⟨⟩⟩ | ⟨_, ⟨⟩⟩)
    have hmediaTracked : HashTracked st l l₂ [] :=
      tracked_other honly.pend (hashTable_of_only honly hnohash) happ
        (readHash_media row storage)
    exact hmediaTracked.trans (tracked_importHashTxn hhash)

theorem tracked_importPageTxn {sfwBucket jobRunId : String}
    {rows : List LegacyVideoIndexRow} {imported : List ImportedRow}
    (h : Eval st (MediaImports.importPageTxn (O := O) sfwBucket jobRunId rows)
      l imported l') : HashTracked st l l' (importReport imported).hashes := by
  induction rows generalizing l imported with
  | nil =>
      obtain ⟨rfl, rfl⟩ := eval_ret.mp h
      exact Tracked.refl _
  | cons row rows ih =>
      obtain ⟨first, l₁, rest, hone, hpage, rfl⟩ :=
        MediaImports.importPageTxn_runs_cons h
      exact (tracked_importOneRowTxn hone).trans (ih hpage)

theorem keeps_hashOutbox : KeepsOutbox (D := mediaIndex O) readHash hashTable
    (fun report : Report => writtenHashes report.hashes) IsWriter
    fun _ _ => True := by
  rintro st p report l ⟨w, rfl⟩ - h
  cases w with
  | persistOne jobRunId row res =>
      obtain ⟨out, l₁, hone, hret⟩ := eval_bind.mp h
      obtain ⟨rfl, rfl⟩ := eval_ret.mp hret
      exact tracked_persistOneTxn hone
  | importPage sfwBucket jobRunId rows =>
      obtain ⟨imported, l₁, hpage, hret⟩ := eval_bind.mp h
      obtain ⟨rfl, rfl⟩ := eval_ret.mp hret
      exact tracked_importPageTxn hpage
  | registerMaster videoId src =>
      obtain ⟨out, l₁, hup, hret⟩ := eval_bind.mp h
      obtain ⟨rfl, rfl⟩ := eval_ret.mp hret
      obtain ⟨honly, -⟩ := eval_upsertServableVideoTxn hup
      refine Tracked.of_same honly.pend (hashTable_of_only honly ?_)
      rintro key (⟨⟨⟩⟩ | ⟨_, ⟨⟩⟩)

/-! ## Every run -/

/-- The events of a committed transaction that a hash consumer reads. -/
def hashEvents (c : Commit (mediaIndex O) Report) : List (HashKey × String) :=
  c.loc.events.filterMap readHash

/-- **Hash outbox.** After any interleaving of the writers, replaying the
committed hash events in cursor order gives the hash table; every such event is
readable; a transaction appended one for exactly its upserts that inserted or
changed; and nothing but a commit touches tables or feed. -/
theorem hash_outbox {videos : AList fun _ : String => ServableVideo}
    {sources : AList fun _ : SourceKey => SourceRow}
    {s : Sys (mediaIndex O) Report}
    (hrun : ReflTransGen (Step IsWriter fun _ _ => True)
      { store := { videos := videos, sources := sources } } s) :
    replay readHash ((s.log.insertionSort (·.1 ≤ ·.1)).map (·.2))
        = hashTable s.store ∧
      (∀ row ∈ s.log, row.2.eventKind = FeedEventKind.hashUpserted.asStr →
        (readHash row.2).isSome) ∧
      (∀ c ∈ s.commits, hashEvents c = writtenHashes c.result.hashes) ∧
      s.log = s.commits.flatMap (·.loc.pend) ∧
      ∀ s', Step IsWriter (fun _ _ => True) s s' → s'.commits = s.commits →
        s'.store = s.store ∧ s'.log = s.log := by
  have hdisc : ∀ p : MediaTxn O Report, IsWriter p →
      Disciplined (D := mediaIndex O) Readable false p := fun p hp => hp.disciplined
  obtain ⟨hlocked, hordered⟩ := reachable_ordered hdisc hrun
  obtain ⟨hsorted, hreplay, hcommits⟩ :=
    reachable_outbox keeps_hashOutbox rfl hdisc hrun
  have hle : s.log.Pairwise (·.1 ≤ ·.1) :=
    hsorted.imp fun hab => Nat.le_of_lt hab
  refine ⟨?_, ?_, hcommits, hlocked.log, ?_⟩
  · rw [hle.insertionSort_eq]
    exact hreplay
  · intro row hrow
    exact (hordered.events row hrow).2
  · intro s' hstep hsame
    rcases hstep.eq_or_commit with ⟨hst, hlog, -⟩ | ⟨t, o, a, -, -, -, rfl⟩
    · exact ⟨hst, hlog⟩
    · have hlen := congrArg List.length hsame
      simp [Sys.commit] at hlen

/-- A legacy row with a hash, imported into empty tables. -/
theorem hash_outbox_import : ∃ s : Sys (mediaIndex .none) Report,
    hashTable s.store ⟨"v", "phash", "1", MediaImports.inputMediaVersion⟩
        = some "01" ∧
      replay readHash ((s.log.insertionSort (·.1 ≤ ·.1)).map (·.2))
        = hashTable s.store := by
  let row : LegacyVideoIndexRow :=
    ⟨"v", none, some "v.mp4", some "01", some "phash", some "1"⟩
  let writer : MediaWriter := .importPage "yral-sfw" "run" [row]
  let key : HashKey := ⟨"v", "phash", "1", MediaImports.inputMediaVersion⟩
  have hperform : ∃ report c l,
      perform id idleWork idleOracle {} writer.body 1 {} ()
        = .ok (report, c, l, ()) ∧ hashTable (l.view {}) key = some "01" :=
    ⟨_, _, _, rfl, by decide⟩
  obtain ⟨report, c, l, h, hkey⟩ := hperform
  have hrun := alone_run (P := IsWriter) (G := fun _ _ => True)
    (s := { store := {} }) rfl ⟨writer, rfl⟩ trivial h
  exact ⟨_, hkey, (hash_outbox hrun).1⟩

end VideoStorage.Jobs
