import VideoStorage.Foundation.Replica
import VideoStorage.Jobs.HashOutbox
import VideoStorage.Jobs.ObjectRows

/-!
# Following the feed over HTTP

A client of `GET /media/feed/events` that keeps the hashes it reads, and asks
again above the last cursor it got, beside the three writers of the media index.
Its copy is a replica of `servable_video_hashes` (`hash_replica`); when a page
comes back short, exact duplicates can be looked up in the copy as well as in
the table.
-/

namespace VideoStorage.Jobs

open Foundation MediaIndex
open Relation (ReflTransGen)
open MediaImports (LegacyVideoIndexRow)

variable {O : OtherWork}

/-! ## The route -/

structure FeedParams where
  after : Option ℤ := none
  limit : Option ℤ := none

/-- `FeedEvent` of the response: the kind is text again. -/
structure FeedResponseEvent extends FeedEventRow where
  cursor : ℤ

def toResponseEvent (e : FeedEvent) : FeedResponseEvent where
  cursor := e.cursor
  eventKind := e.eventKind.asStr
  videoId := e.videoId
  hashKind := e.hashKind
  hashVersion := e.hashVersion
  inputMediaVersion := e.inputMediaVersion
  payload := e.payload

inductive FeedStatus
  | badRequest | internalServerError
  deriving DecidableEq, Repr

/-- `rows` are the committed rows, `none` when the query fails, which comes after
the limit's check. -/
def feedEvents (connects : Bool) (rows : Option (List (ℕ × FeedEventRow)))
    (params : FeedParams) : Except FeedStatus (List FeedResponseEvent) :=
  let after := params.after.getD 0
  let limit := params.limit.getD 100
  if !connects then .error .internalServerError
  else
    match listFeedEventsAfter (rows.getD []) after limit with
    | .error (.invalidLimit _ _) => .error .badRequest
    | .error (.unknownEventKind _) => .error .internalServerError
    | .ok events =>
        if rows.isNone then .error .internalServerError
        else .ok (events.map toResponseEvent)

/-- What a client numbers an event by, and what it reads of it. -/
def FeedResponseEvent.entry (e : FeedResponseEvent) : ℕ × FeedEventRow :=
  (e.cursor.toNat, e.toFeedEventRow)

theorem fromStr_eq_ok {value : String} {kind : FeedEventKind}
    (h : FeedEventKind.fromStr value = .ok kind) : kind.asStr = value := by
  unfold FeedEventKind.fromStr at h
  split_ifs at h with h₁ h₂ h₃ h₄
  all_goals
    obtain rfl := Except.ok.inj h
    subst value
    rfl

theorem entry_fromRow {row : ℕ × FeedEventRow} {e : FeedEvent}
    (h : FeedEvent.fromRow row = .ok e) : (toResponseEvent e).entry = row := by
  unfold FeedEvent.fromRow at h
  split at h
  · rename_i kind hkind
    obtain rfl := Except.ok.inj h
    unfold toResponseEvent FeedResponseEvent.entry
    rw [fromStr_eq_ok hkind]
    rfl
  · cases h

/-- **The response is the rows.** -/
theorem entries_mapM_fromRow {rows : List (ℕ × FeedEventRow)}
    {events : List FeedEvent} (h : rows.mapM FeedEvent.fromRow = .ok events) :
    (events.map toResponseEvent).map (·.entry) = rows := by
  induction rows generalizing events with
  | nil =>
      cases h
      rfl
  | cons row rows ih =>
      rw [List.mapM_cons, bind_eq_ok] at h
      obtain ⟨e, he, h⟩ := h
      rw [bind_eq_ok] at h
      obtain ⟨rest, hrest, h⟩ := h
      cases h
      rw [List.map_cons, List.map_cons, entry_fromRow he, ih hrest]

/-- Over a numbered feed of known kinds the route answers every limit it takes,
with the rows of the page. -/
theorem feedEvents_eq {n : ℕ} {log : List (ℕ × FeedEventRow)} (hn : Issued n log)
    (hk : ∀ row ∈ log, KnownKind row.2) (after : ℕ) (limit : Option ℤ) :
    (1 ≤ limit.getD 100 ∧ limit.getD 100 ≤ maxFeedReadLimit ∧
      ∃ entries, feedEvents true (some log) ⟨some after, limit⟩ = .ok entries ∧
        entries.map (·.entry) = pageAfter log after (limit.getD 100).toNat) ∨
    (¬ (1 ≤ limit.getD 100 ∧ limit.getD 100 ≤ maxFeedReadLimit) ∧
      feedEvents true (some log) ⟨some after, limit⟩ = .error .badRequest) := by
  by_cases hlimit : 1 ≤ limit.getD 100 ∧ limit.getD 100 ≤ maxFeedReadLimit
  · refine .inl ⟨hlimit.1, hlimit.2, ?_⟩
    have hsorted : (log.filter fun row => (after : ℤ) < row.1).Pairwise
        fun a b => a.1 ≤ b.1 :=
      (hn.sorted.imp fun hab => Nat.le_of_lt hab).filter _
    have hpage : ((log.filter fun row => (after : ℤ) < row.1).take
        (limit.getD 100).toNat) = pageAfter log after (limit.getD 100).toNat := by
      unfold pageAfter
      simp only [Nat.cast_lt]
    have hknown : ∀ row ∈ pageAfter log after (limit.getD 100).toNat,
        KnownKind row.2 := fun row hrow =>
      hk row (List.mem_of_mem_filter (List.mem_of_mem_take hrow))
    obtain ⟨events, hevents, -⟩ := mapM_fromRow hknown
    have hlist : listFeedEventsAfter log after (limit.getD 100) = .ok events := by
      unfold listFeedEventsAfter
      rw [if_pos hlimit]
      simp only [hsorted.insertionSort_eq]
      rw [hpage, hevents]
    refine ⟨events.map toResponseEvent, ?_, entries_mapM_fromRow hevents⟩
    unfold feedEvents
    simp [hlist]
  · refine .inr ⟨hlimit, ?_⟩
    unfold feedEvents listFeedEventsAfter
    simp [hlimit]

/-! ## Writers and clients -/

abbrev HashReplicaSys (O : OtherWork) : Type :=
  ReplicaSys (mediaIndex O) Report HashKey String

/-- The client has read a page and goes on from its last cursor. -/
def HashReplicaSys.answer (s : HashReplicaSys O) (i : ℕ)
    (entries : List FeedResponseEvent) : HashReplicaSys O :=
  { s with
    replicas := Function.update s.replicas i
      ((s.replicas i).receive readHash (entries.map (·.entry))) }

/-- One step of a writer, or one request of a client that is answered. -/
inductive HashReplicaStep (s : HashReplicaSys O) : HashReplicaSys O → Prop
  | write (db : Sys (mediaIndex O) Report)
      (h : Step IsWriter (fun _ _ => True) s.db db) :
      HashReplicaStep s { s with db := db }
  | poll (i : ℕ) (limit : Option ℤ) (entries : List FeedResponseEvent)
      (h : feedEvents true (some s.db.log) ⟨some (s.replicas i).after, limit⟩
        = .ok entries) :
      HashReplicaStep s (HashReplicaSys.answer s i entries)

theorem HashReplicaSys.answer_self (s : HashReplicaSys O) (i : ℕ)
    (entries : List FeedResponseEvent) :
    (HashReplicaSys.answer s i entries).replicas i
      = (s.replicas i).receive readHash (entries.map (·.entry)) :=
  Function.update_self ..

/-- What the bodies and their events keep, along the whole run. -/
abbrev HashReplicaInv (st₀ : Tables) (s : HashReplicaSys O) : Prop :=
  ReplicaInv (D := mediaIndex O) readHash IsWriter (fun _ _ => True) Readable
    st₀ s

variable {st₀ : Tables} {s s' : HashReplicaSys O}

theorem isWriter_disciplined : ∀ p : MediaTxn O Report, IsWriter p →
    Disciplined (D := mediaIndex O) Readable false p :=
  fun _ hp => hp.disciplined

/-- **One step of the system is one step of the replicas.** -/
theorem HashReplicaStep.replicaStep (h : HashReplicaStep s s')
    (hinv : HashReplicaInv st₀ s) :
    ReplicaStep (D := mediaIndex O) IsWriter (fun _ _ => True) readHash s s' := by
  cases h with
  | write db h => exact .write db h
  | poll i limit entries h =>
      have hknown : ∀ row ∈ s.db.log, KnownKind row.2 := fun row hrow =>
        (hinv.ordered.events row hrow).1
      rcases feedEvents_eq hinv.ordered.log hknown (s.replicas i).after limit with
        ⟨hpos, -, entries', hentries, hpage⟩ | ⟨-, hbad⟩
      · rw [hentries] at h
        obtain rfl := Except.ok.inj h
        unfold HashReplicaSys.answer
        rw [hpage]
        exact .poll i (limit.getD 100).toNat (by omega)
      · rw [hbad] at h
        cases h

theorem replicaRun_of_hashRun (hinv : HashReplicaInv st₀ s)
    (hrun : ReflTransGen HashReplicaStep s s') :
    ReflTransGen (ReplicaStep (D := mediaIndex O) IsWriter (fun _ _ => True)
      readHash) s s' ∧ HashReplicaInv st₀ s' := by
  induction hrun with
  | refl => exact ⟨.refl, hinv⟩
  | tail _ hstep ih =>
      obtain ⟨hrun, hinv⟩ := ih
      have hstep' := hstep.replicaStep hinv
      exact ⟨hrun.tail hstep', hinv.step isWriter_disciplined hstep'⟩

/-! ## Exact duplicates in the copy -/

theorem mem_findExactDuplicates {q : ExactDuplicateQuery} {t : Tables}
    {key : HashKey} :
    key ∈ (findExactDuplicates q t).map (·.1) ↔ key.hashKind = q.hashKind ∧
      key.hashVersion = q.hashVersion ∧ hashTable t key = some q.hashValue := by
  unfold findExactDuplicates hashTable
  rw [((orderLimit_perm fun _ h => by cases h).map _).mem_iff]
  simp only [List.mem_map, List.mem_filter, Bool.and_eq_true, decide_eq_true_eq,
    Option.map_eq_some_iff]
  constructor
  · rintro ⟨h, ⟨hmem, ⟨hkind, hversion⟩, hvalue⟩, rfl⟩
    exact ⟨hkind, hversion, h.2, AList.mem_lookup_iff.mpr hmem, hvalue⟩
  · rintro ⟨hkind, hversion, row, hrow, hvalue⟩
    exact ⟨⟨key, row⟩, ⟨AList.mem_lookup_iff.mp hrow, ⟨hkind, hversion⟩, hvalue⟩,
      rfl⟩

/-- The copy is the hash table, and it finds the same exact duplicates. -/
structure CopyOf (t : Tables) (copy : HashKey → Option String) : Prop where
  hashes : copy = hashTable t
  duplicates : ∀ q key, key ∈ (findExactDuplicates q t).map (·.1) ↔
    key.hashKind = q.hashKind ∧ key.hashVersion = q.hashVersion ∧
      copy key = some q.hashValue

theorem copyOf_hashTable (t : Tables) : CopyOf t (hashTable t) :=
  ⟨rfl, fun _ _ => mem_findExactDuplicates⟩

/-! ## The clients -/

/-- What client `i` has of the hash table, now and from now on. -/
structure FollowsHashes (s : HashReplicaSys O) (i : ℕ) : Prop where
  /-- Each key has the last of the values committed up to the cursor. -/
  copy : ∀ key, (s.replicas i).copy key = (s.shown readHash i key).getLast?
  current : ∀ key, hashTable s.db.store key = (s.values readHash key).getLast?
  behind : ∀ key, s.shown readHash i key <+: s.values readHash key
  onward : ∀ s', ReflTransGen HashReplicaStep s s' → ∀ key,
    s.shown readHash i key <+: s'.shown readHash i key
  /-- After as many pages as there are events now, every key that was not
  written since is the table's. -/
  settles : ∀ s', ReflTransGen HashReplicaStep s s' →
    (s.replicas i).polls + s.db.log.length ≤ (s'.replicas i).polls → ∀ key,
    s'.values readHash key = s.values readHash key →
    (s'.replicas i).copy key = hashTable s'.db.store key
  /-- After a page that is not full the copy is the table. -/
  short : ∀ limit entries,
    feedEvents true (some s.db.log) ⟨some (s.replicas i).after, limit⟩
      = .ok entries → (entries.length : ℤ) < limit.getD 100 →
    CopyOf s.db.store ((HashReplicaSys.answer s i entries).replicas i).copy
  /-- Only a limit out of range is refused. -/
  answered : ∀ limit, 1 ≤ limit.getD 100 ∧ limit.getD 100 ≤ maxFeedReadLimit ↔
    ∃ entries, feedEvents true (some s.db.log)
      ⟨some (s.replicas i).after, limit⟩ = .ok entries

/-- **Replicas of the hashes.** In every order of the writers' statements and the
clients' requests a client's copy is the hash table as of its cursor, key by key;
it never goes back, it arrives, and a short page makes it the table. -/
theorem hash_replica {videos : AList fun _ : String => ServableVideo}
    {sources : AList fun _ : SourceKey => SourceRow}
    (hrun : ReflTransGen HashReplicaStep
      { db := { store := { videos := videos, sources := sources } } } s) (i : ℕ) :
    FollowsHashes s i := by
  obtain ⟨hruns, hinv⟩ := replicaRun_of_hashRun (replicaInv_init _) hrun
  obtain ⟨-, h⟩ := reachable_replicates keeps_hashOutbox rfl isWriter_disciplined
    hruns i
  have hknown : ∀ row ∈ s.db.log, KnownKind row.2 := fun row hrow =>
    (hinv.ordered.events row hrow).1
  refine ⟨h.copy, h.current, h.behind, fun s' hrun' key => ?_,
    fun s' hrun' hpolls key hsame => ?_, fun limit entries hread hshort => ?_,
    fun limit => ⟨fun hlimit => ?_, fun hread => ?_⟩⟩
  · exact h.onward s' (replicaRun_of_hashRun hinv hrun').1 key
  · obtain ⟨hruns', -⟩ := replicaRun_of_hashRun hinv hrun'
    obtain ⟨-, h'⟩ := reachable_replicates keeps_hashOutbox rfl
      isWriter_disciplined (hruns.trans hruns') i
    have harrived := h.arrives s' hruns' hpolls key
    -- what is shown lies between the values then and the values now
    have hall : s'.shown readHash i key = s'.values readHash key :=
      (h'.behind key).eq_of_length_le (by rw [hsame]; exact harrived.length_le)
    rw [h'.copy, h'.current, hall]
  · rcases feedEvents_eq hinv.ordered.log hknown (s.replicas i).after limit with
      ⟨hpos, -, entries', hentries, hpage⟩ | ⟨-, hbad⟩
    · rw [hentries] at hread
      obtain rfl := Except.ok.inj hread
      have hlength := congrArg List.length hpage
      rw [List.length_map] at hlength
      rw [HashReplicaSys.answer_self, hpage, h.short _ (by omega)]
      exact copyOf_hashTable _
    · rw [hbad] at hread
      cases hread
  · rcases feedEvents_eq hinv.ordered.log hknown (s.replicas i).after limit with
      ⟨-, -, entries, hentries, -⟩ | ⟨hbad, -⟩
    · exact ⟨entries, hentries⟩
    · exact absurd hlimit hbad
  · rcases feedEvents_eq hinv.ordered.log hknown (s.replicas i).after limit with
      ⟨h₁, h₂, -⟩ | ⟨-, hbad⟩
    · exact ⟨h₁, h₂⟩
    · obtain ⟨entries, hread⟩ := hread
      rw [hbad] at hread
      cases hread

/-- A run of the database is a run of the system in which nobody asks. -/
theorem HashReplicaSys.write_run {db : Sys (mediaIndex O) Report}
    (hrun : ReflTransGen (Step IsWriter fun _ _ => True) s.db db) :
    ReflTransGen HashReplicaStep s { s with db := db } := by
  induction hrun with
  | refl => exact .refl
  | tail _ hstep ih => exact ih.tail (.write _ hstep)

/-- A legacy row with a hash is imported; a client has asked once. -/
theorem hash_replica_import : ∃ s : HashReplicaSys .none,
    (s.replicas 0).copy ⟨"v", "phash", "1", MediaImports.inputMediaVersion⟩
        = some "01" ∧ FollowsHashes s 0 := by
  let row : LegacyVideoIndexRow :=
    ⟨"v", none, some "v.mp4", some "01", some "phash", some "1"⟩
  let writer : MediaWriter := .importPage "yral-sfw" "run" [row]
  have hperform : ∃ report c l,
      perform id idleWork idleOracle {} writer.body 1 {} ()
        = .ok (report, c, l, ()) ∧
      ∃ entries, feedEvents true (some l.pend) ⟨some 0, none⟩ = .ok entries ∧
        (({} : Replica HashKey String).receive readHash
          (entries.map (·.entry))).copy
            ⟨"v", "phash", "1", MediaImports.inputMediaVersion⟩ = some "01" :=
    ⟨_, _, _, rfl, _, rfl, by decide⟩
  obtain ⟨report, c, l, h, entries, hread, hcopy⟩ := hperform
  have hwrite := HashReplicaSys.write_run (s := { db := { store := {} } })
    (alone_run (P := IsWriter) (G := fun _ _ => True) (s := { store := {} }) rfl
      ⟨writer, rfl⟩ trivial h)
  have hrun := hwrite.tail (.poll 0 none entries hread)
  refine ⟨_, ?_, hash_replica hrun 0⟩
  rw [HashReplicaSys.answer_self]
  exact hcopy

end VideoStorage.Jobs
