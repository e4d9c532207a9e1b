import Mathlib.Data.List.Sort
import VideoStorage.Foundation.Fallible
import VideoStorage.Foundation.Perform
import VideoStorage.MediaIndex.Repo

/-!
# The media feed

`append_feed_event_txn` takes the append lock, sets the mark the insert trigger
asks for and inserts; `list_feed_events_after` pages through the committed rows
by cursor. `FeedStep` runs any number of writer transactions and pollers side by
side. A poller's events are at all times the first part of the committed feed
(`CaughtUp`), which is where delivery exactly once and in order comes from.
-/

namespace VideoStorage.MediaIndex

open Foundation
open Relation (ReflTransGen)

variable {O : OtherWork} {α : Type}

/-! ## Appending -/

def FeedEventInput.toRow (input : FeedEventInput) : FeedEventRow where
  eventKind := input.eventKind.asStr
  videoId := input.videoId
  hashKind := input.hashKind
  hashVersion := input.hashVersion
  inputMediaVersion := input.inputMediaVersion
  payload := input.payload

/-- The lock comes first: the cursor is allocated by the insert. -/
def appendFeedEventTxn (input : FeedEventInput) : MediaTxn O ℕ := do
  lockLog
  markLog
  insertLog (D := mediaIndex O) input.toRow

/-- The callers' `if matches!(outcome, Inserted | Changed)` around the append. -/
def appendIfWritten (outcome : UpsertOutcome) (input : FeedEventInput) :
    MediaTxn O Unit :=
  if outcome.isWrite then (appendFeedEventTxn input).bind fun _ => .ret ()
  else .ret ()

/-- The kind column holds the text of a kind. -/
def KnownKind (row : FeedEventRow) : Prop :=
  ∃ kind : FeedEventKind, row.eventKind = kind.asStr

theorem knownKind_toRow (input : FeedEventInput) : KnownKind input.toRow :=
  ⟨input.eventKind, rfl⟩

theorem eval_appendFeedEventTxn {st : (mediaIndex O).Store}
    {l l' : Loc (mediaIndex O)} {input : FeedEventInput} {n : ℕ}
    (h : Eval st (appendFeedEventTxn input) l n l') :
    l'.view st = l.view st ∧ l'.pend = l.pend ++ [(n, input.toRow)] := by
  unfold appendFeedEventTxn at h
  simp only [Prog.bind_eq] at h
  obtain ⟨_, l₁, hlock, h₁⟩ := eval_bind.mp h
  obtain ⟨_, l₂, hmark, h₂⟩ := eval_bind.mp h₁
  have e₁ := eval_lockLog hlock
  have e₂ := eval_markLog hmark
  obtain ⟨-, -, e₃⟩ := eval_insertLog h₂
  subst e₁ e₂ e₃
  exact ⟨rfl, rfl⟩

theorem disciplined_appendFeedEventTxn {Q : FeedEventRow → Prop} (held : Bool)
    {input : FeedEventInput} (hQ : Q input.toRow) :
    Disciplined (D := mediaIndex O) Q held (appendFeedEventTxn input) :=
  ⟨rfl, hQ, fun _ => trivial⟩

theorem eval_appendIfWritten {st : (mediaIndex O).Store}
    {l l' : Loc (mediaIndex O)} {outcome : UpsertOutcome}
    {input : FeedEventInput} {u : Unit}
    (h : Eval st (appendIfWritten outcome input) l u l') :
    (outcome.isWrite = false ∧ l' = l) ∨ (outcome.isWrite = true ∧
      l'.view st = l.view st ∧ ∃ n, l'.pend = l.pend ++ [(n, input.toRow)]) := by
  unfold appendIfWritten at h
  split_ifs at h with hw
  · obtain ⟨n, l₁, happ, hret⟩ := eval_bind.mp h
    obtain ⟨-, rfl⟩ := eval_ret.mp hret
    obtain ⟨hview, hpend⟩ := eval_appendFeedEventTxn happ
    exact .inr ⟨hw, hview, n, hpend⟩
  · obtain ⟨-, rfl⟩ := eval_ret.mp h
    exact .inl ⟨by simpa using hw, rfl⟩

/-- An append touches no table. -/
theorem view_appendIfWritten {st : (mediaIndex O).Store}
    {l l' : Loc (mediaIndex O)} {outcome : UpsertOutcome}
    {input : FeedEventInput} {u : Unit}
    (h : Eval st (appendIfWritten outcome input) l u l') :
    l'.view st = l.view st := by
  rcases eval_appendIfWritten h with ⟨-, rfl⟩ | ⟨-, hview, -⟩
  · rfl
  · exact hview

theorem disciplined_appendIfWritten {Q : FeedEventRow → Prop} (held : Bool)
    (outcome : UpsertOutcome) {input : FeedEventInput} (hQ : Q input.toRow) :
    Disciplined (D := mediaIndex O) Q held (appendIfWritten outcome input) := by
  unfold appendIfWritten
  split
  · exact (disciplined_appendFeedEventTxn held hQ).bind fun _ => trivial
  · trivial

/-- Nobody who appends through this looks at the cursor. -/
theorem numberless_appendIfWritten (outcome : UpsertOutcome)
    (input : FeedEventInput) :
    Numberless (appendIfWritten (O := O) outcome input) := by
  unfold appendIfWritten
  split
  · exact fun _ => ⟨trivial, fun _ => rfl⟩
  · trivial

/-! ## Reading -/

def maxFeedReadLimit : ℤ := 500

inductive FeedReadError
  | unknownEventKind (kind : String)
  | invalidLimit (limit max : ℤ)
  deriving DecidableEq, Repr

def FeedEvent.fromRow (row : ℕ × FeedEventRow) : Except FeedReadError FeedEvent :=
  match FeedEventKind.fromStr row.2.eventKind with
  | .ok kind => .ok {
      cursor := row.1
      eventKind := kind
      videoId := row.2.videoId
      hashKind := row.2.hashKind
      hashVersion := row.2.hashVersion
      inputMediaVersion := row.2.inputMediaVersion
      payload := row.2.payload }
  | .error text => .error (.unknownEventKind text)

/-- Over the committed rows of `media_feed_events`, in any order. -/
def listFeedEventsAfter (rows : List (ℕ × FeedEventRow))
    (afterCursor limit : ℤ) : Except FeedReadError (List FeedEvent) :=
  if 1 ≤ limit ∧ limit ≤ maxFeedReadLimit then
    let above := rows.filter fun row => afterCursor < row.1
    let ordered := above.insertionSort fun a b => a.1 ≤ b.1
    (ordered.take limit.toNat).mapM FeedEvent.fromRow
  else .error (.invalidLimit limit maxFeedReadLimit)

/-- Rows of known kinds all decode, each to an event with its cursor. -/
theorem mapM_fromRow {rows : List (ℕ × FeedEventRow)}
    (h : ∀ row ∈ rows, KnownKind row.2) :
    ∃ events, rows.mapM FeedEvent.fromRow = .ok events ∧
      events.map (·.cursor) = rows.map fun row => (row.1 : ℤ) := by
  induction rows with
  | nil => exact ⟨[], rfl, rfl⟩
  | cons row rows ih =>
      obtain ⟨kind, hkind⟩ := h row List.mem_cons_self
      obtain ⟨events, hok, hcur⟩ :=
        ih fun r hr => h r (List.mem_cons_of_mem _ hr)
      have hrow : ∃ e, FeedEvent.fromRow row = .ok e ∧ e.cursor = row.1 := by
        unfold FeedEvent.fromRow
        rw [hkind, FeedEventKind.fromStr_asStr]
        exact ⟨_, rfl, rfl⟩
      obtain ⟨e, he, hce⟩ := hrow
      refine ⟨e :: events, ?_, ?_⟩
      · rw [List.mapM_cons, he, hok]
        rfl
      · rw [List.map_cons, List.map_cons, hce, hcur]

theorem mapM_fromRow_append {xs ys : List (ℕ × FeedEventRow)}
    {as bs : List FeedEvent} (hx : xs.mapM FeedEvent.fromRow = .ok as)
    (hy : ys.mapM FeedEvent.fromRow = .ok bs) :
    (xs ++ ys).mapM FeedEvent.fromRow = .ok (as ++ bs) := by
  rw [List.mapM_append, hx, hy]
  rfl

/-- A page read past the first part of a numbered feed is the beginning of the
rest of it. -/
theorem listFeedEventsAfter_eq {n : ℕ} {xs ys : List (ℕ × FeedEventRow)}
    (h : Issued n (xs ++ ys)) {limit : ℤ} (h₁ : 1 ≤ limit)
    (h₂ : limit ≤ maxFeedReadLimit) :
    listFeedEventsAfter (xs ++ ys) (lastNumber xs) limit
      = (ys.take limit.toNat).mapM FeedEvent.fromRow := by
  have habove : (xs ++ ys).filter (fun row => (lastNumber xs : ℤ) < row.1)
      = ys := by
    simpa using h.above_eq_drop
  have hsorted : ys.Pairwise fun a b => a.1 ≤ b.1 :=
    (List.pairwise_append.mp h.sorted).2.1.imp fun hab => Nat.le_of_lt hab
  unfold listFeedEventsAfter
  rw [if_pos ⟨h₁, h₂⟩, habove]
  simp only [hsorted.insertionSort_eq]

/-! ## Writers and pollers -/

/-- The statements that `append_feed_event_txn` is made of. -/
def touchesFeed : Stmt (mediaIndex O) → Bool
  | .lockLog | .markLog | .insertLog _ => true
  | _ => false

/-- A writer: any statements on the tables or elsewhere, whatever they answer,
and appends, which all go through `append_feed_event_txn`. -/
inductive FeedWriter : MediaTxn O α → Prop
  | done (a : α) : FeedWriter (.ret a)
  | other (s : Stmt (mediaIndex O)) (k : s.Reply → MediaTxn O α)
      (hs : touchesFeed s = false) (hk : ∀ r, FeedWriter (k r)) :
      FeedWriter (.call s k)
  | append (input : FeedEventInput) (k : ℕ → MediaTxn O α)
      (hk : ∀ n, FeedWriter (k n)) :
      FeedWriter ((appendFeedEventTxn input).bind k)

theorem FeedWriter.disciplined {p : MediaTxn O α} (h : FeedWriter p) :
    ∀ held, Disciplined (D := mediaIndex O) KnownKind held p := by
  induction h with
  | done a => exact fun _ => trivial
  | other s k hs _ ih =>
      intro held
      cases s with
      | insertIfAbsent key row => exact fun b => ih b held
      | selectForUpdate key => exact fun r => ih r held
      | update key f => exact ih () held
      | work w => exact fun r => ih r held
      | lockLog => cases hs
      | markLog => cases hs
      | insertLog e => cases hs
  | append input k _ ih =>
      intro held
      exact (disciplined_appendFeedEventTxn held (knownKind_toRow input)).bind
        fun n => ih n held

/-- A client of `list_feed_events_after`, with what it has got so far. -/
structure Poller where
  after : ℤ := 0
  seen : List FeedEvent := []
  /-- How often it has asked, which nothing reads. -/
  polls : ℕ := 0

/-- The client goes on from the last cursor of the page. -/
def Poller.receive (p : Poller) (events : List FeedEvent) : Poller where
  after := (events.getLast?.map (·.cursor)).getD p.after
  seen := p.seen ++ events
  polls := p.polls + 1

structure FeedSys (O : OtherWork) (α : Type) where
  db : Sys (mediaIndex O) α
  pollers : ℕ → Poller := fun _ => {}

/-- One step of a writer, or one answered read of a poller. -/
inductive FeedStep (s : FeedSys O α) : FeedSys O α → Prop
  | write (db : Sys (mediaIndex O) α)
      (h : Step FeedWriter (fun _ _ => True) s.db db) :
      FeedStep s { s with db := db }
  | poll (i : ℕ) (limit : ℤ) (events : List FeedEvent) (h₁ : 1 ≤ limit)
      (h₂ : limit ≤ maxFeedReadLimit)
      (hread : listFeedEventsAfter s.db.log (s.pollers i).after limit
        = .ok events) :
      FeedStep s { s with
        pollers := Function.update s.pollers i ((s.pollers i).receive events) }

/-- The poller has seen exactly `xs`, the first part of the committed feed. -/
structure CaughtUp (feed : List (ℕ × FeedEventRow)) (p : Poller)
    (xs : List (ℕ × FeedEventRow)) : Prop where
  pre : xs <+: feed
  seen : xs.mapM FeedEvent.fromRow = .ok p.seen
  after : p.after = lastNumber xs

theorem caughtUp_init (feed : List (ℕ × FeedEventRow)) :
    CaughtUp feed {} [] :=
  ⟨List.nil_prefix, rfl, rfl⟩

theorem CaughtUp.mono {feed feed' xs : List (ℕ × FeedEventRow)} {p : Poller}
    (h : CaughtUp feed p xs) (hfeed : feed <+: feed') : CaughtUp feed' p xs :=
  ⟨h.pre.trans hfeed, h.seen, h.after⟩

/-- **One read.** It succeeds, and moves the poller on by a page of what it has
not seen. -/
theorem CaughtUp.poll {n : ℕ} {feed xs : List (ℕ × FeedEventRow)} {p : Poller}
    (h : CaughtUp feed p xs) (hn : Issued n feed)
    (hk : ∀ row ∈ feed, KnownKind row.2) {limit : ℤ} (h₁ : 1 ≤ limit)
    (h₂ : limit ≤ maxFeedReadLimit) :
    ∃ events, listFeedEventsAfter feed p.after limit = .ok events ∧
      CaughtUp feed (p.receive events)
        (xs ++ (feed.drop xs.length).take limit.toNat) := by
  obtain ⟨ys, rfl⟩ := h.pre
  rw [List.drop_left]
  have hpage : ∀ row ∈ ys.take limit.toNat, KnownKind row.2 := fun row hr =>
    hk row (List.mem_append_right _ (List.mem_of_mem_take hr))
  obtain ⟨events, hok, hcur⟩ := mapM_fromRow hpage
  refine ⟨events, ?_, ?_, ?_, ?_⟩
  · rw [h.after, listFeedEventsAfter_eq hn h₁ h₂, hok]
  · exact (List.prefix_append_right_inj xs).mpr (List.take_prefix _ _)
  · exact mapM_fromRow_append h.seen hok
  · have hlast : events.getLast?.map (·.cursor)
        = (ys.take limit.toNat).getLast?.map fun row => (row.1 : ℤ) := by
      rw [← List.getLast?_map, ← List.getLast?_map, hcur]
    simp only [Poller.receive, hlast, h.after, lastNumber]
    rcases List.eq_nil_or_concat (ys.take limit.toNat) with e | ⟨zs, z, e⟩
    · rw [e]
      simp
    · rw [e]
      simp

/-! ## Delivery -/

/-- The database keeps its locks and its cursor order, and every poller is
caught up to some point of the feed. -/
structure FeedInv (st₀ : Tables) (s : FeedSys O α) : Prop where
  locked : Locked (D := mediaIndex O) FeedWriter (fun _ _ => True) st₀ s.db
  ordered : Ordered (D := mediaIndex O) KnownKind s.db
  caughtUp : ∀ i, ∃ xs, CaughtUp s.db.log (s.pollers i) xs

variable {st₀ : Tables} {s s' : FeedSys O α}

theorem feedInv_init (st₀ : Tables) :
    FeedInv st₀ ({ db := { store := st₀ } } : FeedSys O α) where
  locked := locked_init (D := mediaIndex O) st₀
  ordered := ordered_init (D := mediaIndex O) st₀
  caughtUp _ := ⟨[], caughtUp_init []⟩

/-- One step: a poller that reads moves on by a page, the others stay put and
what they have seen stays the first part of the feed. -/
theorem FeedInv.step_caughtUp (h : FeedInv st₀ s) (hstep : FeedStep s s')
    (i : ℕ) {xs : List (ℕ × FeedEventRow)}
    (hxs : CaughtUp s.db.log (s.pollers i) xs) :
    ∃ ys, CaughtUp s'.db.log (s'.pollers i) ys ∧ s.db.log <+: s'.db.log ∧
      ((s'.pollers i).polls = (s.pollers i).polls ∧ ys = xs ∨
        (s'.pollers i).polls = (s.pollers i).polls + 1 ∧
          min s.db.log.length (xs.length + 1) ≤ ys.length) := by
  cases hstep with
  | write db hdb =>
      exact ⟨xs, hxs.mono hdb.log_prefix, hdb.log_prefix, .inl ⟨rfl, rfl⟩⟩
  | poll j limit events h₁ h₂ hread =>
      by_cases hij : i = j
      · subst hij
        obtain ⟨events', hread', hnext⟩ :=
          hxs.poll h.ordered.log h.ordered.events h₁ h₂
        rw [hread] at hread'
        obtain rfl := Except.ok.inj hread'
        refine ⟨xs ++ (s.db.log.drop xs.length).take limit.toNat, ?_,
          List.prefix_refl _, .inr ?_⟩
        · simpa using hnext
        · have hlim : 1 ≤ limit.toNat := by omega
          simp only [Function.update_self, Poller.receive, true_and]
          simp only [List.length_append, List.length_take, List.length_drop]
          omega
      · refine ⟨xs, ?_, List.prefix_refl _, .inl ⟨?_, rfl⟩⟩
        · simpa [Function.update_of_ne hij] using hxs
        · simp [Function.update_of_ne hij]

theorem FeedInv.step (h : FeedInv st₀ s) (hstep : FeedStep s s') :
    FeedInv st₀ s' := by
  have hcaught : ∀ i, ∃ xs, CaughtUp s'.db.log (s'.pollers i) xs := by
    intro i
    obtain ⟨xs, hxs⟩ := h.caughtUp i
    obtain ⟨ys, hys, -⟩ := h.step_caughtUp hstep i hxs
    exact ⟨ys, hys⟩
  cases hstep with
  | write db hdb =>
      have hdisc : ∀ p : MediaTxn O α, FeedWriter p →
          Disciplined (D := mediaIndex O) KnownKind false p :=
        fun p hp => hp.disciplined false
      exact ⟨h.locked.step hdb, h.ordered.step h.locked hdisc hdb, hcaught⟩
  | poll j limit events h₁ h₂ hread => exact ⟨h.locked, h.ordered, hcaught⟩

/-- Along a run a poller that asks `k` more times gets to the `k`-th event, or
to the end of what was there when the run began. -/
theorem FeedInv.run (h : FeedInv st₀ s) (hrun : ReflTransGen FeedStep s s')
    (i : ℕ) :
    FeedInv st₀ s' ∧ s.db.log <+: s'.db.log ∧
      ∃ ys, CaughtUp s'.db.log (s'.pollers i) ys ∧
        min s.db.log.length ((s'.pollers i).polls - (s.pollers i).polls)
          ≤ ys.length ∧ (s.pollers i).polls ≤ (s'.pollers i).polls := by
  induction hrun with
  | refl =>
      obtain ⟨xs, hxs⟩ := h.caughtUp i
      refine ⟨h, List.prefix_refl _, xs, hxs, ?_, Nat.le_refl _⟩
      omega
  | tail _ hstep ih =>
      obtain ⟨hinv, hpre, ys, hys, hlen, hle⟩ := ih
      obtain ⟨zs, hzs, hpre', hcase⟩ := hinv.step_caughtUp hstep i hys
      have hlog := hpre.length_le
      refine ⟨hinv.step hstep, hpre.trans hpre', zs, hzs, ?_, ?_⟩
      · rcases hcase with ⟨hp, rfl⟩ | ⟨hp, hz⟩
        · rw [hp]
          exact hlen
        · omega
      · omega

/-- What poller `i` has of the feed, now and from now on. -/
structure Delivered (s : FeedSys O α) (i : ℕ) : Prop where
  /-- It has seen the committed events up to its cursor and no others. -/
  seen : (s.db.log.filter fun row => (row.1 : ℤ) ≤ (s.pollers i).after).mapM
    FeedEvent.fromRow = .ok (s.pollers i).seen
  /-- In strictly increasing cursor order, so none twice. -/
  increasing : ((s.pollers i).seen.map (·.cursor)).Pairwise (· < ·)
  /-- Whatever commits later lies beyond its cursor. -/
  later : ∀ s', ReflTransGen FeedStep s s' → ∀ row ∈ s'.db.log,
    row ∉ s.db.log → (s.pollers i).after < row.1
  /-- It can always read on. -/
  reads : ∀ limit, 1 ≤ limit → limit ≤ maxFeedReadLimit →
    ∃ events, listFeedEventsAfter s.db.log (s.pollers i).after limit = .ok events
  /-- After as many reads as there are committed events it has seen them all. -/
  arrives : ∀ s', ReflTransGen FeedStep s s' →
    (s.pollers i).polls + s.db.log.length ≤ (s'.pollers i).polls →
    ∀ row ∈ s.db.log, ∃ event ∈ (s'.pollers i).seen,
      FeedEvent.fromRow row = .ok event

/-- A run of the database is a run of the feed in which nobody reads. -/
theorem FeedSys.write_run {db : Sys (mediaIndex O) α}
    (hrun : ReflTransGen (Step FeedWriter fun _ _ => True) s.db db) :
    ReflTransGen FeedStep s { s with db := db } := by
  induction hrun with
  | refl => exact .refl
  | tail _ hstep ih => exact ih.tail (.write _ hstep)

theorem mem_of_mapM_fromRow {rows : List (ℕ × FeedEventRow)}
    {events : List FeedEvent} (h : rows.mapM FeedEvent.fromRow = .ok events)
    {row : ℕ × FeedEventRow} (hrow : row ∈ rows) :
    ∃ event ∈ events, FeedEvent.fromRow row = .ok event := by
  obtain ⟨xs, ys, rfl⟩ := List.append_of_mem hrow
  rw [List.mapM_append, bind_eq_ok] at h
  obtain ⟨as, -, h⟩ := h
  rw [bind_eq_ok] at h
  obtain ⟨bs, hbs, h⟩ := h
  rw [List.mapM_cons, bind_eq_ok] at hbs
  obtain ⟨event, hevent, hbs⟩ := hbs
  rw [bind_eq_ok] at hbs
  obtain ⟨rest, -, hbs⟩ := hbs
  cases hbs
  cases h
  exact ⟨event, by simp, hevent⟩

/-- **Feed delivery.** Whatever the writers and the pollers do, in every order,
each poller sees every committed event exactly once and in cursor order, and
its cursor never passes an event that commits later. -/
theorem feed_delivery
    (hrun : ReflTransGen FeedStep ({ db := { store := st₀ } } : FeedSys O α) s)
    (i : ℕ) : Delivered s i := by
  have hinv : FeedInv st₀ s := ((feedInv_init st₀).run hrun i).1
  obtain ⟨xs, hxs⟩ := hinv.caughtUp i
  have hknown : ∀ row ∈ xs, KnownKind row.2 := fun row hr =>
    hinv.ordered.events row (hxs.pre.subset hr)
  refine ⟨?_, ?_, ?_, ?_, ?_⟩
  · have hcut : s.db.log.filter
        (fun row => decide ((row.1 : ℤ) ≤ (s.pollers i).after)) = xs := by
      obtain ⟨ys, hys⟩ := hxs.pre
      have hn : Issued s.db.seq (xs ++ ys) := hys ▸ hinv.ordered.log
      rw [← hys, List.filter_append, hxs.after]
      -- `xs` is what was read, `ys` what is numbered above it
      have hall : xs.filter
          (fun row => decide ((row.1 : ℤ) ≤ lastNumber xs)) = xs :=
        List.filter_eq_self.mpr fun row hr => by
          simpa using hn.left.le_lastNumber hr
      have hnone : ys.filter
          (fun row => decide ((row.1 : ℤ) ≤ lastNumber xs)) = [] :=
        List.filter_eq_nil_iff.mpr fun row hr => by
          simpa using hn.lastNumber_lt hr
      rw [hall, hnone, List.append_nil]
    rw [hcut]
    exact hxs.seen
  · obtain ⟨events, hok, hcur⟩ := mapM_fromRow hknown
    rw [hxs.seen] at hok
    obtain rfl := Except.ok.inj hok
    rw [hcur]
    obtain ⟨ys, hys⟩ := hxs.pre
    have hn : Issued s.db.seq (xs ++ ys) := hys ▸ hinv.ordered.log
    exact List.pairwise_map.mpr (hn.left.sorted.imp fun hab => by simpa using hab)
  · intro s' hrun' row hrow hnew
    obtain ⟨hinv', hpre, -⟩ := hinv.run hrun' i
    obtain ⟨zs, hzs⟩ := hxs.pre.trans hpre
    have hn : Issued s'.db.seq (xs ++ zs) := hzs ▸ hinv'.ordered.log
    rw [← hzs] at hrow
    rcases List.mem_append.mp hrow with hr | hr
    · exact absurd (hxs.pre.subset hr) hnew
    · rw [hxs.after]
      exact_mod_cast hn.lastNumber_lt hr
  · intro limit h₁ h₂
    obtain ⟨events, hok, -⟩ := hxs.poll hinv.ordered.log hinv.ordered.events h₁ h₂
    exact ⟨events, hok⟩
  · intro s' hrun' hpolls row hrow
    obtain ⟨-, hpre, ys, hys, hlen, -⟩ := hinv.run hrun' i
    -- as many polls as entries are enough
    have hall : s.db.log <+: ys := by
      refine List.prefix_of_prefix_length_le hpre hys.pre ?_
      omega
    exact mem_of_mapM_fromRow hys.seen (hall.subset hrow)

/-- One writer appends for a video that exists, one poller reads. -/
theorem feed_delivery_one : ∃ s : FeedSys .none Unit,
    (s.pollers 0).seen.map (·.cursor) = [1] ∧ Delivered s 0 := by
  let st : Tables := Tables.set {} (.video "v") default
  let input : FeedEventInput := { (default : FeedEventInput) with videoId := "v" }
  let body : MediaTxn .none Unit := (appendFeedEventTxn input).bind fun _ => .ret ()
  have hperform : perform id idleWork idleOracle st body 1 {} () = .ok ((), 2,
      { pend := [(1, input.toRow)], logLock := true, marked := true }, ()) := rfl
  have hwrite := alone_run (P := FeedWriter) (G := fun _ _ => True)
    (s := { store := st }) rfl (.append input _ fun _ => .done ()) trivial hperform
  have hrun := (FeedSys.write_run (s := { db := { store := st } }) hwrite).tail
    (.poll 0 1 [⟨1, input.eventKind, "v", none, none, none, .null⟩] (by decide)
      (by decide) rfl)
  exact ⟨_, rfl, feed_delivery hrun 0⟩

end VideoStorage.MediaIndex
