import VideoStorage.Chain.EarlyEnd

/-!
# Evidence of exhaustion

The walk stops at a page that is short or names no next post, and also at a full
page that names the post it was asked from: nothing says what a canister names
behind its last post. The caller takes all three for the end of the chain, so that
the posts behind such a full page are flagged (`natural_end`).
-/

namespace VideoStorage.Chain

open Foundation Prog

/-! ## Pages -/

/-- A page and the cursor it was asked from. -/
structure FetchedPage where
  cursor : Option String
  res : FetchPostsResult

def FetchedPage.next (page : FetchedPage) : Option String :=
  page.res.lastPostIdFetched.filter (· ≠ "")

/-- Fewer posts than a page has, or no next cursor. -/
def FetchedPage.Exhausts (page : FetchedPage) : Prop :=
  page.res.posts.length < pageSize ∨ page.next = none

/-- A full page, and its cursor is the one it was asked from. -/
def FetchedPage.Echoes (page : FetchedPage) : Prop :=
  pageSize ≤ page.res.posts.length ∧ page.next ≠ none ∧ page.next = page.cursor

theorem FetchedPage.Echoes.not_exhausts {page : FetchedPage} (h : page.Echoes) :
    ¬ page.Exhausts := by
  obtain ⟨hfull, hnext, -⟩ := h
  rintro (hshort | hnone)
  · omega
  · exact hnext hnone

/-- **The walk stops** at a page that is the last, and at one that does not
advance. -/
theorem walkStep_stop_iff (page : FetchedPage) :
    (walkStep page.cursor page.res pageSize).1 = true ↔
      page.Exhausts ∨ page.Echoes := by
  have hempty : page.res.posts.isEmpty = true → page.res.posts.length < pageSize := by
    intro h
    rw [List.isEmpty_iff.mp h]
    decide
  unfold walkStep FetchedPage.Exhausts FetchedPage.Echoes
  change ((page.res.posts.isEmpty || page.next.isNone ||
    !(page.next.isSome && decide (page.next ≠ page.cursor)) ||
    decide (page.res.posts.length < pageSize)) = true) ↔ _
  by_cases hshort : page.res.posts.length < pageSize
  · simp [hshort]
  · have hnonempty : page.res.posts.isEmpty = false :=
      Bool.eq_false_iff.mpr fun h => hshort (hempty h)
    rw [hnonempty]
    cases hnext : page.next with
    | none => simp
    | some c =>
        have hfull : pageSize ≤ page.res.posts.length := Nat.le_of_not_lt hshort
        simp [hshort, hfull]

def pageOfExchange : SnapshotExchange → Option FetchedPage
  | ⟨.fetch _ cursor, .ok res⟩ => some ⟨cursor, res⟩
  | _ => none

/-- The last page that was fetched. -/
def lastPage (tr : List SnapshotExchange) : Option FetchedPage :=
  (tr.filterMap pageOfExchange).getLast?

def isFetch : SnapshotExchange → Bool
  | ⟨.fetch _ _, _⟩ => true
  | _ => false

theorem lastPage_append (tr tr' : List SnapshotExchange) :
    lastPage (tr ++ tr') = (lastPage tr').or (lastPage tr) := by
  unfold lastPage
  rw [List.filterMap_append, List.getLast?_append]

variable {runId : Uuid} {limit : Option ℕ} {requestedBy : String} {left : ℕ}
  {cursor : Option String} {totals totals' : Totals} {res : FetchPostsResult}
  {tr upserts : List SnapshotExchange} {r : Except String Unit}
  {t t' : ChainTables}

/-! ## What a walk fetches -/

theorem upserts_pages {ps : List Post} {out : Except String Totals}
    (h : Runs (upsertPage runId ps totals) upserts out) :
    upserts.filterMap pageOfExchange = [] ∧ upserts.countP isFetch = 0 := by
  have hcalls := (upsertPage_only ps totals).runs h
  constructor
  · rw [List.filterMap_eq_nil_iff]
    intro x hx
    obtain ⟨post, hcall⟩ := hcalls x hx
    obtain ⟨e, r⟩ := x
    obtain rfl : e = _ := hcall
    rfl
  · rw [List.countP_eq_zero]
    intro x hx
    obtain ⟨post, hcall⟩ := hcalls x hx
    obtain ⟨e, r⟩ := x
    obtain rfl : e = _ := hcall
    exact Bool.false_ne_true

theorem pageOf_pages {out : Except String Totals} (cursor : Option String)
    (h : Runs (upsertPage runId res.posts totals) upserts out) :
    lastPage (pageOf cursor res upserts) = some ⟨cursor, res⟩ ∧
      (pageOf cursor res upserts).countP isFetch = 1 := by
  obtain ⟨hpages, hfetches⟩ := upserts_pages h
  constructor
  · show List.getLast? (⟨cursor, res⟩ :: upserts.filterMap pageOfExchange) = _
    rw [hpages]
    rfl
  · show List.countP isFetch (⟨.isCancelled, false⟩ ::
      ⟨.fetch pageSize cursor, .ok res⟩ :: upserts) = 1
    rw [List.countP_cons_of_neg (by simp [isFetch]),
      List.countP_cons_of_pos rfl, hfetches]

theorem stagedPage_pages {out : Except String Totals} (cursor : Option String)
    (totals' : Totals) (r : Except String Unit)
    (h : Runs (upsertPage runId res.posts totals) upserts out) :
    lastPage (stagedPage runId cursor res upserts totals' r) = some ⟨cursor, res⟩ ∧
      (stagedPage runId cursor res upserts totals' r).countP isFetch = 1 := by
  obtain ⟨hlast, hfetches⟩ := pageOf_pages cursor h
  constructor
  · rw [stagedPage, lastPage_append, hlast]
    rfl
  · rw [stagedPage, List.countP_append, hfetches]
    rfl

/-- **No walk fetches more pages than it has left**, whatever the pages are. -/
theorem WalkRun.fetches {out : Except String (Totals × Bool)}
    (h : WalkRun runId limit left cursor totals tr out) :
    tr.countP isFetch ≤ left := by
  induction h with
  | exhausted cursor totals b => exact Nat.le_refl 0
  | cancelled left cursor totals => exact Nat.zero_le _
  | noPage left cursor totals e => exact Nat.le_add_left 1 left
  | notStaged left cursor totals res upserts e h =>
      rw [(pageOf_pages cursor h).2]
      exact Nat.le_add_left 1 left
  | limited left cursor totals totals' res upserts r h =>
      rw [(stagedPage_pages cursor totals' r h).2]
      exact Nat.le_add_left 1 left
  | stopped left cursor totals totals' res upserts r h =>
      rw [(stagedPage_pages cursor totals' r h).2]
      exact Nat.le_add_left 1 left
  | next left cursor totals totals' res upserts rest r out h _ _ _ ih =>
      rw [List.countP_append, (stagedPage_pages cursor totals' r h).2]
      omega

/-- A complete walk has stopped at its last page. -/
theorem WalkRun.last_of_complete
    (h : WalkRun runId limit left cursor totals tr (.ok (totals', true))) :
    ∃ page, lastPage tr = some page ∧ (page.Exhausts ∨ page.Echoes) := by
  generalize hout : Except.ok (totals', true) = out at h
  induction h with
  | exhausted | cancelled | noPage | notStaged | limited => cases hout
  | stopped left cursor totals totals'' res upserts r h _ hstop =>
      exact ⟨⟨cursor, res⟩, (stagedPage_pages cursor totals'' r h).1,
        (walkStep_stop_iff ⟨cursor, res⟩).mp hstop⟩
  | next left cursor totals totals'' res upserts rest r out h _ _ _ ih =>
      obtain ⟨page, hlast, hpage⟩ := ih hout
      exact ⟨page, by rw [lastPage_append, hlast]; rfl, hpage⟩

theorem stagedPage_upserted (cursor : Option String) (r : Except String Unit)
    (h : Runs (upsertPage runId res.posts totals.nextPage) upserts (.ok totals')) :
    totals'.postsUpserted = totals.postsUpserted +
      upserted (stagedPage runId cursor res upserts totals' r) := by
  obtain ⟨-, hexec, -, hcount⟩ := stagedPage_executed cursor r h
  unfold upserted
  rw [hcount, hexec, List.countP_map]
  congr 1
  exact (List.countP_eq_length.mpr fun _ _ => rfl).symm

/-- An upsert failed. -/
def UpsertRefused : SnapshotExchange → Prop
  | ⟨.execute (.upsertChainPost _ _), .error _⟩ => True
  | _ => False

theorem upsertPage_refused {ps : List Post} {e : String}
    (h : Runs (upsertPage runId ps totals) upserts (.error e)) :
    ∃ x ∈ upserts, UpsertRefused x := by
  obtain ⟨_, -, x, hx, hrefused⟩ | ⟨_, hok, -⟩ := upsertPage_runs h
  · obtain ⟨post, hcall⟩ := (upsertPage_only ps totals).runs h x hx
    obtain ⟨call, r⟩ := x
    obtain rfl : call = _ := hcall
    cases r with
    | error m => exact ⟨_, hx, trivial⟩
    | ok u => exact hrefused.elim
  · cases hok

/-- **A walk that is not complete** has gone on from each page, or has ended at
the last for another reason. -/
theorem WalkRun.echo_of_incomplete {result : Except String (Totals × Bool)}
    (h : WalkRun runId limit left cursor totals tr result)
    (hresult : ∀ totals, result ≠ .ok (totals, true)) {page : FetchedPage}
    (hlast : lastPage tr = some page) (hecho : page.Echoes) :
    (∃ l, limit = some l ∧ l ≤ totals.postsUpserted + upserted tr) ∨
      ∃ x ∈ tr, UpsertRefused x := by
  induction h with
  | exhausted | cancelled | noPage => cases hlast
  | notStaged left cursor totals res upserts e h =>
      obtain ⟨x, hx, hrefused⟩ := upsertPage_refused h
      exact .inr ⟨x, .tail _ (.tail _ hx), hrefused⟩
  | limited left cursor totals totals' res upserts r h hlimit =>
      obtain ⟨l, hl, hreached⟩ := (Option.any_eq_true ..).mp hlimit
      rw [stagedPage_upserted cursor r h, decide_eq_true_eq] at hreached
      exact .inl ⟨l, hl, hreached⟩
  | stopped left cursor totals totals' res upserts r h hlimit hstop =>
      exact absurd rfl (hresult totals')
  | next left cursor totals totals' res upserts rest r out h hlimit hgo hrest ih =>
      obtain ⟨hfirst, -⟩ := stagedPage_pages cursor totals' r h
      rw [lastPage_append, hfirst] at hlast
      cases hrestLast : lastPage rest with
      | none =>
          rw [hrestLast] at hlast
          obtain rfl := Option.some.inj hlast
          -- the walk would have stopped here
          have hstop := (walkStep_stop_iff ⟨cursor, res⟩).mpr (.inr hecho)
          rw [hgo] at hstop
          cases hstop
      | some page' =>
          rw [hrestLast] at hlast
          obtain rfl := Option.some.inj hlast
          rcases ih hresult hrestLast with ⟨l, hl, hreached⟩ | ⟨x, hx, hrefused⟩
          · refine .inl ⟨l, hl, ?_⟩
            rw [stagedPage_upserted cursor r h] at hreached
            rw [upserted_append]
            omega
          · exact .inr ⟨x, List.mem_append_right _ hx, hrefused⟩

/-! ## What the run makes of it -/

/-- The upserts have reached the limit. -/
def LimitReached (limit : Option ℕ) (tr : List SnapshotExchange) : Prop :=
  ∃ l, limit = some l ∧ l ≤ upserted tr

def Flags (e : SnapshotCall) : Prop := ∃ runId, e = .execute (.markStalePosts runId)

/-- What is reported and flagged has the last page for evidence. -/
structure Evidence (t t' : ChainTables) (tr : List SnapshotExchange)
    (out : Except String ChainSnapshotSummary) : Prop where
  bounded : tr.countP isFetch ≤ maxIters
  completed : ∀ summary, out = .ok summary → summary.completed = true →
    ∃ page, lastPage tr = some page ∧ page.Exhausts
  flags : ∀ x ∈ tr, Flags x.1 → ∃ page, lastPage tr = some page ∧ page.Exhausts
  echoed : ∀ page, lastPage tr = some page → page.Echoes →
    (∀ summary, out = .ok summary → summary.completed = false) ∧
      ∀ row ∈ t'.posts.rows, row.stale = true → row ∈ t.posts.rows

/-- A run is complete, and flags posts, only where its walk has come to a natural
end. Cancelled, at its limit, after `maxIters` pages or an error of the source it
is partial. -/
structure NaturalEnd (limit : Option ℕ) (t t' : ChainTables)
    (tr : List SnapshotExchange) (out : Except String ChainSnapshotSummary) :
    Prop where
  bounded : tr.countP isFetch ≤ maxIters
  completed : ∀ summary, out = .ok summary → summary.completed = true →
    ∃ page, lastPage tr = some page ∧ (page.Exhausts ∨ page.Echoes)
  flags : ∀ x ∈ tr, Flags x.1 →
    ∃ page, lastPage tr = some page ∧ (page.Exhausts ∨ page.Echoes)
  early : EndsEarly limit tr → Untouched t t' out

variable {out : Except String ChainSnapshotSummary}

theorem concludes_pages {rest : List SnapshotExchange}
    (h : ∀ x ∈ rest, ConcludeCall runId x.1) :
    lastPage rest = none ∧ rest.countP isFetch = 0 := by
  constructor
  · unfold lastPage
    rw [List.getLast?_eq_none_iff, List.filterMap_eq_nil_iff]
    intro x hx
    have hcall := h x hx
    obtain ⟨e, r⟩ := x
    cases e with
    | fetch => exact hcall.elim
    | _ => rfl
  · rw [List.countP_eq_zero]
    intro x hx
    have hcall := h x hx
    obtain ⟨e, r⟩ := x
    cases e with
    | fetch => exact hcall.elim
    | _ => exact Bool.false_ne_true

/-- Behind a walk the last page is the walk's. -/
theorem lastPage_run {walkTr rest : List SnapshotExchange} {u : Except String Unit}
    (h : ∀ x ∈ rest, ConcludeCall runId x.1) :
    lastPage (⟨.insertRun runId "chain_snapshot" requestedBy, u⟩ :: (walkTr ++ rest)) =
      lastPage walkTr := by
  show lastPage (walkTr ++ rest) = _
  rw [lastPage_append, (concludes_pages h).1]
  rfl

/-- A complete walk is followed by the flagging, whatever becomes of it. -/
theorem conclude_flags {rest : List SnapshotExchange}
    (h : Runs (conclude runId (.ok (totals, true))) rest out) :
    ∃ x ∈ rest, Flags x.1 := by
  simp only [conclude, closeWalk, bind_eq, issue_bind, call_bind, runs_call] at h
  obtain ⟨r, rest', rfl, -⟩ := h
  exact ⟨_, .head _, runId, rfl⟩

theorem WalkCall.not_flags {e : SnapshotCall} (h : WalkCall runId e) : ¬ Flags e := by
  rintro ⟨runId', rfl⟩
  obtain ⟨post, hpost⟩ := h
  cases hpost

theorem upserted_run {walkTr rest : List SnapshotExchange} {u : Except String Unit}
    (h : ∀ x ∈ rest, ConcludeCall runId x.1) :
    upserted (⟨.insertRun runId "chain_snapshot" requestedBy, u⟩ :: (walkTr ++ rest)) =
      upserted walkTr := by
  show upserted (walkTr ++ rest) = _
  rw [upserted_append, upserted_conclude h, Nat.add_zero]

/-- Only a walk upserts. -/
theorem refused_run {walkTr rest : List SnapshotExchange}
    (h : ∀ x ∈ rest, ConcludeCall runId x.1) :
    (∃ x ∈ (⟨.insertRun runId "chain_snapshot" requestedBy, .ok ()⟩ ::
        (walkTr ++ rest) : List SnapshotExchange), UpsertRefused x) ↔
      ∃ x ∈ walkTr, UpsertRefused x := by
  constructor
  · rintro ⟨x, hx, hrefused⟩
    rcases List.mem_cons.mp hx with rfl | hx
    · exact hrefused.elim
    rcases List.mem_append.mp hx with hx | hx
    · exact ⟨x, hx, hrefused⟩
    · have hcall := h x hx
      obtain ⟨e, r⟩ := x
      cases e with
      | execute s =>
          have hmem : s ∈ closing runId := hcall
          simp only [closing, List.mem_cons, List.not_mem_nil, or_false] at hmem
          rcases hmem with rfl | rfl | rfl <;> exact hrefused.elim
      | _ => exact hrefused.elim
  · rintro ⟨x, hx, hrefused⟩
    exact ⟨x, .tail _ (List.mem_append_left _ hx), hrefused⟩

theorem UpsertRefused.refused {x : SnapshotExchange} (h : UpsertRefused x) :
    Refused x := by
  obtain ⟨e, r⟩ := x
  cases e with
  | execute s =>
      cases r with
      | error m => trivial
      | ok u => cases s <;> exact h.elim
  | _ => exact h.elim

/-- A complete walk has neither reached the limit nor met a refusal. -/
theorem WalkRun.undisturbed_of_complete
    (h : WalkRun runId limit left cursor totals tr (.ok (totals', true))) :
    (∀ l, limit = some l → ¬ l ≤ totals.postsUpserted + upserted tr) ∧
      ∀ x ∈ tr, ¬ UpsertRefused x := by
  obtain ⟨-, hlimit, -⟩ := h.complete
  obtain ⟨hok, -⟩ := h.executed
  refine ⟨?_, fun x hx hrefused => hok x hx hrefused.refused⟩
  rintro l rfl hreached
  rw [← h.upserted_eq] at hreached
  exact hlimit (decide_eq_true hreached)

theorem fetches_run {walkTr rest : List SnapshotExchange}
    {result : Except String (Totals × Bool)} {u : Except String Unit}
    (hwalk : WalkRun runId limit maxIters cursor totals walkTr result)
    (hcalls : ∀ x ∈ rest, ConcludeCall runId x.1) :
    (⟨.insertRun runId "chain_snapshot" requestedBy, u⟩ :: (walkTr ++ rest) :
      List SnapshotExchange).countP isFetch ≤ maxIters := by
  show (walkTr ++ rest).countP isFetch ≤ maxIters
  rw [List.countP_append, (concludes_pages hcalls).2]
  exact hwalk.fetches

/-- Behind a complete walk the posts are flagged: its last page has to be the last
there is. -/
theorem evidence_complete {page : FetchedPage} (hbounded : tr.countP isFetch ≤ maxIters)
    (hpage : lastPage tr = some page) (hends : page.Exhausts ∨ page.Echoes)
    (hflags : ∃ x ∈ tr, Flags x.1) :
    Evidence t t' tr out ↔ ¬ page.Echoes := by
  have honly : ∀ page', lastPage tr = some page' → page' = page := fun page' hpage' =>
    Option.some.inj (hpage'.symm.trans hpage)
  constructor
  · intro h hecho
    obtain ⟨x, hx, hflag⟩ := hflags
    obtain ⟨page', hpage', hexhausts⟩ := h.flags x hx hflag
    obtain rfl := honly page' hpage'
    exact hecho.not_exhausts hexhausts
  · intro hnot
    have hexhausts : page.Exhausts := hends.resolve_right hnot
    refine ⟨hbounded, fun _ _ _ => ⟨page, hpage, hexhausts⟩,
      fun _ _ _ => ⟨page, hpage, hexhausts⟩, fun page' hpage' hecho => ?_⟩
    obtain rfl := honly page' hpage'
    exact absurd hecho hnot

/-- Behind a walk that is not complete nothing is flagged or reported. -/
theorem evidence_incomplete {walkTr rest : List SnapshotExchange}
    {result : Except String (Totals × Bool)}
    (hwalk : WalkRun runId limit maxIters cursor totals walkTr result)
    (honly : ∀ x ∈ walkTr, WalkCall runId x.1)
    (hresult : ∀ totals, result ≠ .ok (totals, true))
    (hrest : Runs (conclude runId result) rest out)
    (hacts : Trace SnapshotCall.Acts t
      (⟨.insertRun runId "chain_snapshot" requestedBy, .ok ()⟩ ::
        (walkTr ++ rest)) t') :
    Evidence t t' (⟨.insertRun runId "chain_snapshot" requestedBy, .ok ()⟩ ::
      (walkTr ++ rest)) out := by
  obtain ⟨hnone, -⟩ := conclude_incomplete hresult hrest
  have huntouched := incomplete_untouched honly hresult hrest hacts
  refine ⟨fetches_run hwalk ((conclude_only result).runs hrest), ?_, ?_,
    fun _ _ _ => ⟨huntouched.incomplete, huntouched.stale⟩⟩
  · intro summary hout hcompleted
    rw [huntouched.incomplete summary hout] at hcompleted
    cases hcompleted
  · intro x hx hflags
    rcases List.mem_cons.mp hx with rfl | hx
    · obtain ⟨_, hcall⟩ := hflags
      cases hcall
    rcases List.mem_append.mp hx with hx | hx
    · exact absurd hflags (honly x hx).not_flags
    · obtain ⟨_, hcall⟩ := hflags
      exact absurd hcall (hnone x hx _)

/-- **A run has evidence for what it reports**, unless its walk comes to a full
page that names the post it was asked from. -/
theorem evidence_iff (runId : Uuid) (requestedBy : String) (limit : Option ℕ)
    (tr : List SnapshotExchange) (out : Except String ChainSnapshotSummary)
    (hrun : Runs (runChainSnapshot runId requestedBy limit) tr out)
    (t t' : ChainTables) (hacts : Trace SnapshotCall.Acts t tr t') :
    Evidence t t' tr out ↔
      ∀ page, lastPage tr = some page → page.Echoes →
        LimitReached limit tr ∨ ∃ x ∈ tr, UpsertRefused x := by
  cases runChainSnapshot_runs hrun with
  | notInserted e =>
      refine iff_of_true ⟨Nat.zero_le _, nofun, ?_, nofun⟩ nofun
      intro x hx hflags
      obtain rfl := List.mem_singleton.mp hx
      obtain ⟨_, hcall⟩ := hflags
      cases hcall
  | walked walkTr rest result _ hwalk honly hrest =>
      have hcalls := (conclude_only result).runs hrest
      have hlast : lastPage (⟨.insertRun runId "chain_snapshot" requestedBy, .ok ()⟩ ::
          (walkTr ++ rest)) = lastPage walkTr := lastPage_run hcalls
      rw [refused_run hcalls, LimitReached, upserted_run hcalls]
      by_cases hcomplete : ∃ totals, result = .ok (totals, true)
      · obtain ⟨totals, rfl⟩ := hcomplete
        obtain ⟨page, hpage, hends⟩ := hwalk.last_of_complete
        obtain ⟨hlimit, hok⟩ := hwalk.undisturbed_of_complete
        obtain ⟨x, hx, hflags⟩ := conclude_flags hrest
        rw [evidence_complete (fetches_run hwalk hcalls) (hlast.trans hpage) hends
          ⟨x, .tail _ (List.mem_append_right _ hx), hflags⟩, hlast, hpage]
        constructor
        · intro hnot page' hpage' hecho
          obtain rfl := Option.some.inj hpage'
          exact absurd hecho hnot
        · intro h hecho
          rcases h page rfl hecho with ⟨l, hl, hreached⟩ | ⟨x, hx, hrefused⟩
          · exact hlimit l hl (by rwa [Nat.zero_add])
          · exact hok x hx hrefused
      · have hresult : ∀ totals, result ≠ .ok (totals, true) :=
          fun totals h => hcomplete ⟨totals, h⟩
        refine iff_of_true (evidence_incomplete hwalk honly hresult hrest hacts) ?_
        intro page hpage hecho
        rw [hlast] at hpage
        have hwhy := hwalk.echo_of_incomplete hresult hpage hecho
        simpa only [Nat.zero_add] using hwhy

theorem Evidence.naturalEnd (h : Evidence t t' tr out)
    (hearly : EndsEarly limit tr → Untouched t t' out) :
    NaturalEnd limit t t' tr out where
  bounded := h.bounded
  completed summary hout hcompleted := by
    obtain ⟨page, hpage, hexhausts⟩ := h.completed summary hout hcompleted
    exact ⟨page, hpage, .inl hexhausts⟩
  flags x hx hflags := by
    obtain ⟨page, hpage, hexhausts⟩ := h.flags x hx hflags
    exact ⟨page, hpage, .inl hexhausts⟩
  early := hearly

/-- **Complete runs have come to a natural end**, and to the last post unless that
end is a full page that does not advance. -/
theorem natural_end (runId : Uuid) (requestedBy : String) (limit : Option ℕ)
    (tr : List SnapshotExchange) (out : Except String ChainSnapshotSummary)
    (hrun : Runs (runChainSnapshot runId requestedBy limit) tr out)
    (t t' : ChainTables) (hacts : Trace SnapshotCall.Acts t tr t') :
    NaturalEnd limit t t' tr out ∧
      (Evidence t t' tr out ↔
        ∀ page, lastPage tr = some page → page.Echoes →
          LimitReached limit tr ∨ ∃ x ∈ tr, UpsertRefused x) := by
  have hiff := evidence_iff runId requestedBy limit tr out hrun t t' hacts
  have hearly : EndsEarly limit tr → Untouched t t' out :=
    EndsEarly.untouched hrun hacts
  refine ⟨?_, hiff⟩
  by_cases hevidence : Evidence t t' tr out
  · exact hevidence.naturalEnd hearly
  · -- the last page does not advance
    have hnot := mt hiff.mpr hevidence
    push Not at hnot
    obtain ⟨page, hpage, hecho, -⟩ := hnot
    refine ⟨?_, fun _ _ _ => ⟨page, hpage, .inr hecho⟩,
      fun _ _ _ => ⟨page, hpage, .inr hecho⟩, hearly⟩
    cases runChainSnapshot_runs hrun with
    | notInserted e => exact Nat.zero_le _
    | walked walkTr rest result _ hwalk honly hrest =>
        exact fetches_run hwalk ((conclude_only result).runs hrest)

/-! ## A source that echoes the cursor -/

/-- A full page of posts without videos, the last of which is `draft`. -/
def draftPage : FetchPostsResult where
  posts := List.replicate pageSize ⟨"draft", .draft, ⟨0, 0⟩, "", "aaaaa-aa"⟩
  lastPostIdFetched := some "draft"

def draftTotals (pages : ℕ) : Totals := ⟨pages, 0, pages * pageSize⟩

def draftExchanges (cursor : Option String) (pages : ℕ) : List SnapshotExchange := [
  ⟨.isCancelled, false⟩,
  ⟨.fetch pageSize cursor, .ok draftPage⟩,
  ⟨.recordProgress 7 (some "draft") (draftTotals pages), .ok ()⟩]

/-- The second page is the first again, and the walk takes it for the last. -/
def echoTrace : List SnapshotExchange :=
  ⟨.insertRun 7 "chain_snapshot" "admin", .ok ()⟩ ::
    (draftExchanges none 1 ++ draftExchanges (some "draft") 2 ++ [
      ⟨.execute (.markStalePosts 7), .ok ()⟩,
      ⟨.execute .deleteUsers, .ok ()⟩,
      ⟨.execute .insertUsers, .ok ()⟩,
      ⟨.finishRun 7 "completed" (draftTotals 2) true, .ok ()⟩])

theorem echo_runs : Runs (runChainSnapshot 7 "admin" none) echoTrace
    (.ok ((draftTotals 2).summary 7 true)) :=
  .call (.call (.call (.call (.call (.call (.call (.call (.call (.call (.call (.ret _)))))))))))

/-- A post of an earlier run. -/
def liveTables : ChainTables :=
  (ChainStatement.upsertChainPost
    ⟨"post-1", "vid-1", "aaaaa-aa", systemTimeToUtc ⟨0, 0⟩, "ReadyToView"⟩ 1).apply {}

theorem completed_without_evidence :
    Runs (runChainSnapshot 7 "admin" none) echoTrace
        (.ok ((draftTotals 2).summary 7 true)) ∧
      (∃ page, lastPage echoTrace = some page ∧ page.Echoes) ∧
      ∃ t', Trace SnapshotCall.Acts liveTables echoTrace t' ∧
        liveTables.live.length = 1 ∧ t'.live = [] ∧
        ¬ Evidence liveTables t' echoTrace (.ok ((draftTotals 2).summary 7 true)) := by
  have hlast : lastPage echoTrace = some ⟨some "draft", draftPage⟩ := rfl
  have hecho : FetchedPage.Echoes ⟨some "draft", draftPage⟩ :=
    ⟨by simp [draftPage], by decide, rfl⟩
  have hok : ∀ x ∈ echoTrace, ¬ Refused x := by
    simp [echoTrace, draftExchanges, Refused]
  obtain ⟨t', hacts⟩ := exists_acts (t := liveTables) hok
  refine ⟨echo_runs, ⟨_, hlast, hecho⟩, t', hacts, by decide, ?_, ?_⟩
  · rw [acts_executeAll hok hacts]
    decide
  · intro h
    have hfalse := (h.echoed _ hlast hecho).1 _ rfl
    cases hfalse

/-- The second page is short. -/
def endTrace : List SnapshotExchange :=
  ⟨.insertRun 7 "chain_snapshot" "admin", .ok ()⟩ ::
    (draftExchanges none 1 ++ [
      ⟨.isCancelled, false⟩,
      ⟨.fetch pageSize (some "draft"), .ok ⟨[], none⟩⟩,
      ⟨.recordProgress 7 none ⟨2, 0, pageSize⟩, .ok ()⟩,
      ⟨.execute (.markStalePosts 7), .ok ()⟩,
      ⟨.execute .deleteUsers, .ok ()⟩,
      ⟨.execute .insertUsers, .ok ()⟩,
      ⟨.finishRun 7 "completed" ⟨2, 0, pageSize⟩ true, .ok ()⟩])

theorem natural_end_second : ∃ t', Trace SnapshotCall.Acts liveTables endTrace t' ∧
    t'.live = [] ∧
    NaturalEnd none liveTables t' endTrace
      (.ok (Totals.summary ⟨2, 0, pageSize⟩ 7 true)) ∧
    Evidence liveTables t' endTrace
      (.ok (Totals.summary ⟨2, 0, pageSize⟩ 7 true)) := by
  have hruns : Runs (runChainSnapshot 7 "admin" none) endTrace
      (.ok (Totals.summary ⟨2, 0, pageSize⟩ 7 true)) :=
    .call (.call (.call (.call (.call (.call (.call (.call (.call (.call (.call
      (.ret _)))))))))))
  have hok : ∀ x ∈ endTrace, ¬ Refused x := by
    simp [endTrace, draftExchanges, Refused]
  obtain ⟨t', hacts⟩ := exists_acts (t := liveTables) hok
  have hend := natural_end 7 "admin" none endTrace _ hruns liveTables t' hacts
  refine ⟨t', hacts, ?_, hend.1, hend.2.mpr ?_⟩
  · rw [acts_executeAll hok hacts]
    decide
  · intro page hpage hecho
    have hlast : lastPage endTrace = some ⟨some "draft", ⟨[], none⟩⟩ := rfl
    obtain rfl := Option.some.inj (hlast.symm.trans hpage)
    exact absurd rfl hecho.2.1

end VideoStorage.Chain
