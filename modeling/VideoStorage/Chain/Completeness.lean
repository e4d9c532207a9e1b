import VideoStorage.Chain.EarlyEnd

/-!
# A snapshot stages the chain

A source that pages through a list of posts, and the snapshot that walks it: with
nothing in its way it ends complete, with the posts of the list live and the
users their rollup. A run that ends early flags nothing and leaves the users
(`snapshot_staging`). The walk takes an empty id for the end of the list, so a
page may end with one only there (`Resumable`, `unnamed_post_ends_walk`).
-/

namespace VideoStorage.Chain

open Foundation Prog

variable {chain : List Post} {runId : Uuid} {limit : Option ℕ}
  {tr : List SnapshotExchange} {t t' : ChainTables}

/-! ## Faithful sources -/

/-- The posts after the post of the cursor. -/
def afterCursor (chain : List Post) : Option String → List Post
  | none => chain
  | some id => (chain.dropWhile (·.id ≠ id)).tail

/-- The next posts, and the id of the last of them, or none at the end. -/
structure FaithfulPage (chain : List Post) (limit : ℕ) (cursor : Option String)
    (res : FetchPostsResult) : Prop where
  posts : res.posts = (afterCursor chain cursor).take limit
  last : res.lastPostIdFetched = res.posts.getLast?.map (·.id) ∨
    (res.posts = afterCursor chain cursor ∧ res.lastPostIdFetched = none)

/-- What a source answers a cursor of no post is left open. -/
structure FaithfulSource (chain : List Post) where
  fetch : ℕ → Option String → FetchPostsResult
  faithful : ∀ limit cursor, (cursor = none ∨ ∃ p ∈ chain, cursor = some p.id) →
    FaithfulPage chain limit cursor (fetch limit cursor)

/-- The pages up to one that is short or says that it is the last. -/
inductive PagesNeeded (source : FaithfulSource chain) : Option String → ℕ → Prop
  | last (cursor : Option String)
      (h : (source.fetch pageSize cursor).posts.length < pageSize ∨
        (source.fetch pageSize cursor).lastPostIdFetched = none) :
      PagesNeeded source cursor 1
  | more (cursor : Option String) (id : String) (n : ℕ)
      (hfull : (source.fetch pageSize cursor).posts.length = pageSize)
      (hlast : (source.fetch pageSize cursor).lastPostIdFetched = some id)
      (h : PagesNeeded source (some id) n) : PagesNeeded source cursor (n + 1)

/-- Of the posts at the end of a full page only the very last may have an empty
id. -/
def Resumable (chain : List Post) : Prop :=
  ∀ before p after, chain = before ++ p :: after →
    pageSize ∣ before.length + 1 → after ≠ [] → p.id ≠ ""

theorem afterCursor_append {before after : List Post} {p : Post}
    (hids : ((before ++ p :: after).map (·.id)).Nodup) :
    afterCursor (before ++ p :: after) (some p.id) = after := by
  have hbefore : ∀ q ∈ before, (decide (q.id ≠ p.id)) = true := by
    intro q hq
    rw [List.map_append, List.map_cons, List.nodup_middle,
      List.nodup_cons] at hids
    refine decide_eq_true fun heq => hids.1 ?_
    exact heq ▸ List.mem_append_left _ (List.mem_map_of_mem hq)
  show ((before ++ p :: after).dropWhile (fun q => q.id ≠ p.id)).tail = after
  rw [List.dropWhile_append_of_pos hbefore, List.dropWhile_cons_of_neg (by simp)]
  rfl

/-- Where a walk is: so many full pages are behind it. -/
structure AtPage (chain : List Post) (cursor : Option String)
    (before : List Post) : Prop where
  split : chain = before ++ afterCursor chain cursor
  pages : pageSize ∣ before.length
  cursor : cursor = none ∨ ∃ p ∈ before, cursor = some p.id

theorem atPage_start (chain : List Post) : AtPage chain none [] where
  split := rfl
  pages := Nat.dvd_zero _
  cursor := .inl rfl

section AtPage

variable {source : FaithfulSource chain} {cursor : Option String}
  {before : List Post}

theorem AtPage.faithful (source : FaithfulSource chain)
    (h : AtPage chain cursor before) :
    FaithfulPage chain pageSize cursor (source.fetch pageSize cursor) := by
  refine source.faithful pageSize cursor ?_
  rcases h.cursor with hnone | ⟨p, hp, hcursor⟩
  · exact .inl hnone
  · refine .inr ⟨p, ?_, hcursor⟩
    rw [h.split]
    exact List.mem_append_left _ hp

/-- A page that is short or the last has all that is left, and stops the walk. -/
theorem AtPage.last (h : AtPage chain cursor before)
    (hlast : (source.fetch pageSize cursor).posts.length < pageSize ∨
      (source.fetch pageSize cursor).lastPostIdFetched = none) :
    (source.fetch pageSize cursor).posts = afterCursor chain cursor ∧
      (walkStep cursor (source.fetch pageSize cursor) pageSize).1 = true := by
  have hpage := h.faithful source
  rcases hlast with hshort | hnone
  · refine ⟨?_, by simp [walkStep, hshort]⟩
    have hlen := congrArg List.length hpage.posts
    rw [List.length_take] at hlen
    rw [hpage.posts, List.take_of_length_le (by omega)]
  · refine ⟨?_, by simp [walkStep, hnone]⟩
    rcases hpage.last with hid | ⟨hall, -⟩
    · rw [hnone, eq_comm, Option.map_eq_none_iff, List.getLast?_eq_none_iff]
        at hid
      have hnil := hpage.posts
      rw [hid, eq_comm, List.take_eq_nil_iff] at hnil
      rw [hid, hnil.resolve_left (by decide)]
    · exact hall

/-- A post behind the page before the cursor is not the one the cursor names. -/
theorem AtPage.cursor_ne (hids : (chain.map (·.id)).Nodup)
    (h : AtPage chain cursor before) {page after : List Post} {p : Post}
    (hchain : chain = (before ++ page) ++ p :: after) : some p.id ≠ cursor := by
  rcases h.cursor with rfl | ⟨q, hq, rfl⟩
  · exact Option.some_ne_none _
  · intro heq
    rw [hchain, List.map_append, List.map_cons, List.nodup_middle,
      List.nodup_cons] at hids
    refine hids.1 (List.mem_append_left _ ?_)
    rw [Option.some.inj heq]
    exact List.mem_map_of_mem (List.mem_append_left _ hq)

/-- A full page that names its last post: the walk goes on behind that post, or
the page was the last all the same. -/
theorem AtPage.more (hids : (chain.map (·.id)).Nodup) (hres : Resumable chain)
    (h : AtPage chain cursor before) {id : String}
    (hfull : (source.fetch pageSize cursor).posts.length = pageSize)
    (hlast : (source.fetch pageSize cursor).lastPostIdFetched = some id) :
    ((source.fetch pageSize cursor).posts = afterCursor chain cursor ∧
      (walkStep cursor (source.fetch pageSize cursor) pageSize).1 = true) ∨
    (walkStep cursor (source.fetch pageSize cursor) pageSize = (false, some id) ∧
      AtPage chain (some id)
        (before ++ (source.fetch pageSize cursor).posts) ∧
      afterCursor chain cursor = (source.fetch pageSize cursor).posts ++
        afterCursor chain (some id)) := by
  have hpage := h.faithful source
  generalize source.fetch pageSize cursor = res at *
  -- the page ends with the post that it names
  have hend : ∃ p, res.posts.getLast? = some p ∧ p.id = id := by
    rcases hpage.last with hid | ⟨-, hnone⟩
    · rw [hlast] at hid
      exact Option.map_eq_some_iff.mp hid.symm
    · rw [hlast] at hnone
      cases hnone
  obtain ⟨p, hp, rfl⟩ := hend
  obtain ⟨page, hposts⟩ := List.getLast?_eq_some_iff.mp hp
  obtain ⟨after, hafter⟩ : ∃ after, afterCursor chain cursor
      = res.posts ++ after := by
    refine ⟨(afterCursor chain cursor).drop pageSize, ?_⟩
    rw [hpage.posts, List.take_append_drop]
  have hchain : chain = (before ++ page) ++ p :: after := by
    rw [List.append_assoc]
    conv_lhs => rw [h.split, hafter, hposts]
    simp
  have hrest : afterCursor chain (some p.id) = after := by
    conv_lhs => rw [hchain]
    exact afterCursor_append (hchain ▸ hids)
  by_cases hempty : p.id = ""
  · -- an empty id: by `Resumable` nothing is behind the page
    have hnil : after = [] := by
      by_contra hne
      refine hres (before ++ page) p after hchain ?_ hne hempty
      have hlen : page.length + 1 = pageSize := by
        rw [← hfull, hposts, List.length_append]
        rfl
      rw [List.length_append, Nat.add_assoc, hlen]
      exact Nat.dvd_add h.pages (Nat.dvd_refl _)
    refine .inl ⟨by rw [hafter, hnil, List.append_nil], ?_⟩
    simp [walkStep, hlast, hempty]
  · refine .inr ⟨?_, ⟨?_, ?_, ?_⟩, by rw [hrest, hafter]⟩
    -- the walk goes on: the page is full, and its cursor another than before
    · have hne := h.cursor_ne hids hchain
      have hnil : res.posts ≠ [] := by
        rw [hposts]
        simp
      have hnamed : (some p.id).filter (· ≠ "") = some p.id :=
        Option.filter_some_pos (decide_eq_true hempty)
      simp only [walkStep, hlast, hnamed]
      simp [hne, hnil, hfull]
    · rw [hrest, hposts]
      conv_lhs => rw [hchain]
      simp
    · rw [List.length_append, hfull]
      exact Nat.dvd_add h.pages (Nat.dvd_refl _)
    · refine .inr ⟨p, List.mem_append_right _ ?_, rfl⟩
      rw [hposts]
      exact List.mem_append_right _ List.mem_cons_self

end AtPage

/-! ## Undisturbed runs -/

/-- The source answers, nothing fails and nobody cancels; the progress is
recorded or not. -/
def Undisturbed (source : FaithfulSource chain) : SnapshotExchange → Prop
  | ⟨.isCancelled, b⟩ => b = false
  | ⟨.fetch limit cursor, r⟩ => r = .ok (source.fetch limit cursor)
  | ⟨.insertRun _ _ _, r⟩ | ⟨.execute _, r⟩ | ⟨.finishRun _ _ _ _, r⟩ =>
      r = .ok ()
  | ⟨.recordProgress _ _ _, _⟩ | ⟨.failRun _ _, _⟩ => True

section Undisturbed

variable {source : FaithfulSource chain} {left : ℕ} {cursor : Option String}
  {totals : Totals} {result : Except String (Totals × Bool)}

theorem Undisturbed.not_refused {x : SnapshotExchange}
    (h : Undisturbed source x) : ¬ Refused x := by
  obtain ⟨e, r⟩ := x
  cases e with
  | execute s =>
      obtain rfl : r = .ok () := h
      exact id
  | _ => exact id

/-- The next page of an undisturbed walk stops it, or the walk goes on. -/
theorem WalkRun.page
    (h : WalkRun runId none (left + 1) cursor totals tr result)
    (hund : ∀ x ∈ tr, Undisturbed source x) : ∃ totals' : Totals,
    ((walkStep cursor (source.fetch pageSize cursor) pageSize).1 = true ∧
      tr.flatMap fetched = (source.fetch pageSize cursor).posts ∧
      result = .ok (totals', true)) ∨
    ((walkStep cursor (source.fetch pageSize cursor) pageSize).1 = false ∧
      ∃ rest, (∀ x ∈ rest, x ∈ tr) ∧ tr.flatMap fetched
          = (source.fetch pageSize cursor).posts ++ rest.flatMap fetched ∧
        WalkRun runId none left
          (walkStep cursor (source.fetch pageSize cursor) pageSize).2 totals' rest
          result) := by
  cases h with
  | cancelled => cases hund _ (.head _)
  | noPage left cursor totals e => cases hund _ (.tail _ (.head _))
  | notStaged left cursor totals res upserts e h =>
      rcases upsertPage_runs h with ⟨_, -, x, hx, hrefused⟩ | ⟨_, ⟨⟩, -⟩
      have hx' : x ∈ pageOf cursor res upserts := .tail _ (.tail _ hx)
      exact absurd hrefused (hund x hx').not_refused
  | limited left cursor totals totals' res upserts r h hlimit =>
      cases hlimit
  | stopped left cursor totals totals' res upserts r h hlimit hstop =>
      obtain rfl : res = source.fetch pageSize cursor :=
        Except.ok.inj (hund _ (.tail _ (.head _)))
      obtain ⟨-, -, hfetched, -⟩ :=
        stagedPage_executed cursor r h
      exact ⟨totals', .inl ⟨hstop, hfetched, rfl⟩⟩
  | next left cursor totals totals' res upserts rest r _ h hlimit hstop hrest =>
      obtain rfl : res = source.fetch pageSize cursor :=
        Except.ok.inj (hund _ (.tail _ (.head _)))
      obtain ⟨-, -, hfetched, -⟩ :=
        stagedPage_executed cursor r h
      refine ⟨totals', .inr ⟨hstop, rest, ?_, ?_, hrest⟩⟩
      · exact fun x hx => List.mem_append_right _ hx
      · rw [List.flatMap_append, hfetched]

/-- **The walk sees the whole chain**, in as many pages as the source needs. -/
theorem walk_sees_chain (hids : (chain.map (·.id)).Nodup)
    (hres : Resumable chain) {n : ℕ} (hpages : PagesNeeded source cursor n)
    {before : List Post} (hat : AtPage chain cursor before) (hn : n ≤ left)
    (h : WalkRun runId none left cursor totals tr result)
    (hund : ∀ x ∈ tr, Undisturbed source x) :
    (∃ totals', result = .ok (totals', true)) ∧
      tr.flatMap fetched = afterCursor chain cursor := by
  induction hpages generalizing before left totals tr with
  | last cursor hlast =>
      obtain ⟨left, rfl⟩ : ∃ m, left = m + 1 := ⟨left - 1, by omega⟩
      obtain ⟨hall, hstop⟩ := hat.last hlast
      obtain ⟨totals', ⟨-, hfetched, rfl⟩ | ⟨hgo, -⟩⟩ := h.page hund
      · exact ⟨⟨totals', rfl⟩, hfetched.trans hall⟩
      · rw [hstop] at hgo
        cases hgo
  | more cursor id n hfull hlast hpages ih =>
      obtain ⟨left, rfl⟩ : ∃ m, left = m + 1 := ⟨left - 1, by omega⟩
      obtain ⟨totals', hpage⟩ := h.page hund
      rcases hat.more hids hres hfull hlast with ⟨hall, hstop⟩ |
        ⟨hstep, hat', hafter⟩
      · obtain ⟨-, hfetched, rfl⟩ | ⟨hgo, -⟩ := hpage
        · exact ⟨⟨totals', rfl⟩, hfetched.trans hall⟩
        · rw [hstop] at hgo
          cases hgo
      · obtain ⟨hstop, -⟩ | ⟨-, rest, hsub, hfetched, hrest⟩ := hpage
        · rw [hstep] at hstop
          cases hstop
        · rw [hstep] at hrest
          obtain ⟨hresult, hseen⟩ := ih hat' (by omega) hrest
            (fun x hx => hund x (hsub x hx))
          exact ⟨hresult, by rw [hfetched, hseen, hafter]⟩

theorem conclude_undisturbed {out : Except String ChainSnapshotSummary}
    (h : Runs (conclude runId (.ok (totals, true))) tr out)
    (hund : ∀ x ∈ tr, Undisturbed source x) :
    out = .ok (totals.summary runId true) := by
  simp only [conclude, bind_eq, runs_bind] at h
  obtain ⟨r, closed, rest, rfl, hclosed, h⟩ := h
  rcases closeWalk_runs hclosed with ⟨-, x, hx, hrefused⟩ | ⟨rfl, rfl⟩
  · have hx' := hund x (List.mem_append_left _ hx)
    exact absurd hrefused hx'.not_refused
  · simp only [finish, bind_eq, issue_bind, pure_eq, runs_call] at h
    obtain ⟨r, rest, rfl, h⟩ := h
    obtain rfl : r = .ok () := hund _ (List.mem_append_right _ (.head _))
    exact (runs_ret.mp h).2

/-- An undisturbed run is complete and has seen the whole chain. -/
theorem undisturbed_completes (hids : (chain.map (·.id)).Nodup)
    (hres : Resumable chain) {n : ℕ} (hpages : PagesNeeded source none n)
    (hn : n ≤ maxIters) {requestedBy : String}
    {out : Except String ChainSnapshotSummary}
    (h : Runs (runChainSnapshot runId requestedBy none) tr out)
    (hund : ∀ x ∈ tr, Undisturbed source x) :
    (∃ summary, out = .ok summary ∧ summary.completed = true) ∧
      tr.flatMap fetched = chain := by
  cases runChainSnapshot_runs h with
  | notInserted e => cases hund _ (.head _)
  | walked walkTr rest result out hwalk honly hrest =>
      have hwalkUnd : ∀ x ∈ walkTr, Undisturbed source x := fun x hx =>
        hund x (.tail _ (List.mem_append_left _ hx))
      have hrestUnd : ∀ x ∈ rest, Undisturbed source x := fun x hx =>
        hund x (.tail _ (List.mem_append_right _ hx))
      obtain ⟨⟨totals, rfl⟩, hseen⟩ := walk_sees_chain hids hres hpages
        (atPage_start chain) hn hwalk hwalkUnd
      obtain rfl := conclude_undisturbed hrest hrestUnd
      obtain ⟨-, -, hfetched, -⟩ := conclude_completed hrest
      refine ⟨⟨_, rfl, rfl⟩, ?_⟩
      show (walkTr ++ rest).flatMap fetched = chain
      rw [List.flatMap_append, hseen, hfetched, List.append_nil]
      rfl

end Undisturbed

/-! ## The tables behind a complete run -/

/-- The row of a post with its current fields. -/
def Post.current (p : Post) (runId : Uuid) : YralPost where
  postId := p.id
  videoUid := p.videoUid
  creatorPrincipal := p.creatorPrincipal
  createdAt := p.createdAt.timestamptz
  status := p.status.debug
  snapshotRunId := some runId
  stale := false

theorem row_chainPost {p : Post} (h : p.createdAt.Representable) :
    (chainPost p).row runId = p.current runId := by
  show YralPost.mk _ _ _ (systemTimeToUtc p.createdAt).timestamptz _ _ _ = _
  rw [systemTimeToUtc_timestamptz h]
  rfl

/-- What a complete run executes. -/
def snapshotStatements (chain : List Post) (runId : Uuid) : List ChainStatement :=
  (staged chain).map (upsertOf runId) ++ closing runId

theorem mem_snapshotStatements {post : ChainPost} {r : Uuid} :
    .upsertChainPost post r ∈ snapshotStatements chain runId ↔
      ∃ p ∈ staged chain, post = chainPost p ∧ r = runId := by
  constructor
  · intro h
    rcases List.mem_append.mp h with h | h
    · obtain ⟨p, hp, heq⟩ := List.mem_map.mp h
      obtain ⟨rfl, rfl⟩ := ChainStatement.upsertChainPost.inj heq
      exact ⟨p, hp, rfl, rfl⟩
    · simp [closing] at h
  · rintro ⟨p, hp, rfl, rfl⟩
    exact List.mem_append_left _ (List.mem_map.mpr ⟨p, hp, rfl⟩)

theorem executeAll_snapshot (chain : List Post) (runId : Uuid)
    (t : ChainTables) : executeAll (snapshotStatements chain runId) t
      = executeAll [.deleteUsers, .insertUsers]
          (ChainStatement.apply (.markStalePosts runId)
            (executeAll ((staged chain).map (upsertOf runId)) t)) :=
  executeAll_append _ _ _

/-- Nothing that the run executes disturbs a row it has written. -/
theorem snapshotStatements_spare (hids : (chain.map (·.id)).Nodup) {p : Post}
    (hp : p ∈ staged chain) :
    ∀ s ∈ snapshotStatements chain runId, s.spares (chainPost p) runId := by
  intro s hs
  rcases List.mem_append.mp hs with hs | hs
  · obtain ⟨q, hq, rfl⟩ := List.mem_map.mp hs
    intro hid
    obtain rfl : q = p := List.inj_on_of_nodup_map hids (mem_staged.mp hq).1
      (mem_staged.mp hp).1 hid
    exact ⟨rfl, rfl⟩
  · simp only [closing, List.mem_cons, List.not_mem_nil, or_false] at hs
    rcases hs with rfl | rfl | rfl
    · rfl
    · trivial
    · trivial

/-- The live rows are the staged posts. -/
theorem mem_live_snapshot (hids : (chain.map (·.id)).Nodup)
    (hfresh : t.Fresh runId) {row : YralPost} :
    row ∈ (executeAll (snapshotStatements chain runId) t).live ↔
      ∃ p ∈ staged chain, row = (chainPost p).row runId := by
  constructor
  · intro hrow
    have hmark := hrow
    rw [executeAll_snapshot] at hmark
    obtain ⟨post, hmem, rfl⟩ := live_of_run hfresh hrow (live_apply_mark hmark)
    obtain ⟨p, hp, rfl, -⟩ := mem_snapshotStatements.mp hmem
    exact ⟨p, hp, rfl⟩
  · rintro ⟨p, hp, rfl⟩
    have hmem : .upsertChainPost (chainPost p) runId
        ∈ snapshotStatements chain runId :=
      mem_snapshotStatements.mpr ⟨p, hp, rfl, rfl⟩
    have hget := written_stays (t := t) hmem (snapshotStatements_spare hids hp)
    exact ChainTables.mem_live.mpr ⟨(Rows.get_eq_some.mp hget).1, rfl⟩

/-- Two lists of rows with the same rows and no key twice. -/
theorem live_perm (hids : (chain.map (·.id)).Nodup) {r : Uuid}
    (hlive : ∀ row, row ∈ t.live ↔ ∃ p ∈ staged chain,
      row = (chainPost p).row r) :
    t.live.Perm ((staged chain).map fun p => (chainPost p).row r) := by
  refine (List.perm_ext_iff_of_nodup (live_nodup t) ?_).mpr fun row => ?_
  · refine List.Nodup.of_map YralPost.postId ?_
    rw [List.map_map]
    exact hids.sublist (List.filter_sublist.map _)
  · rw [hlive, List.mem_map]
    simp only [eq_comm]

/-- **A complete snapshot**: the live rows are the listed posts with a video,
and the users are their rollup. -/
structure CompleteSnapshot (chain : List Post) (runId : Uuid)
    (out : Except String ChainSnapshotSummary) (t : ChainTables) : Prop where
  completed : ∃ summary, out = .ok summary ∧ summary.completed = true
  posts : ∀ row, row ∈ t.live ↔
    ∃ p ∈ chain, p.videoUid ≠ "" ∧ row = p.current runId
  users : ∀ u, u ∈ t.users.rows ↔
    u ∈ rollups ((staged chain).map (·.current runId))

theorem completeSnapshot (hids : (chain.map (·.id)).Nodup)
    (htimes : ∀ p ∈ chain, p.createdAt.Representable)
    (hfresh : t.Fresh runId) {out : Except String ChainSnapshotSummary}
    (hout : ∃ summary, out = .ok summary ∧ summary.completed = true)
    (ht' : t' = executeAll (snapshotStatements chain runId) t) :
    CompleteSnapshot chain runId out t' := by
  subst ht'
  have hlive : ∀ row,
      row ∈ (executeAll (snapshotStatements chain runId) t).live ↔
        ∃ p ∈ staged chain, row = (chainPost p).row runId :=
    fun _ => mem_live_snapshot hids hfresh
  have hcurrent : (staged chain).map (fun p => (chainPost p).row runId)
      = (staged chain).map (·.current runId) :=
    List.map_congr_left fun p hp => row_chainPost (htimes p (mem_staged.mp hp).1)
  refine ⟨hout, fun row => ?_, fun u => ?_⟩
  · rw [hlive]
    constructor
    · rintro ⟨p, hp, rfl⟩
      obtain ⟨hmem, huid⟩ := mem_staged.mp hp
      exact ⟨p, hmem, huid, row_chainPost (htimes p hmem)⟩
    · rintro ⟨p, hmem, huid, rfl⟩
      exact ⟨p, mem_staged.mpr ⟨hmem, huid⟩, (row_chainPost (htimes p hmem)).symm⟩
  · rw [← hcurrent, ← mem_rollups_perm (live_perm hids hlive),
      executeAll_snapshot, mem_users_iff (by simp [ChainStatement.OnUsers])
        (by simp) (by simp)]
    rfl

/-- **Snapshot completeness.** With nothing in its way a run ends complete and has
staged the chain; a run that ends early flags nothing and leaves the users. -/
theorem snapshot_staging {requestedBy : String}
    {out : Except String ChainSnapshotSummary}
    (hrun : Runs (runChainSnapshot runId requestedBy limit) tr out)
    (hacts : Trace SnapshotCall.Acts t tr t') :
    (∀ (chain : List Post) (source : FaithfulSource chain) (n : ℕ),
      limit = none → (chain.map (·.id)).Nodup →
      (∀ p ∈ chain, p.createdAt.Representable) → Resumable chain →
      t.Fresh runId → PagesNeeded source none n → n ≤ maxIters →
      (∀ x ∈ tr, Undisturbed source x) → CompleteSnapshot chain runId out t') ∧
    (EndsEarly limit tr → Untouched t t' out) := by
  refine ⟨?_, fun hearly => hearly.untouched hrun hacts⟩
  rintro chain source n rfl hids htimes hres hfresh hpages hn hund
  obtain ⟨⟨summary, rfl, hcompleted⟩, hseen⟩ :=
    undisturbed_completes hids hres hpages hn hrun hund
  refine completeSnapshot hids htimes hfresh ⟨summary, rfl, hcompleted⟩ ?_
  obtain ⟨hok, hexec⟩ := completed_executed hrun hcompleted
  rw [acts_executeAll hok hacts, hexec, hseen]
  rfl

/-! ## A run there is -/

/-- The source that always names the last post. -/
def pageSource (chain : List Post) : FaithfulSource chain where
  fetch limit cursor :=
    let posts := (afterCursor chain cursor).take limit
    ⟨posts, posts.getLast?.map (·.id)⟩
  faithful _ _ _ := ⟨rfl, .inl rfl⟩

def undisturbedReply (source : FaithfulSource chain) :
    (e : SnapshotCall) → e.Reply
  | .isCancelled => false
  | .fetch limit cursor => .ok (source.fetch limit cursor)
  | .insertRun _ _ _ | .execute _ | .recordProgress _ _ _
  | .finishRun _ _ _ _ | .failRun _ _ => .ok ()

theorem exists_undisturbed (source : FaithfulSource chain) (runId : Uuid)
    (requestedBy : String) (t : ChainTables) : ∃ tr out t',
    Runs (runChainSnapshot runId requestedBy none) tr out ∧
      (∀ x ∈ tr, Undisturbed source x) ∧ Trace SnapshotCall.Acts t tr t' := by
  obtain ⟨tr, out, hrun, hreply⟩ := exists_runs (undisturbedReply source)
    (runChainSnapshot runId requestedBy none)
  have hund : ∀ x ∈ tr, Undisturbed source x := by
    rintro ⟨e, r⟩ hx
    obtain rfl : r = undisturbedReply source e := hreply _ hx
    cases e <;> first | rfl | trivial
  obtain ⟨t', hacts⟩ := exists_acts (t := t) fun x hx => (hund x hx).not_refused
  exact ⟨tr, out, t', hrun, hund, hacts⟩

/-- A post whose id has so many letters. -/
def numbered (n : ℕ) : Post where
  id := String.ofList (List.replicate n 'x')
  status := .uploaded
  createdAt := ⟨0, 0⟩
  videoUid := "video"
  creatorPrincipal := "alice"

theorem numbered_injective : Function.Injective fun n => (numbered n).id := by
  intro m n h
  have hlist : List.replicate m 'x' = List.replicate n 'x' := String.ofList_inj.mp h
  have hlength := congrArg List.length hlist
  rwa [List.length_replicate, List.length_replicate] at hlength

theorem numbered_ids {ns : List ℕ} (h : ns.Nodup) :
    ((ns.map numbered).map (·.id)).Nodup := by
  rw [List.map_map]
  exact h.map numbered_injective

theorem numbered_representable (n : ℕ) : (numbered n).createdAt.Representable :=
  ⟨by show (0 : UInt64).toNat ≤ _; decide, by show (0 : UInt32).toNat < _; decide⟩

section TwoPages

variable {before : List Post} {p last : Post}

theorem firstPage (hlen : before.length + 1 = pageSize) :
    (pageSource (before ++ p :: [last])).fetch pageSize none
      = ⟨before ++ [p], some p.id⟩ := by
  have htake : (before ++ p :: [last]).take pageSize = before ++ [p] := by
    rw [← List.singleton_append, ← List.append_assoc]
    exact List.take_left' (by simp [hlen])
  show (⟨(before ++ p :: [last]).take pageSize,
    ((before ++ p :: [last]).take pageSize).getLast?.map (·.id)⟩ : FetchPostsResult) = _
  rw [htake, List.getLast?_append]
  rfl

/-- A full page and one post more. -/
theorem pages_two (hids : ((before ++ p :: [last]).map (·.id)).Nodup)
    (hlen : before.length + 1 = pageSize) :
    PagesNeeded (pageSource (before ++ p :: [last])) none 2 := by
  have hfirst := @firstPage before p last hlen
  refine .more none p.id 1 ?_ ?_ (.last (some p.id) (.inl ?_))
  · rw [hfirst]
    simp [hlen]
  · rw [hfirst]
  · show ((afterCursor (before ++ p :: [last]) (some p.id)).take pageSize).length < pageSize
    rw [afterCursor_append hids, List.take_of_length_le (by simp [pageSize])]
    simp [pageSize]

end TwoPages

/-- One more post than a page holds. -/
def numberedChain : List Post := (List.range' 1 101).map numbered

theorem numberedChain_resumable : Resumable numberedChain := by
  rintro before p after hsplit - -
  have hp : p ∈ numberedChain := by
    rw [hsplit]
    exact List.mem_append_right _ List.mem_cons_self
  obtain ⟨n, hn, rfl⟩ := List.mem_map.mp hp
  rw [List.mem_range'_1] at hn
  intro hempty
  obtain rfl : n = 0 := numbered_injective hempty
  omega

/-- A run before this one: a post that is gone, and one of the chain that was
flagged. -/
def oldTables : ChainTables where
  posts := ⟨[{ (numbered 0).current 0 with postId := "gone" },
    { (numbered 1).current 0 with stale := true }], by decide⟩
  users := ⟨[⟨"bob", 1, some 0, some 0⟩], by decide⟩

/-- The flagged post is back, nothing is left of the old run; and a run whose source
fails leaves the old tables. -/
theorem snapshot_staging_numbered :
    (∃ tr out t', Runs (runChainSnapshot 1 "api" none) tr out ∧
      Trace SnapshotCall.Acts oldTables tr t' ∧
      CompleteSnapshot numberedChain 1 out t' ∧ (numbered 1).current 1 ∈ t'.live ∧
      ∀ row ∈ t'.live, row.snapshotRunId = some 1) ∧
    Untouched oldTables oldTables (.error "timed out") := by
  constructor
  · obtain ⟨tr, out, t', hrun, hund, hacts⟩ :=
      exists_undisturbed (pageSource numberedChain) 1 "api" oldTables
    have hids : (numberedChain.map (·.id)).Nodup := numbered_ids List.nodup_range'
    have hpages : PagesNeeded (pageSource numberedChain) none 2 :=
      @pages_two ((List.range' 1 99).map numbered) _ _ hids (by simp [pageSize])
    have hfresh : oldTables.Fresh 1 := by
      unfold ChainTables.Fresh
      decide
    have hdone : CompleteSnapshot numberedChain 1 out t' := by
      refine (snapshot_staging hrun hacts).1 _ (pageSource numberedChain) 2 rfl hids ?_
        numberedChain_resumable hfresh hpages (by decide) hund
      intro p hp
      obtain ⟨n, -, rfl⟩ := List.mem_map.mp hp
      exact numbered_representable n
    refine ⟨tr, out, t', hrun, hacts, hdone, ?_, fun row hrow => ?_⟩
    · refine (hdone.posts _).mpr ⟨numbered 1, ?_, by decide, rfl⟩
      exact List.mem_map_of_mem (List.mem_range'_1.mpr (by omega))
    · obtain ⟨p, -, -, rfl⟩ := (hdone.posts row).mp hrow
      rfl
  · have hrun : Runs (runChainSnapshot 1 "api" none) [
        ⟨.insertRun 1 "chain_snapshot" "api", .ok ()⟩, ⟨.isCancelled, false⟩,
        ⟨.fetch pageSize none, .error "timed out"⟩, ⟨.failRun 1 "timed out", .ok ()⟩]
        (.error "timed out") :=
      .call (.call (.call (.call (.ret _))))
    have hacts : Trace SnapshotCall.Acts oldTables [
        ⟨.insertRun 1 "chain_snapshot" "api", .ok ()⟩, ⟨.isCancelled, false⟩,
        ⟨.fetch pageSize none, .error "timed out"⟩,
        ⟨.failRun 1 "timed out", .ok ()⟩] oldTables :=
      .cons rfl (.cons rfl (.cons rfl (.cons rfl (.nil _))))
    exact (snapshot_staging hrun hacts).2
      (.interrupted _ (.tail _ (.tail _ (.head _))) trivial)

/-! ## An empty id in the middle -/

/-- The hundredth of these posts has an empty id. -/
def unnamedChain : List Post := (List.range' 1 99 ++ [0, 100]).map numbered

theorem unnamedChain_ids : (unnamedChain.map (·.id)).Nodup := by
  refine numbered_ids (List.nodup_append.mpr ⟨List.nodup_range', by decide, ?_⟩)
  intro m hm n hn
  rw [List.mem_range'_1] at hm
  simp only [List.mem_cons, List.not_mem_nil, or_false] at hn
  omega

/-- The posts up to the one with an empty id. -/
def unnamedPage : List Post := (List.range' 1 99).map numbered ++ [numbered 0]

theorem unnamedChain_split : unnamedChain = unnamedPage ++ [numbered 100] := by
  unfold unnamedChain unnamedPage
  rw [List.map_append, List.append_assoc]
  rfl

theorem unnamed_firstPage :
    (pageSource unnamedChain).fetch pageSize none = ⟨unnamedPage, some ""⟩ :=
  @firstPage ((List.range' 1 99).map numbered) (numbered 0) (numbered 100)
    (by simp [pageSize])

theorem unnamed_pages : PagesNeeded (pageSource unnamedChain) none 2 :=
  @pages_two ((List.range' 1 99).map numbered) _ _ unnamedChain_ids (by simp [pageSize])

/-- The walk ends with the first page. -/
theorem unnamed_fetched {requestedBy : String} {summary : ChainSnapshotSummary}
    (hrun : Runs (runChainSnapshot runId requestedBy none) tr (.ok summary))
    (hund : ∀ x ∈ tr, Undisturbed (pageSource unnamedChain) x) :
    tr.flatMap fetched = unnamedPage := by
  generalize hs : Except.ok summary = out at hrun
  cases runChainSnapshot_runs hrun with
  | notInserted e => cases hs
  | walked walkTr rest result _ hwalk honly hrest =>
      have hwalkUnd : ∀ x ∈ walkTr, Undisturbed (pageSource unnamedChain) x :=
        fun x hx => hund x (.tail _ (List.mem_append_left _ hx))
      rw [show maxIters = 99999 + 1 from rfl] at hwalk
      obtain ⟨totals, ⟨-, hfetched, rfl⟩ | ⟨hgo, -⟩⟩ := hwalk.page hwalkUnd
      · obtain rfl := hs
        obtain ⟨-, -, hnone, -⟩ := conclude_completed hrest
        show (walkTr ++ rest).flatMap fetched = unnamedPage
        rw [List.flatMap_append, hfetched, hnone, unnamed_firstPage]
        exact List.append_nil _
      · rw [unnamed_firstPage] at hgo
        simp [walkStep] at hgo

theorem unnamed_post_ends_walk : ¬ ∀ (chain : List Post)
    (source : FaithfulSource chain) (n : ℕ) (runId : Uuid) (requestedBy : String)
    (tr : List SnapshotExchange) (out : Except String ChainSnapshotSummary)
    (t t' : ChainTables), (chain.map (·.id)).Nodup →
    (∀ p ∈ chain, p.createdAt.Representable) → t.Fresh runId →
    PagesNeeded source none n → n ≤ maxIters →
    Runs (runChainSnapshot runId requestedBy none) tr out →
    (∀ x ∈ tr, Undisturbed source x) → Trace SnapshotCall.Acts t tr t' →
    CompleteSnapshot chain runId out t' := by
  intro h
  obtain ⟨tr, out, t', hrun, hund, hacts⟩ :=
    exists_undisturbed (pageSource unnamedChain) 1 "api" {}
  have htimes : ∀ p ∈ unnamedChain, p.createdAt.Representable := by
    intro p hp
    obtain ⟨n, -, rfl⟩ := List.mem_map.mp hp
    exact numbered_representable n
  have hfresh : ChainTables.Fresh 1 {} :=
    fun row hrow => absurd hrow List.not_mem_nil
  have hdone := h _ _ 2 1 "api" tr out {} t' unnamedChain_ids htimes hfresh
    unnamed_pages (by decide) hrun hund hacts
  obtain ⟨summary, hout, hcompleted⟩ := hdone.completed
  subst hout
  have hfetched := unnamed_fetched hrun hund
  obtain ⟨hok, hexec⟩ := completed_executed hrun hcompleted
  -- the last post would have been upserted
  have hmem : numbered 100 ∈ unnamedChain := by
    rw [unnamedChain_split]
    exact List.mem_append_right _ List.mem_cons_self
  have hlive := (hdone.posts _).mpr ⟨_, hmem, by decide, rfl⟩
  rw [acts_executeAll hok hacts, hexec, hfetched] at hlive
  obtain ⟨post, hupsert, hrow⟩ := live_of_run hfresh hlive rfl
  obtain ⟨p, hp, rfl, -⟩ := mem_snapshotStatements.mp hupsert
  have hid : (numbered 100).id = p.id := congrArg YralPost.postId hrow
  have hids := unnamedChain_ids
  rw [unnamedChain_split, List.map_append] at hids
  exact (List.nodup_append.mp hids).2.2 _
    (List.mem_map_of_mem (mem_staged.mp hp).1) _ List.mem_cons_self hid.symm

end VideoStorage.Chain
