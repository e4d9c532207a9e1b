import VideoStorage.Chain.Completeness
import VideoStorage.Foundation.Interleaving

/-!
# Two snapshots at once

Two complete runs over the same chain, their statements shuffled. Behind the
later mark only its run's rows are live, so what is live is of the chain and the
users are its rollup; but a post that the other run wrote last is flagged. Both
runs leave the chain live exactly if the one has flagged before the other writes
(`concurrent_safe_iff`).
-/

namespace VideoStorage.Chain

open Foundation Prog

variable {chain : List Post} {a b : Uuid} {tr : List SnapshotExchange}
  {t t' : ChainTables} {ss : List ChainStatement}

/-! ## Complete runs -/

/-- A run that has completed a walk of the whole chain. -/
structure CompleteRun (chain : List Post) (runId : Uuid)
    (tr : List SnapshotExchange) : Prop where
  run : ∃ requestedBy limit summary,
    Runs (runChainSnapshot runId requestedBy limit) tr (.ok summary) ∧
      summary.completed = true
  walked : ∀ p, p ∈ tr.flatMap fetched ↔ p ∈ chain

/-- It has staged the posts of the chain and closed the walk. -/
theorem CompleteRun.executed {runId : Uuid} (h : CompleteRun chain runId tr) :
    (∀ x ∈ tr, ¬ Refused x) ∧ ∃ ps : List Post, (∀ p, p ∈ ps ↔ p ∈ staged chain) ∧
      tr.filterMap executed = ps.map (upsertOf runId) ++ closing runId := by
  obtain ⟨requestedBy, limit, summary, hrun, hcompleted⟩ := h.run
  obtain ⟨hok, hexec⟩ := completed_executed hrun hcompleted
  refine ⟨hok, _, fun p => ?_, hexec⟩
  rw [mem_staged, mem_staged, h.walked]

/-- The rollup of the posts of the chain that have a video. -/
def chainRollups (chain : List Post) : List YralUser :=
  rollups ((staged chain).map fun p => (chainPost p).row 0)

/-- No post of the chain is flagged, and the users are the rollup. -/
structure Safe (chain : List Post) (t : ChainTables) : Prop where
  live : ∀ p ∈ chain, ∀ row ∈ t.posts.rows, row.postId = p.id → row.stale = false
  users : ∀ u, u ∈ t.users.rows ↔ u ∈ chainRollups chain

/-- Run `a` flags before run `b` upserts the posts. -/
def MarksFirst (chain : List Post) (a b : Uuid) (ss : List ChainStatement) :
    Prop :=
  ∃ before after, ss = before ++ .markStalePosts a :: after ∧
    ∀ p ∈ staged chain, upsertOf b p ∈ after

/-- No old row is of a post without a video. -/
def NoSkippedRow (chain : List Post) (t : ChainTables) : Prop :=
  ∀ p ∈ chain, p.videoUid = "" → ∀ row ∈ t.posts.rows, row.postId ≠ p.id

/-! ## The order of the two marks -/

/-- The statements of two complete runs of which `a` flags first. -/
structure Ordered (chain : List Post) (a b : Uuid) (ss : List ChainStatement)
    (before between after : List ChainStatement) : Prop where
  split : ss = before ++
    .markStalePosts a :: (between ++ .markStalePosts b :: after)
  early : ∀ s ∈ before, ∃ p ∈ staged chain, ∃ r, (r = a ∨ r = b) ∧
    s = upsertOf r p
  written : ∀ p ∈ staged chain, upsertOf a p ∈ before
  mid : ∀ s ∈ between, (∃ p ∈ staged chain, s = upsertOf b p) ∨ s.OnUsers
  late : ∀ s ∈ after, s.OnUsers
  rebuilt : .deleteUsers ∈ after ∧ .insertUsers ∈ after

theorem ordered_of_before {ps qs : List Post}
    (hps : ∀ p, p ∈ ps ↔ p ∈ staged chain)
    (hqs : ∀ q, q ∈ qs ↔ q ∈ staged chain)
    (h : Interleaving.Before (ps.map (upsertOf a)) (.markStalePosts a)
      [.deleteUsers, .insertUsers] (qs.map (upsertOf b)) (.markStalePosts b)
      [.deleteUsers, .insertUsers] ss) :
    ∃ before between after, Ordered chain a b ss before between after := by
  obtain ⟨ys₁, ys₂, xs₁, xs₂, before, between, after, hys, hxs, hsplit, h₁, h₂,
    h₃⟩ := h
  -- `b` upserts posts of the chain; what `a` has left is on users
  have hupserts : ∀ s ∈ ys₁ ++ ys₂, ∃ p ∈ staged chain, s = upsertOf b p := by
    intro s hs
    obtain ⟨q, hq, rfl⟩ := List.mem_map.mp (hys ▸ hs)
    exact ⟨q, (hqs q).mp hq, rfl⟩
  have husers : ∀ s ∈ xs₁ ++ xs₂, s.OnUsers := by
    intro s hs
    rw [← hxs] at hs
    rcases List.mem_pair.mp hs with rfl | rfl
    · exact .inl rfl
    · exact .inr rfl
  refine ⟨before, between, after, hsplit, ?_, ?_, ?_, ?_, ?_⟩
  · intro s hs
    rcases h₁.mem_iff.mp hs with hs | hs
    · obtain ⟨p, hp, rfl⟩ := List.mem_map.mp hs
      exact ⟨p, (hps p).mp hp, a, .inl rfl, rfl⟩
    · obtain ⟨p, hp, rfl⟩ := hupserts s (List.mem_append_left _ hs)
      exact ⟨p, hp, b, .inr rfl, rfl⟩
  · intro p hp
    exact h₁.mem_iff.mpr (.inl (List.mem_map_of_mem ((hps p).mpr hp)))
  · intro s hs
    rcases h₂.mem_iff.mp hs with hs | hs
    · exact .inr (husers s (List.mem_append_left _ hs))
    · exact .inl (hupserts s (List.mem_append_right _ hs))
  · intro s hs
    rcases h₃.mem_iff.mp hs with hs | hs
    · exact husers s (List.mem_append_right _ hs)
    · rcases List.mem_pair.mp hs with rfl | rfl
      · exact .inl rfl
      · exact .inr rfl
  · exact ⟨h₃.mem_iff.mpr (.inr (.head _)),
      h₃.mem_iff.mpr (.inr (.tail _ (.head _)))⟩

/-- One of two complete runs flags first. -/
theorem ordered_of_runs {trA trB : List SnapshotExchange}
    (hA : CompleteRun chain a trA) (hB : CompleteRun chain b trB)
    (hmix : Interleaving trA trB tr) :
    (∃ before between after,
      Ordered chain a b (tr.filterMap executed) before between after) ∨
    ∃ before between after,
      Ordered chain b a (tr.filterMap executed) before between after := by
  obtain ⟨-, ps, hps, hexecA⟩ := hA.executed
  obtain ⟨-, qs, hqs, hexecB⟩ := hB.executed
  have hss := hmix.filterMap executed
  rw [hexecA, hexecB] at hss
  rcases hss.before_or with h | h
  · exact .inl (ordered_of_before hps hqs h)
  · exact .inr (ordered_of_before hqs hps h)

/-! ## What the two runs leave -/

theorem get_executeAll_of_not_touches {k : String}
    (h : ∀ s ∈ ss, s.touches k = false) :
    (executeAll ss t).posts.get k = t.posts.get k :=
  executeAll_invariant (fun t' => t'.posts.get k = t.posts.get k)
    (fun s hs _ ih => (get_apply_of_not_touches (h s hs)).trans ih) rfl

theorem ChainStatement.OnUsers.not_touches {s : ChainStatement} (h : s.OnUsers)
    (k : String) : s.touches k = false := by
  rcases h with rfl | rfl <;> rfl

/-- The row of a post of another run is flagged by the later mark. -/
theorem get_marked_last {k : String} {between after : List ChainStatement}
    (hbetween : ∀ s ∈ between, s.touches k = false)
    (hafter : ∀ s ∈ after, s.OnUsers) {row : YralPost}
    (hget : t.posts.get k = some row)
    (hother : row.stale = true ∨ row.snapshotRunId ≠ some b) :
    ∃ row', (executeAll (between ++ .markStalePosts b :: after) t).posts.get k
      = some row' ∧ row'.stale = true := by
  refine ⟨row.marked b, ?_, ?_⟩
  · rw [executeAll_append, executeAll_cons,
      get_executeAll_of_not_touches fun s hs => (hafter s hs).not_touches k,
      get_apply_mark, get_executeAll_of_not_touches hbetween, hget]
    rfl
  · unfold YralPost.marked
    split_ifs with hcond
    · rfl
    · rcases hother with hstale | hne
      · exact hstale
      · by_contra hlive
        exact hcond ⟨Bool.eq_false_iff.mpr hlive, hne⟩

/-- A row that is still live behind a mark is of its run. -/
theorem marked_other (hab : a ≠ b) (row : YralPost) :
    (row.marked a).stale = true ∨ (row.marked a).snapshotRunId ≠ some b := by
  cases hstale : (row.marked a).stale with
  | true => exact .inl rfl
  | false =>
      obtain ⟨heq, hrun⟩ := stale_marked hstale
      rw [heq, hrun]
      exact .inr fun h => hab (Option.some.inj h)

section Ordered

variable {before between after : List ChainStatement}
  (h : Ordered chain a b ss before between after)

include h

theorem Ordered.executeAll_eq (t : ChainTables) : executeAll ss t =
    executeAll (between ++ .markStalePosts b :: after)
      (ChainStatement.apply (.markStalePosts a) (executeAll before t)) := by
  rw [h.split, executeAll_append]
  rfl

/-- A post that `b` writes behind the mark of `a` stays as it is written. -/
theorem Ordered.get_written (hids : (chain.map (·.id)).Nodup) {p : Post}
    (hp : p ∈ staged chain) (hlast : upsertOf b p ∈ between) :
    (executeAll ss t).posts.get p.id = some ((chainPost p).row b) := by
  rw [h.executeAll_eq]
  have hmem : .upsertChainPost (chainPost p) b
      ∈ between ++ .markStalePosts b :: after := List.mem_append_left _ hlast
  refine written_stays hmem fun s hs => ?_
  rcases List.mem_append.mp hs with hs | hs
  · rcases h.mid s hs with ⟨q, hq, rfl⟩ | rfl | rfl
    · intro hid
      obtain rfl : q = p := List.inj_on_of_nodup_map hids (mem_staged.mp hq).1
        (mem_staged.mp hp).1 hid
      exact ⟨rfl, rfl⟩
    · trivial
    · trivial
  · rcases List.mem_cons.mp hs with rfl | hs
    · rfl
    · rcases h.late s hs with rfl | rfl <;> trivial

/-- A post that `b` does not write behind that mark is flagged. -/
theorem Ordered.get_flagged (hab : a ≠ b) (hids : (chain.map (·.id)).Nodup)
    {p : Post} (hp : p ∈ chain) (hrow : p ∈ staged chain ∨
      (t.posts.get p.id).isSome) (hlast : upsertOf b p ∉ between) :
    ∃ row, (executeAll ss t).posts.get p.id = some row ∧ row.stale = true := by
  have hsome : ((executeAll before t).posts.get p.id).isSome := by
    rcases hrow with hstaged | hold
    · obtain ⟨pre, post, hsplit⟩ := List.append_of_mem (h.written p hstaged)
      rw [hsplit, executeAll_append, executeAll_cons]
      refine executeAll_invariant (fun t => (t.posts.get p.id).isSome)
        (fun s _ t ht => get_isSome_apply ht) ?_
      rw [upsertOf, show p.id = (chainPost p).postId from rfl, get_apply_upsert]
      rfl
    · exact executeAll_invariant (fun t => (t.posts.get p.id).isSome)
        (fun s _ t ht => get_isSome_apply ht) hold
  obtain ⟨row, hget⟩ := Option.isSome_iff_exists.mp hsome
  rw [h.executeAll_eq]
  refine get_marked_last ?_ h.late ?_ (marked_other hab row)
  · intro s hs
    rcases h.mid s hs with ⟨q, hq, rfl⟩ | husers
    · refine decide_eq_false fun hid => hlast ?_
      obtain rfl : q = p :=
        List.inj_on_of_nodup_map hids (mem_staged.mp hq).1 hp hid
      exact hs
    · exact husers.not_touches p.id
  · rw [get_apply_mark, hget]
    rfl

theorem Ordered.upserts {post : ChainPost} {r : Uuid}
    (hmem : .upsertChainPost post r ∈ ss) :
    ∃ p ∈ staged chain, post = chainPost p := by
  rw [h.split] at hmem
  rcases List.mem_append.mp hmem with hmem | hmem
  · obtain ⟨p, hp, r, -, heq⟩ := h.early _ hmem
    exact ⟨p, hp, (ChainStatement.upsertChainPost.inj heq).1⟩
  rcases List.mem_cons.mp hmem with heq | hmem
  · cases heq
  rcases List.mem_append.mp hmem with hmem | hmem
  · rcases h.mid _ hmem with ⟨p, hp, heq⟩ | heq | heq
    · exact ⟨p, hp, (ChainStatement.upsertChainPost.inj heq).1⟩
    · cases heq
    · cases heq
  · rcases List.mem_cons.mp hmem with heq | hmem
    · cases heq
    · rcases h.late _ hmem with heq | heq <;> cases heq

/-- A post without a video gets no row. -/
theorem Ordered.get_skipped (hids : (chain.map (·.id)).Nodup) {p : Post}
    (hp : p ∈ chain) (huid : p.videoUid = "")
    (hnone : t.posts.get p.id = none) :
    (executeAll ss t).posts.get p.id = none := by
  refine executeAll_invariant (fun t => t.posts.get p.id = none)
    (fun s hs t ht => get_none_apply ?_ ht) hnone
  rintro post r rfl hid
  obtain ⟨q, hq, rfl⟩ := h.upserts hs
  obtain ⟨hmem, hvideo⟩ := mem_staged.mp hq
  obtain rfl : q = p := List.inj_on_of_nodup_map hids hmem hp hid
  exact hvideo huid

/-- What is live at the end is of the chain. -/
theorem Ordered.of_live (hfresh : t.Fresh b) {row : YralPost}
    (hrow : row ∈ (executeAll ss t).live) :
    ∃ p ∈ staged chain, row = (chainPost p).row b := by
  have hrun : row.snapshotRunId = some b := by
    have hmark := hrow
    rw [h.executeAll_eq, executeAll_append, executeAll_cons,
      ChainTables.live, posts_executeAll_of_onUsers h.late] at hmark
    exact live_apply_mark hmark
  obtain ⟨post, hmem, rfl⟩ := live_of_run hfresh hrow hrun
  obtain ⟨p, hp, rfl⟩ := h.upserts hmem
  exact ⟨p, hp, rfl⟩

/-- The users are the rollup of what is live. -/
theorem Ordered.mem_users {u : YralUser} : u ∈ (executeAll ss t).users.rows ↔
    u ∈ rollups (executeAll ss t).live := by
  have hlive : (executeAll ss t).live = (ChainStatement.apply (.markStalePosts b)
      (executeAll between (ChainStatement.apply (.markStalePosts a)
        (executeAll before t)))).live := by
    rw [h.executeAll_eq, executeAll_append, executeAll_cons]
    unfold ChainTables.live
    rw [posts_executeAll_of_onUsers h.late]
  rw [hlive, h.executeAll_eq, executeAll_append, executeAll_cons]
  exact mem_users_iff h.late h.rebuilt.1 h.rebuilt.2

theorem Ordered.mark_not_mem (hab : a ≠ b) : .markStalePosts a ∉ before ∧
    .markStalePosts a ∉ between ++ .markStalePosts b :: after := by
  constructor
  · intro hmem
    obtain ⟨p, -, r, -, heq⟩ := h.early _ hmem
    cases heq
  · intro hmem
    rcases List.mem_append.mp hmem with hmem | hmem
    · rcases h.mid _ hmem with ⟨p, -, heq⟩ | heq | heq <;> cases heq
    · rcases List.mem_cons.mp hmem with heq | hmem
      · exact hab (ChainStatement.markStalePosts.inj heq)
      · rcases h.late _ hmem with heq | heq <;> cases heq

theorem Ordered.upsert_not_late (r : Uuid) (p : Post) : upsertOf r p ∉ after := by
  intro hmem
  rcases h.late _ hmem with heq | heq <;> cases heq

/-- In either order of the runs: what is marked first is written again behind
that mark. -/
theorem Ordered.marksFirst_iff (hab : a ≠ b) :
    (MarksFirst chain a b ss ∨ MarksFirst chain b a ss) ↔
      ∀ p ∈ staged chain, upsertOf b p ∈ between := by
  constructor
  · rintro (⟨pre, post, hsplit, hall⟩ | ⟨pre, post, hsplit, hall⟩) p hp
    · obtain ⟨hbefore, hbehind⟩ := h.mark_not_mem hab
      -- the first mark is where both splits cut
      have heq := h.split.symm.trans hsplit
      obtain ⟨-, -, hpost⟩ :=
        (List.append_cons_inj_of_notMem hbefore hbehind).mp heq
      have hmem := hall p hp
      rw [← hpost] at hmem
      rcases List.mem_append.mp hmem with hmem | hmem
      · exact hmem
      · rcases List.mem_cons.mp hmem with heq | hmem
        · cases heq
        · exact absurd hmem (h.upsert_not_late b p)
    · -- behind the later mark nothing is written
      have hlate : upsertOf a p ∈ after := by
        have heq : (before ++ .markStalePosts a :: between) ++
            .markStalePosts b :: after = pre ++ .markStalePosts b :: post := by
          rw [← hsplit, h.split, List.append_assoc]
          rfl
        have hpre : ChainStatement.markStalePosts b
            ∉ before ++ .markStalePosts a :: between := by
          intro hmem
          rcases List.mem_append.mp hmem with hmem | hmem
          · obtain ⟨q, -, r, -, heq⟩ := h.early _ hmem
            cases heq
          · rcases List.mem_cons.mp hmem with heq | hmem
            · exact hab (ChainStatement.markStalePosts.inj heq).symm
            · rcases h.mid _ hmem with ⟨q, -, heq⟩ | heq | heq <;> cases heq
        have hpost : ChainStatement.markStalePosts b ∉ after := by
          intro hmem
          rcases h.late _ hmem with heq | heq <;> cases heq
        obtain ⟨-, -, rfl⟩ := (List.append_cons_inj_of_notMem hpre hpost).mp heq
        exact hall p hp
      exact absurd hlate (h.upsert_not_late a p)
  · intro hall
    exact .inl ⟨before, _, h.split, fun p hp =>
      List.mem_append_left _ (hall p hp)⟩

/-- **Two runs are safe** exactly if every post is written behind the first mark
and no old row is of a post that is skipped. -/
theorem Ordered.safe_iff (hab : a ≠ b) (hids : (chain.map (·.id)).Nodup)
    (hfresh : t.Fresh b) : Safe chain (executeAll ss t) ↔
      (MarksFirst chain a b ss ∨ MarksFirst chain b a ss) ∧
        NoSkippedRow chain t := by
  rw [h.marksFirst_iff hab]
  constructor
  · intro hsafe
    have hlive : ∀ p ∈ chain, ¬ ∃ row,
        (executeAll ss t).posts.get p.id = some row ∧ row.stale = true := by
      rintro p hp ⟨row, hget, hstale⟩
      obtain ⟨hmem, hid⟩ := Rows.get_eq_some.mp hget
      rw [hsafe.live p hp row hmem hid] at hstale
      cases hstale
    refine ⟨fun p hp => ?_, fun p hp huid row hrow hid => ?_⟩
    -- a post not written between the marks is flagged by the later one
    · by_contra hlast
      have hmem := (mem_staged.mp hp).1
      exact hlive p hmem (h.get_flagged hab hids hmem (.inl hp) hlast)
    · refine hlive p hp (h.get_flagged hab hids hp (.inr ?_) ?_)
      · rw [Rows.get_eq_some.mpr ⟨hrow, hid⟩]
        rfl
      -- no run writes a post that both skip
      · intro hmem
        rcases h.mid _ hmem with ⟨q, hq, heq⟩ | heq | heq
        · obtain ⟨hpost, -⟩ := ChainStatement.upsertChainPost.inj heq
          have huid' : p.videoUid = q.videoUid :=
            congrArg ChainPost.videoUid hpost
          exact (mem_staged.mp hq).2 (huid'.symm.trans huid)
        · cases heq
        · cases heq
  · rintro ⟨hall, hnone⟩
    -- all that lives was written by `b`, from the chain
    have hlive : ∀ row, row ∈ (executeAll ss t).live ↔
        ∃ p ∈ staged chain, row = (chainPost p).row b := by
      refine fun row => ⟨h.of_live hfresh, ?_⟩
      rintro ⟨p, hp, rfl⟩
      have hget := h.get_written (t := t) hids hp (hall p hp)
      exact ChainTables.mem_live.mpr ⟨(Rows.get_eq_some.mp hget).1, rfl⟩
    refine ⟨fun p hp row hrow hid => ?_, fun u => ?_⟩
    · have hget := Rows.get_eq_some.mpr ⟨hrow, hid⟩
      by_cases huid : p.videoUid = ""
      · have hnil : t.posts.get p.id = none :=
          Rows.get_eq_none.mpr (hnone p hp huid)
        rw [h.get_skipped hids hp huid hnil] at hget
        cases hget
      · have hstaged := mem_staged.mpr ⟨hp, huid⟩
        rw [h.get_written hids hstaged (hall p hstaged)] at hget
        obtain rfl := Option.some.inj hget
        rfl
    · have hstamp : rollups ((staged chain).map fun p => (chainPost p).row b)
          = chainRollups chain :=
        rollups_map_congr (fun _ => rfl) (fun _ => rfl)
      rw [h.mem_users, mem_rollups_perm (live_perm hids hlive), hstamp]

end Ordered

/-- The tables behind two runs are those of their statements. -/
theorem acts_interleaving {trA trB : List SnapshotExchange}
    (hA : CompleteRun chain a trA) (hB : CompleteRun chain b trB)
    (hmix : Interleaving trA trB tr) (hacts : Trace SnapshotCall.Acts t tr t') :
    t' = executeAll (tr.filterMap executed) t := by
  refine acts_executeAll (fun x hx => ?_) hacts
  rcases hmix.mem_iff.mp hx with hx | hx
  · exact hA.executed.1 x hx
  · exact hB.executed.1 x hx

/-- **Concurrent snapshots** leave every post of the chain live and the users its
rollup exactly if one run has flagged before the other upserts each post, and no
old row is of a post that is skipped. -/
theorem concurrent_safe_iff (hab : a ≠ b) (hids : (chain.map (·.id)).Nodup)
    {trA trB : List SnapshotExchange} (hA : CompleteRun chain a trA)
    (hB : CompleteRun chain b trB) (hmix : Interleaving trA trB tr)
    (hfreshA : t.Fresh a) (hfreshB : t.Fresh b)
    (hacts : Trace SnapshotCall.Acts t tr t') :
    Safe chain t' ↔
      (MarksFirst chain a b (tr.filterMap executed) ∨
        MarksFirst chain b a (tr.filterMap executed)) ∧
      NoSkippedRow chain t := by
  rw [acts_interleaving hA hB hmix hacts]
  rcases ordered_of_runs hA hB hmix with ⟨before, between, after, h⟩ |
    ⟨before, between, after, h⟩
  · exact h.safe_iff hab hids hfreshB
  · rw [or_comm]
    exact h.safe_iff hab.symm hids hfreshA

/-! ## Two posts, two runs -/

def twoPosts : List Post := [1, 2].map numbered

/-- A run over two posts, up to its first write. -/
def openingTrace (r : Uuid) : List SnapshotExchange := [
  ⟨.insertRun r "chain_snapshot" "api", .ok ()⟩,
  ⟨.isCancelled, false⟩,
  ⟨.fetch pageSize none, .ok ⟨twoPosts, none⟩⟩]

/-- Up to the end of its walk. -/
def stagingTrace (r : Uuid) : List SnapshotExchange := [
  ⟨.execute (upsertOf r (numbered 1)), .ok ()⟩,
  ⟨.execute (upsertOf r (numbered 2)), .ok ()⟩,
  ⟨.recordProgress r none ⟨1, 2, 0⟩, .ok ()⟩]

/-- The rest of it, behind the mark. -/
def rebuildTrace (r : Uuid) : List SnapshotExchange := [
  ⟨.execute .deleteUsers, .ok ()⟩,
  ⟨.execute .insertUsers, .ok ()⟩,
  ⟨.finishRun r "completed" ⟨1, 2, 0⟩ true, .ok ()⟩]

def closingTrace (r : Uuid) : List SnapshotExchange :=
  ⟨.execute (.markStalePosts r), .ok ()⟩ :: rebuildTrace r

def wholeTrace (r : Uuid) : List SnapshotExchange :=
  openingTrace r ++ (stagingTrace r ++ closingTrace r)

theorem completeRun_numbered (r : Uuid) : CompleteRun twoPosts r (wholeTrace r) where
  run := ⟨"api", none, ⟨r, 2, 1, 0, true⟩,
    .call (.call (.call (.call (.call (.call (.call (.call (.call (.call
      (.ret _)))))))))), rfl⟩
  walked _ := Iff.rfl

theorem twoPosts_ids : (twoPosts.map (·.id)).Nodup := numbered_ids (by decide)

/-- The second run opens first and writes between the mark and the rollup of the
first. -/
def safeTrace : List SnapshotExchange :=
  openingTrace 2 ++ ((openingTrace 1 ++ stagingTrace 1) ++
    (⟨.execute (.markStalePosts 1), .ok ()⟩ ::
      (stagingTrace 2 ++ (rebuildTrace 1 ++ closingTrace 2))))

theorem safeTrace_mix : Interleaving (wholeTrace 1) (wholeTrace 2) safeTrace :=
  ((((Interleaving.append (rebuildTrace 1) (closingTrace 2)).prependRight
    (stagingTrace 2)).left).prependLeft
      (openingTrace 1 ++ stagingTrace 1)).prependRight (openingTrace 2)

theorem oldTables_fresh : oldTables.Fresh 1 ∧ oldTables.Fresh 2 := by
  unfold ChainTables.Fresh
  decide

theorem interleaved_safe : ∃ t', Trace SnapshotCall.Acts oldTables safeTrace t' ∧
    Safe twoPosts t' := by
  have hok : ∀ x ∈ safeTrace, ¬ Refused x := by
    simp [safeTrace, openingTrace, stagingTrace, rebuildTrace, closingTrace, Refused]
  obtain ⟨t', hacts⟩ := @exists_acts oldTables _ hok
  refine ⟨t', hacts, ?_⟩
  refine (concurrent_safe_iff (by decide) twoPosts_ids (completeRun_numbered 1)
    (completeRun_numbered 2) safeTrace_mix oldTables_fresh.1 oldTables_fresh.2
    hacts).mpr ⟨.inl ⟨[upsertOf 1 (numbered 1), upsertOf 1 (numbered 2)], _, rfl, ?_⟩, ?_⟩
  · intro p hp
    have hp : p ∈ [numbered 1, numbered 2] := (mem_staged.mp hp).1
    rcases List.mem_cons.mp hp with rfl | hp
    · exact .head _
    · obtain rfl := List.mem_singleton.mp hp
      exact .tail _ (.head _)
  · unfold NoSkippedRow
    decide

/-- Both runs write, then both close: the posts of the chain are flagged. -/
theorem concurrent_runs_flag_live_post : ¬ ∀ (chain : List Post) (a b : Uuid)
    (trA trB tr : List SnapshotExchange) (t t' : ChainTables), a ≠ b →
    (chain.map (·.id)).Nodup → CompleteRun chain a trA →
    CompleteRun chain b trB → Interleaving trA trB tr → t.Fresh a → t.Fresh b →
    Trace SnapshotCall.Acts t tr t' → Safe chain t' := by
  intro h
  let tr : List SnapshotExchange := (openingTrace 1 ++ stagingTrace 1) ++
    ((openingTrace 2 ++ stagingTrace 2) ++ (closingTrace 1 ++ closingTrace 2))
  have hmix : Interleaving (wholeTrace 1) (wholeTrace 2) tr :=
    ((Interleaving.append (closingTrace 1) (closingTrace 2)).prependRight
      (openingTrace 2 ++ stagingTrace 2)).prependLeft (openingTrace 1 ++ stagingTrace 1)
  have hok : ∀ x ∈ tr, ¬ Refused x := by
    simp [tr, openingTrace, stagingTrace, closingTrace, rebuildTrace, Refused]
  obtain ⟨t', hacts⟩ := @exists_acts oldTables _ hok
  have hsafe := h _ 1 2 _ _ _ _ t' (by decide) twoPosts_ids
    (completeRun_numbered 1) (completeRun_numbered 2) hmix oldTables_fresh.1
    oldTables_fresh.2 hacts
  obtain rfl := acts_interleaving (completeRun_numbered 1)
    (completeRun_numbered 2) hmix hacts
  have hrow : ∃ row ∈ (executeAll (tr.filterMap executed) oldTables).posts.rows,
      row.postId = (numbered 1).id ∧ row.stale = true := by
    decide
  obtain ⟨row, hmem, hid, hstale⟩ := hrow
  have hlive := hsafe.live _ List.mem_cons_self row hmem hid
  rw [hstale] at hlive
  cases hlive

end VideoStorage.Chain
