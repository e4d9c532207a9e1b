import VideoStorage.Chain.Posts

/-!
# What the statements leave

Rules for lists of statements: a row stays what the last statement that touches
it made of it (`written_stays`), a row of a run comes from an upsert of the run
(`live_of_run`), and behind the last change of the posts the users become their
rollup (`mem_users_iff`).
-/

namespace VideoStorage.Chain

open Foundation

variable {t : ChainTables} {s : ChainStatement} {ss : List ChainStatement}
  {post : ChainPost} {runId : Uuid} {row : YralPost} {k : String}

/-- What each statement of a list keeps, the list keeps. -/
theorem executeAll_invariant (Inv : ChainTables → Prop)
    (h : ∀ s ∈ ss, ∀ t, Inv t → Inv (s.apply t)) (ht : Inv t) :
    Inv (executeAll ss t) := by
  induction ss generalizing t with
  | nil => exact ht
  | cons s ss ih =>
      rw [executeAll_cons]
      exact ih (fun s' hs' => h s' (List.mem_cons_of_mem _ hs'))
        (h s List.mem_cons_self t ht)

/-! ## The row of a post -/

/-- The statements that may change the row of a key. -/
def ChainStatement.touches (k : String) : ChainStatement → Bool
  | .upsertChainPost post _ => post.postId = k
  | .markStalePosts _ => true
  | .deleteUsers | .insertUsers => false

theorem get_apply_of_not_touches (h : s.touches k = false) :
    (s.apply t).posts.get k = t.posts.get k := by
  cases s with
  | upsertChainPost post runId =>
      have hne : post.postId ≠ k := of_decide_eq_false h
      exact Rows.get_upsert_of_ne _ hne.symm
  | markStalePosts runId => cases h
  | deleteUsers => rfl
  | insertUsers => rfl

theorem get_apply_upsert :
    ((ChainStatement.upsertChainPost post runId).apply t).posts.get post.postId
      = some (post.row runId) :=
  Rows.get_upsert_self t.posts (post.row runId)

theorem get_apply_mark :
    ((ChainStatement.markStalePosts runId).apply t).posts.get k
      = (t.posts.get k).map (·.marked runId) :=
  Rows.get_update _ _ (YralPost.postId_marked runId) _

theorem mem_apply_mark :
    row ∈ ((ChainStatement.markStalePosts runId).apply t).posts.rows ↔
      ∃ row₀ ∈ t.posts.rows, row₀.marked runId = row :=
  Rows.mem_update _ _ (YralPost.postId_marked runId)

/-- A post has a row from its first upsert on. -/
theorem get_isSome_apply (h : (t.posts.get k).isSome) :
    ((s.apply t).posts.get k).isSome := by
  cases htouch : s.touches k with
  | false => rwa [get_apply_of_not_touches htouch]
  | true =>
      cases s with
      | upsertChainPost post runId =>
          obtain rfl : post.postId = k := of_decide_eq_true htouch
          rw [get_apply_upsert]
          rfl
      | markStalePosts runId => rwa [get_apply_mark, Option.isSome_map]
      | deleteUsers => cases htouch
      | insertUsers => cases htouch

/-- Only an upsert makes a row. -/
theorem get_none_apply (h : ∀ post r, s = .upsertChainPost post r →
    post.postId ≠ k) (hget : t.posts.get k = none) :
    (s.apply t).posts.get k = none := by
  cases s with
  | upsertChainPost post r =>
      have hother : (ChainStatement.upsertChainPost post r).touches k = false :=
        decide_eq_false (h post r rfl)
      rwa [get_apply_of_not_touches hother]
  | markStalePosts r => rw [get_apply_mark, hget, Option.map_none]
  | deleteUsers => exact hget
  | insertUsers => exact hget

theorem marked_row (post : ChainPost) (runId : Uuid) :
    (post.row runId).marked runId = post.row runId := by
  unfold YralPost.marked
  exact if_neg fun h => h.2 rfl

/-- The statements that leave the row of a post as its upsert wrote it. -/
def ChainStatement.spares (post : ChainPost) (runId : Uuid) :
    ChainStatement → Prop
  | .upsertChainPost post' runId' =>
      post'.postId = post.postId → post' = post ∧ runId' = runId
  | .markStalePosts runId' => runId' = runId
  | .deleteUsers | .insertUsers => True

theorem get_apply_of_spares (h : s.spares post runId)
    (hget : t.posts.get post.postId = some (post.row runId)) :
    (s.apply t).posts.get post.postId = some (post.row runId) := by
  cases s with
  | upsertChainPost post' runId' =>
      by_cases hkey : post'.postId = post.postId
      · obtain ⟨rfl, rfl⟩ := h hkey
        exact get_apply_upsert
      · have hother : (ChainStatement.upsertChainPost post' runId').touches
            post.postId = false := decide_eq_false hkey
        rwa [get_apply_of_not_touches hother]
  | markStalePosts runId' =>
      obtain rfl : runId' = runId := h
      rw [get_apply_mark, hget, Option.map_some, marked_row]
  | deleteUsers => exact hget
  | insertUsers => exact hget

/-- **A row stays** as the upsert wrote it, if all that comes spares it. -/
theorem written_stays (hmem : .upsertChainPost post runId ∈ ss)
    (hspares : ∀ s ∈ ss, s.spares post runId) :
    (executeAll ss t).posts.get post.postId = some (post.row runId) := by
  obtain ⟨before, after, rfl⟩ := List.append_of_mem hmem
  rw [executeAll_append, executeAll_cons]
  refine executeAll_invariant
    (fun t => t.posts.get post.postId = some (post.row runId))
    (fun s hs t hget => get_apply_of_spares ?_ hget) get_apply_upsert
  exact hspares s (List.mem_append_right _ (List.mem_cons_of_mem _ hs))

/-! ## The rows of a run -/

theorem stale_marked (h : (row.marked runId).stale = false) :
    row.marked runId = row ∧ row.snapshotRunId = some runId := by
  unfold YralPost.marked at h ⊢
  split_ifs at h ⊢ with hcond
  refine ⟨rfl, ?_⟩
  by_contra hne
  exact hcond ⟨h, hne⟩

/-- No row is of the run. -/
def ChainTables.Fresh (runId : Uuid) (t : ChainTables) : Prop :=
  ∀ row ∈ t.posts.rows, row.snapshotRunId ≠ some runId

/-- A live row of the run is as an upsert of the run wrote it. -/
theorem live_of_run (hfresh : t.Fresh runId)
    (hrow : row ∈ (executeAll ss t).live)
    (hrun : row.snapshotRunId = some runId) :
    ∃ post, .upsertChainPost post runId ∈ ss ∧ row = post.row runId := by
  have hall : ∀ row ∈ (executeAll ss t).live, row.snapshotRunId = some runId →
      ∃ post, .upsertChainPost post runId ∈ ss ∧ row = post.row runId := by
    refine executeAll_invariant (fun t => ∀ row ∈ t.live,
      row.snapshotRunId = some runId →
        ∃ post, .upsertChainPost post runId ∈ ss ∧ row = post.row runId) ?_ ?_
    · intro s hs t ih row hrow hrun
      obtain ⟨hmem, hlive⟩ := ChainTables.mem_live.mp hrow
      cases s with
      | upsertChainPost post runId' =>
          rcases (Rows.mem_upsert _).mp hmem with rfl | ⟨hmem, -⟩
          · obtain rfl := Option.some.inj hrun
            exact ⟨post, hs, rfl⟩
          · exact ih row (ChainTables.mem_live.mpr ⟨hmem, hlive⟩) hrun
      | markStalePosts runId' =>
          -- a row that is live behind a mark is a row before it
          obtain ⟨row₀, hmem₀, rfl⟩ := mem_apply_mark.mp hmem
          obtain ⟨heq, -⟩ := stale_marked hlive
          rw [heq] at hlive hrun ⊢
          exact ih row₀ (ChainTables.mem_live.mpr ⟨hmem₀, hlive⟩) hrun
      | deleteUsers => exact ih row hrow hrun
      | insertUsers => exact ih row hrow hrun
    · intro row hrow hrun
      exact absurd hrun (hfresh row (ChainTables.mem_live.mp hrow).1)
  exact hall row hrow hrun

/-- Behind a mark the live rows are those of its run. -/
theorem live_apply_mark
    (h : row ∈ ((ChainStatement.markStalePosts runId).apply t).live) :
    row.snapshotRunId = some runId := by
  obtain ⟨hmem, hlive⟩ := ChainTables.mem_live.mp h
  obtain ⟨row₀, -, rfl⟩ := mem_apply_mark.mp hmem
  obtain ⟨heq, hrun⟩ := stale_marked hlive
  rw [heq]
  exact hrun

theorem live_nodup (t : ChainTables) : t.live.Nodup :=
  (List.Nodup.of_map _ t.posts.keyed).sublist List.filter_sublist

/-! ## The users -/

/-- The statements of `rebuild_yral_users`. -/
def ChainStatement.OnUsers (s : ChainStatement) : Prop :=
  s = .deleteUsers ∨ s = .insertUsers

theorem posts_apply_of_onUsers (h : s.OnUsers) : (s.apply t).posts = t.posts := by
  rcases h with rfl | rfl <;> rfl

theorem posts_executeAll_of_onUsers (h : ∀ s ∈ ss, s.OnUsers) :
    (executeAll ss t).posts = t.posts :=
  executeAll_invariant (fun t' => t'.posts = t.posts)
    (fun s hs _ ih => (posts_apply_of_onUsers (h s hs)).trans ih) rfl

theorem mem_rollups {rows : List YralPost} {u : YralUser} :
    u ∈ rollups rows ↔
      u.creatorPrincipal ∈ rows.map (·.creatorPrincipal) ∧
      u = rollup rows u.creatorPrincipal := by
  unfold rollups
  rw [List.mem_map]
  constructor
  · rintro ⟨creator, hcreator, rfl⟩
    exact ⟨List.mem_dedup.mp hcreator, rfl⟩
  · rintro ⟨hcreator, hu⟩
    exact ⟨_, List.mem_dedup.mpr hcreator, hu.symm⟩

theorem rollups_keyed (rows : List YralPost) :
    ((rollups rows).map (·.creatorPrincipal)).Nodup := by
  have hkeys : (rollups rows).map (·.creatorPrincipal)
      = (rows.map (·.creatorPrincipal)).dedup := by
    unfold rollups
    rw [List.map_map]
    exact List.map_id _
  rw [hkeys]
  exact List.nodup_dedup _

/-- A rollup counts rows, in whatever order they come. -/
theorem mem_rollups_perm {rows rows' : List YralPost} (h : rows.Perm rows')
    {u : YralUser} : u ∈ rollups rows ↔ u ∈ rollups rows' := by
  have htimes : ((rows.filter (·.creatorPrincipal = u.creatorPrincipal)).map
      (·.createdAt)).Perm
      ((rows'.filter (·.creatorPrincipal = u.creatorPrincipal)).map
        (·.createdAt)) := (h.filter _).map _
  have hrollup : rollup rows u.creatorPrincipal
      = rollup rows' u.creatorPrincipal := by
    unfold rollup
    rw [YralUser.mk.injEq]
    refine ⟨rfl, htimes.length_eq, ?_, ?_⟩
    · refine Option.ext fun a => ?_
      simp only [List.min?_eq_some_iff, htimes.mem_iff]
    · refine Option.ext fun a => ?_
      simp only [List.max?_eq_some_iff, htimes.mem_iff]
  rw [mem_rollups, mem_rollups, (h.map _).mem_iff, hrollup]

/-- A rollup looks at the creators and the times alone. -/
theorem rollups_map_congr {P : Type} {f g : P → YralPost} {ps : List P}
    (hcreator : ∀ p, (f p).creatorPrincipal = (g p).creatorPrincipal)
    (htime : ∀ p, (f p).createdAt = (g p).createdAt) :
    rollups (ps.map f) = rollups (ps.map g) := by
  have hrollup : ∀ creator,
      rollup (ps.map f) creator = rollup (ps.map g) creator := by
    intro creator
    unfold rollup
    simp only [List.filter_map, List.map_map, Function.comp_def, hcreator, htime]
  unfold rollups
  simp only [List.map_map, Function.comp_def, hcreator]
  exact List.map_congr_left fun creator _ => hrollup creator

/-- No user is without a live post. -/
def ChainTables.Known (t : ChainTables) : Prop :=
  ∀ u ∈ t.users.rows, u.creatorPrincipal ∈ t.live.map (·.creatorPrincipal)

/-- Who has live posts is there, with their rollup. -/
def ChainTables.Current (t : ChainTables) : Prop :=
  ∀ u ∈ rollups t.live, u ∈ t.users.rows

theorem known_deleteUsers (t : ChainTables) :
    (ChainStatement.deleteUsers.apply t).Known := by
  intro u hu
  obtain ⟨-, hkept⟩ := (Rows.mem_delete _).mp hu
  exact not_not.mp (of_decide_eq_false hkept)

theorem ChainTables.Known.insertUsers (h : t.Known) :
    (ChainStatement.insertUsers.apply t).Known := by
  intro u hu
  rcases (Rows.mem_upsertAll _ (rollups_keyed _)).mp hu with hnew | ⟨hold, -⟩
  · exact (mem_rollups.mp hnew).1
  · exact h u hold

theorem current_insertUsers (t : ChainTables) :
    (ChainStatement.insertUsers.apply t).Current :=
  fun _ hu => (Rows.mem_upsertAll _ (rollups_keyed _)).mpr (.inl hu)

theorem ChainTables.Current.deleteUsers (h : t.Current) :
    (ChainStatement.deleteUsers.apply t).Current := by
  intro u hu
  refine (Rows.mem_delete _).mpr ⟨h u hu, decide_eq_false ?_⟩
  exact not_not.mpr (mem_rollups.mp hu).1

theorem known_executeAll (hss : ∀ s ∈ ss, s.OnUsers) (h : t.Known) :
    (executeAll ss t).Known := by
  refine executeAll_invariant ChainTables.Known (fun s hs t ht => ?_) h
  rcases hss s hs with rfl | rfl
  · exact known_deleteUsers t
  · exact ht.insertUsers

theorem current_executeAll (hss : ∀ s ∈ ss, s.OnUsers) (h : t.Current) :
    (executeAll ss t).Current := by
  refine executeAll_invariant ChainTables.Current (fun s hs t ht => ?_) h
  rcases hss s hs with rfl | rfl
  · exact ht.deleteUsers
  · exact current_insertUsers t

/-- **The rebuild**: once both of its statements have been executed, among any
others on the users, the users are the rollup of the live posts. -/
theorem mem_users_iff (hss : ∀ s ∈ ss, s.OnUsers)
    (hdelete : .deleteUsers ∈ ss) (hinsert : .insertUsers ∈ ss) {u : YralUser} :
    u ∈ (executeAll ss t).users.rows ↔ u ∈ rollups t.live := by
  have hlive : (executeAll ss t).live = t.live := by
    unfold ChainTables.live
    rw [posts_executeAll_of_onUsers hss]
  have hknown : (executeAll ss t).Known := by
    obtain ⟨before, after, rfl⟩ := List.append_of_mem hdelete
    rw [executeAll_append, executeAll_cons]
    refine known_executeAll (fun s hs => hss s ?_) (known_deleteUsers _)
    exact List.mem_append_right _ (List.mem_cons_of_mem _ hs)
  have hcurrent : (executeAll ss t).Current := by
    obtain ⟨before, after, rfl⟩ := List.append_of_mem hinsert
    rw [executeAll_append, executeAll_cons]
    refine current_executeAll (fun s hs => hss s ?_) (current_insertUsers _)
    exact List.mem_append_right _ (List.mem_cons_of_mem _ hs)
  rw [← hlive]
  refine ⟨fun hu => ?_, fun hu => hcurrent u hu⟩
  -- the row of that creator is the rollup, and there is only one
  have hrollup : rollup (executeAll ss t).live u.creatorPrincipal
      ∈ rollups (executeAll ss t).live := mem_rollups.mpr ⟨hknown u hu, rfl⟩
  rwa [Rows.eq_of_key hu (hcurrent _ hrollup) rfl]

end VideoStorage.Chain
