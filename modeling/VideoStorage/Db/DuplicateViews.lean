import VideoStorage.Db.Tables
import VideoStorage.Foundation.Conditions
import VideoStorage.Foundation.Scan
import Mathlib.Data.String.Basic
import Mathlib.Order.OrderDual

/-!
# Duplicate views

`get_duplicates_for_video` joins `video_index` with itself, and
`get_duplicate_phashes` groups it. Both come down to the videos of one hash
(`videosOf`): the join finds them from one of them, and the groups are those with
more than one (`duplicate_views_agree`).
-/

namespace VideoStorage.Db

open Foundation

structure DuplicateVideo where
  videoId : String
  storjKey : Option String
  hetznerKey : Option String
  deriving DecidableEq, Repr

structure DuplicatePhash where
  phash : String
  hashKind : String
  hashVersion : String
  videos : List DuplicateVideo
  deriving DecidableEq, Repr

/-- A row of `video_index`, with its key. -/
abbrev IndexRow : Type := String × VideoIndexRow

/-- A hash with its kind and its version. -/
abbrev VideoHash : Type := String × String × String

def indexRows (t : VideoTables) : List IndexRow :=
  t.videoIndex.entries.map fun e => (e.1, e.2)

def duplicateVideo (r : IndexRow) : DuplicateVideo :=
  ⟨r.1, r.2.storjKey, r.2.hetznerKey⟩

/-- The three columns read as `String`s: a null is a panic. -/
def hashColumns (phash kind version : Option String) : Option VideoHash := do
  let phash ← phash
  let kind ← kind
  let version ← version
  some (phash, kind, version)

def hashOf (r : IndexRow) : Option VideoHash :=
  hashColumns r.2.phash r.2.phashKind r.2.phashVersion

/-- The `IS NOT NULL`s of both queries. -/
def isHashed (r : IndexRow) : Cond :=
  .and (.and (.isNotNull r.2.phash) (.isNotNull r.2.phashKind))
    (.isNotNull r.2.phashVersion)

/-! ## The video's own view -/

/-- `ON vi2.phash = vi1.phash AND …`. -/
def joins (vi1 vi2 : IndexRow) : Cond :=
  .and (.and (.same vi2.2.phash vi1.2.phash)
    (.same vi2.2.phashKind vi1.2.phashKind))
    (.same vi2.2.phashVersion vi1.2.phashVersion)

def joinedRows (t : VideoTables) (videoId : String) : List IndexRow :=
  ((indexRows t).filter fun vi1 => vi1.1 = videoId ∧ isHashed vi1 = some true).flatMap
    fun vi1 => (indexRows t).filter fun vi2 => joins vi1 vi2 = some true

/-- Nothing is a panic. -/
def getDuplicatesForVideo (t : VideoTables) (videoId : String) :
    Option (Option DuplicatePhash) :=
  let rows := orderLimit Prod.fst none (joinedRows t videoId)
  if rows.length ≤ 1 then some none
  else do
    let first ← rows.head?
    let (phash, kind, version) ← hashOf first
    some (some ⟨phash, kind, version, rows.map duplicateVideo⟩)

/-! ## The view of all -/

abbrev HashGroup : Type :=
  (Option String × Option String × Option String) × List IndexRow

/-- `GROUP BY … HAVING COUNT(*) > 1`. -/
def duplicateGroups (t : VideoTables) : List HashGroup :=
  (groups (fun r : IndexRow => (r.2.phash, r.2.phashKind, r.2.phashVersion))
    ((indexRows t).filter fun r => isHashed r = some true)).filter
      fun g => 1 < g.2.length

/-- `array_agg(column ORDER BY vi.video_id)`. -/
def arrayAgg {α : Type} (column : IndexRow → α) (rows : List IndexRow) : List α :=
  (orderLimit Prod.fst none rows).map column

/-- A row of the result; the arrays are zipped by position. -/
def groupView (g : HashGroup) : Option DuplicatePhash := do
  let (phash, kind, version) ← hashColumns g.1.1 g.1.2.1 g.1.2.2
  let videoIds := arrayAgg Prod.fst g.2
  let storjKeys := arrayAgg (·.2.storjKey) g.2
  let hetznerKeys := arrayAgg (·.2.hetznerKey) g.2
  some ⟨phash, kind, version, ((videoIds.zip storjKeys).zip hetznerKeys).map
    fun row => ⟨row.1.1, row.1.2, row.2⟩⟩

/-- `ORDER BY COUNT(*) DESC LIMIT 100`, groups of one size in an order of the
database's choice. -/
def getDuplicatePhashes (order : Shuffle HashGroup) (t : VideoTables) :
    Option (List DuplicatePhash) :=
  (orderLimit (fun g : HashGroup => OrderDual.toDual g.2.length) (some 100)
    (order.apply (duplicateGroups t))).mapM groupView

/-! ## The videos of a hash -/

variable {t : VideoTables} {videoId : String} {h : VideoHash} {r vi1 vi2 : IndexRow}

theorem hashColumns_eq_some {phash kind version : Option String} :
    hashColumns phash kind version = some h ↔
      phash = some h.1 ∧ kind = some h.2.1 ∧ version = some h.2.2 := by
  obtain ⟨a, b, c⟩ := h
  cases phash <;> cases kind <;> cases version <;> simp [hashColumns]

theorem isHashed_iff : isHashed r = some true ↔ ∃ h, hashOf r = some h := by
  simp only [isHashed, Cond.and_eq_true, Cond.isNotNull_eq_true,
    Option.isSome_iff_exists, hashOf, hashColumns_eq_some]
  constructor
  · rintro ⟨⟨⟨a, ha⟩, b, hb⟩, c, hc⟩
    exact ⟨(a, b, c), ha, hb, hc⟩
  · rintro ⟨h, ha, hb, hc⟩
    exact ⟨⟨⟨_, ha⟩, _, hb⟩, _, hc⟩

/-- Rows are joined when they have the same hash, and none of it is null. -/
theorem joins_iff : joins vi1 vi2 = some true ↔
    ∃ h, hashOf vi1 = some h ∧ hashOf vi2 = some h := by
  simp only [joins, Cond.and_eq_true, Cond.same_eq_true, hashOf, hashColumns_eq_some]
  constructor
  · rintro ⟨⟨⟨a, ha, ha'⟩, b, hb, hb'⟩, c, hc, hc'⟩
    exact ⟨(a, b, c), ⟨ha', hb', hc'⟩, ha, hb, hc⟩
  · rintro ⟨h, ⟨ha', hb', hc'⟩, ha, hb, hc⟩
    exact ⟨⟨⟨_, ha, ha'⟩, _, hb, hb'⟩, _, hc, hc'⟩

def rowsOf (t : VideoTables) (h : VideoHash) : List IndexRow :=
  (indexRows t).filter fun r => hashOf r = some h

/-- The rows of a hash, by their ids. -/
def videosOf (t : VideoTables) (h : VideoHash) : List IndexRow :=
  orderLimit Prod.fst none (rowsOf t h)

/-- What both views show of a hash. -/
def viewOf (t : VideoTables) (h : VideoHash) : DuplicatePhash :=
  ⟨h.1, h.2.1, h.2.2, (videosOf t h).map duplicateVideo⟩

/-- The hash of a video, if it has all of one. -/
def videoHash (t : VideoTables) (videoId : String) : Option VideoHash :=
  (t.video videoId).bind fun v => hashOf (videoId, v)

theorem mem_indexRows : r ∈ indexRows t ↔ t.video r.1 = some r.2 := by
  obtain ⟨id, v⟩ := r
  show _ ↔ t.videoIndex.lookup id = some v
  rw [indexRows, List.mem_map, ← Option.mem_def, AList.mem_lookup_iff]
  constructor
  · rintro ⟨⟨_, _⟩, he, heq⟩
    cases heq
    exact he
  · exact fun he => ⟨_, he, rfl⟩

theorem indexRows_nodup : ((indexRows t).map Prod.fst).Nodup := by
  have hkeys : (t.videoIndex.entries.map Sigma.fst).Nodup := t.videoIndex.nodupKeys
  unfold indexRows
  rwa [List.map_map]

theorem videosOf_perm : (videosOf t h).Perm (rowsOf t h) :=
  orderLimit_perm nofun

theorem mem_videosOf : r ∈ videosOf t h ↔ r ∈ indexRows t ∧ hashOf r = some h := by
  rw [videosOf_perm.mem_iff, rowsOf, List.mem_filter, decide_eq_true_eq]

/-- **A video is in the view of its own hash**, and of no other. -/
theorem mem_viewOf : videoId ∈ (viewOf t h).videos.map (·.videoId) ↔
    videoHash t videoId = some h := by
  show videoId ∈ ((videosOf t h).map duplicateVideo).map _ ↔ _
  rw [List.map_map, List.mem_map, videoHash, Option.bind_eq_some_iff]
  constructor
  · rintro ⟨⟨_, v⟩, hmem, rfl⟩
    obtain ⟨hrow, hhash⟩ := mem_videosOf.mp hmem
    exact ⟨v, mem_indexRows.mp hrow, hhash⟩
  · rintro ⟨v, hv, hhash⟩
    exact ⟨(videoId, v), mem_videosOf.mpr ⟨mem_indexRows.mpr hv, hhash⟩, rfl⟩

/-! ## What the join finds -/

/-- Under distinct keys a condition on the key leaves one row or none. -/
theorem filter_own {rows : List IndexRow} {p : IndexRow → Bool}
    (hnodup : (rows.map Prod.fst).Nodup) (hr : r ∈ rows) :
    (rows.filter fun x => decide (x.1 = r.1) && p x) = if p r then [r] else [] := by
  induction rows with
  | nil => cases hr
  | cons x rows ih =>
      obtain ⟨hx, hrows⟩ := List.nodup_cons.mp hnodup
      rcases List.mem_cons.mp hr with rfl | hr
      · have hrest : (rows.filter fun x => decide (x.1 = r.1) && p x) = [] := by
          rw [List.filter_eq_nil_iff]
          intro y hy hand
          obtain ⟨heq, -⟩ := Bool.and_eq_true_iff.mp hand
          exact hx (List.mem_map.mpr ⟨y, hy, of_decide_eq_true heq⟩)
        rw [List.filter_cons, hrest]
        simp
      · have hne : x.1 ≠ r.1 := by
          intro heq
          exact hx (List.mem_map.mpr ⟨r, hr, heq.symm⟩)
        rw [List.filter_cons, if_neg (by simp [hne]), ih hrows hr]

theorem joinedRows_of_hash (hhash : videoHash t videoId = some h) :
    joinedRows t videoId = rowsOf t h := by
  obtain ⟨v, hv, hown⟩ := Option.bind_eq_some_iff.mp hhash
  have hrow : (videoId, v) ∈ indexRows t := mem_indexRows.mpr hv
  have hhashed : isHashed (videoId, v) = some true := isHashed_iff.mpr ⟨h, hown⟩
  have hfilter := filter_own (p := fun x => decide (isHashed x = some true))
    indexRows_nodup hrow
  unfold joinedRows rowsOf
  simp only [Bool.decide_and]
  rw [hfilter, if_pos (decide_eq_true hhashed), List.flatMap_singleton]
  apply List.filter_congr
  intro r _
  rw [decide_eq_decide, joins_iff, hown]
  constructor
  · rintro ⟨h', heq, hr⟩
    rw [hr, ← heq]
  · exact fun hr => ⟨h, rfl, hr⟩

theorem joinedRows_of_none (hnone : videoHash t videoId = none) :
    joinedRows t videoId = [] := by
  have hown : ((indexRows t).filter fun vi1 =>
      vi1.1 = videoId ∧ isHashed vi1 = some true) = [] := by
    rw [List.filter_eq_nil_iff]
    rintro ⟨id, v⟩ hrow hand
    obtain ⟨rfl, hhashed⟩ := of_decide_eq_true hand
    obtain ⟨h, hh⟩ := isHashed_iff.mp hhashed
    have hsome : videoHash t id = some h :=
      Option.bind_eq_some_iff.mpr ⟨v, mem_indexRows.mp hrow, hh⟩
    rw [hnone] at hsome
    cases hsome
  unfold joinedRows
  rw [hown]
  rfl

/-- **A video's own view**: the others of its hash, if there are any. -/
theorem getDuplicatesForVideo_eq : getDuplicatesForVideo t videoId =
    some ((videoHash t videoId).bind fun h =>
      if (videosOf t h).length ≤ 1 then none else some (viewOf t h)) := by
  unfold getDuplicatesForVideo
  cases hhash : videoHash t videoId with
  | none =>
      rw [joinedRows_of_none hhash]
      rfl
  | some h =>
      rw [joinedRows_of_hash hhash, Option.bind_some]
      show (if (videosOf t h).length ≤ 1 then some none else _) = _
      by_cases hone : (videosOf t h).length ≤ 1
      · rw [if_pos hone, if_pos hone]
      · rw [if_neg hone, if_neg hone]
        cases hrows : videosOf t h with
        | nil => simp [hrows] at hone
        | cons first rest =>
            have hfirst : hashOf first = some h :=
              (mem_videosOf.mp (hrows ▸ List.mem_cons_self)).2
            have hrows' : orderLimit Prod.fst none (rowsOf t h) = first :: rest := hrows
            simp only [hrows', List.head?_cons, Option.bind_eq_bind, Option.bind_some,
              hfirst]
            simp [viewOf, hrows]

/-! ## What the groups show -/

def groupOf (t : VideoTables) (h : VideoHash) : HashGroup :=
  ((some h.1, some h.2.1, some h.2.2), rowsOf t h)

theorem rowsOf_eq_group : rowsOf t h =
    ((indexRows t).filter fun r => isHashed r = some true).filter fun r =>
      (r.2.phash, r.2.phashKind, r.2.phashVersion) = (groupOf t h).1 := by
  unfold rowsOf
  rw [List.filter_filter]
  apply List.filter_congr
  intro r _
  rw [Bool.eq_iff_iff, Bool.and_eq_true]
  simp only [decide_eq_true_eq, isHashed_iff]
  simp only [hashOf, hashColumns_eq_some, groupOf, Prod.mk.injEq]
  constructor
  · exact fun hr => ⟨hr, h, hr⟩
  · exact fun hr => hr.1

/-- **The groups are those of the hashes** with more than one video. -/
theorem mem_duplicateGroups {g : HashGroup} : g ∈ duplicateGroups t ↔
    ∃ h, g = groupOf t h ∧ 1 < (videosOf t h).length := by
  unfold duplicateGroups
  rw [List.mem_filter, mem_groups, decide_eq_true_eq]
  constructor
  · rintro ⟨⟨hkey, hrows⟩, hmany⟩
    obtain ⟨r, hr, hrkey⟩ := List.mem_map.mp hkey
    obtain ⟨h, hh⟩ := isHashed_iff.mp (of_decide_eq_true (List.mem_filter.mp hr).2)
    obtain ⟨hp, hk, hv⟩ := hashColumns_eq_some.mp hh
    have hgroup : g.1 = (groupOf t h).1 := by
      rw [← hrkey, hp, hk, hv]
      rfl
    have hg : g = groupOf t h := by
      refine Prod.ext hgroup ?_
      rw [hrows, hgroup]
      exact rowsOf_eq_group.symm
    refine ⟨h, hg, ?_⟩
    rw [videosOf_perm.length_eq]
    rwa [hg] at hmany
  · rintro ⟨h, rfl, hmany⟩
    rw [videosOf_perm.length_eq] at hmany
    refine ⟨⟨?_, rowsOf_eq_group⟩, hmany⟩
    -- a group has a row, and the row has its key
    obtain ⟨r, hr⟩ := List.exists_mem_of_length_pos (Nat.zero_lt_of_lt hmany)
    rw [rowsOf_eq_group, List.mem_filter, decide_eq_true_eq] at hr
    exact List.mem_map.mpr ⟨r, hr.1, hr.2⟩

/-- The arrays have one order, so a position is a row. -/
theorem groupView_groupOf : groupView (groupOf t h) = some (viewOf t h) := by
  have hcolumns : hashColumns (some h.1) (some h.2.1) (some h.2.2) = some h :=
    hashColumns_eq_some.mpr ⟨rfl, rfl, rfl⟩
  unfold groupView groupOf
  simp only [hcolumns, Option.bind_eq_bind, Option.bind_some, arrayAgg, List.zip_map',
    List.map_map]
  rfl

theorem duplicateGroups_keys : ((duplicateGroups t).map Prod.fst).Nodup := by
  have hkeys : ((groups (fun r : IndexRow =>
      (r.2.phash, r.2.phashKind, r.2.phashVersion)) ((indexRows t).filter
        fun r => isHashed r = some true)).map Prod.fst).Nodup := by
    rw [groups_keys]
    exact List.nodup_dedup _
  exact hkeys.sublist (List.filter_sublist.map _)

theorem mapM_option {α β : Type} {f : α → Option β} {l : List α}
    (h : ∀ a ∈ l, ∃ b, f a = some b) :
    ∃ bs, l.mapM f = some bs ∧ bs.map some = l.map f := by
  induction l with
  | nil => exact ⟨[], rfl, rfl⟩
  | cons a l ih =>
      obtain ⟨b, hb⟩ := h a List.mem_cons_self
      obtain ⟨bs, hbs, hmap⟩ := ih fun a' ha' => h a' (List.mem_cons_of_mem _ ha')
      refine ⟨b :: bs, ?_, ?_⟩
      · rw [List.mapM_cons, hb, hbs]
        rfl
      · rw [List.map_cons, List.map_cons, hb, hmap]

/-- What can be read off the results as off the elements is the same list. -/
theorem map_of_map_some {α β γ : Type} {f : α → Option β} {k : β → γ} {k' : α → γ}
    {l : List α} {bs : List β} (h : bs.map some = l.map f)
    (hk : ∀ a ∈ l, (f a).map k = some (k' a)) : bs.map k = l.map k' := by
  apply List.map_injective_iff.mpr (Option.some_injective _)
  have hsome := congrArg (List.map (Option.map k)) h
  rw [List.map_map, List.map_map] at hsome
  rw [List.map_map, List.map_map]
  exact hsome.trans (List.map_congr_left hk)

def DuplicatePhash.hash (g : DuplicatePhash) : VideoHash :=
  (g.phash, g.hashKind, g.hashVersion)

/-- All groups are shown, each as the view of its hash. -/
theorem getDuplicatePhashes_eq (order : Shuffle HashGroup)
    (hlimit : (duplicateGroups t).length ≤ 100) :
    ∃ gs, getDuplicatePhashes order t = some gs ∧
      (∀ g, g ∈ gs ↔ ∃ h, g = viewOf t h ∧ 1 < (videosOf t h).length) ∧
      (gs.map DuplicatePhash.hash).Nodup := by
  let sorted := orderLimit (fun g : HashGroup => OrderDual.toDual g.2.length)
    (some 100) (order.apply (duplicateGroups t))
  have hperm : sorted.Perm (duplicateGroups t) := by
    refine (orderLimit_perm ?_).trans (order.perm _)
    rintro n ⟨⟩
    rwa [(order.perm _).length_eq]
  have hview : ∀ g ∈ sorted, ∃ h, g = groupOf t h ∧ groupView g = some (viewOf t h) ∧
      1 < (videosOf t h).length := by
    intro g hg
    obtain ⟨h, rfl, hmany⟩ := mem_duplicateGroups.mp (hperm.mem_iff.mp hg)
    exact ⟨h, rfl, groupView_groupOf, hmany⟩
  obtain ⟨gs, hgs, hmap⟩ := mapM_option (f := groupView) (l := sorted) fun g hg => by
    obtain ⟨h, -, hg', -⟩ := hview g hg
    exact ⟨_, hg'⟩
  have hmem : ∀ g, g ∈ gs ↔ ∃ h, g = viewOf t h ∧ 1 < (videosOf t h).length := by
    intro g
    rw [← List.mem_map_of_injective (Option.some_injective _), hmap, List.mem_map]
    constructor
    · rintro ⟨g', hg', heq⟩
      obtain ⟨h, -, hsome, hmany⟩ := hview g' hg'
      exact ⟨h, Option.some.inj (heq.symm.trans hsome), hmany⟩
    · rintro ⟨h, rfl, hmany⟩
      refine ⟨groupOf t h, ?_, groupView_groupOf⟩
      exact hperm.mem_iff.mpr (mem_duplicateGroups.mpr ⟨h, rfl, hmany⟩)
  refine ⟨gs, hgs, hmem, ?_⟩
  -- the keys of the groups are the hashes of their views
  have hkeys : gs.map (fun g => (some g.phash, some g.hashKind, some g.hashVersion)) =
      sorted.map Prod.fst := by
    refine map_of_map_some hmap fun g hg => ?_
    obtain ⟨h, rfl, hg', -⟩ := hview g hg
    rw [hg']
    rfl
  have hnodup : (gs.map fun g =>
      (some g.phash, some g.hashKind, some g.hashVersion)).Nodup := by
    rw [hkeys]
    exact (hperm.map Prod.fst).nodup_iff.mpr duplicateGroups_keys
  refine List.Nodup.of_map
    (fun h : VideoHash => (some h.1, some h.2.1, some h.2.2)) ?_
  rwa [List.map_map]

/-- The two views of one table. -/
structure ViewsAgree (t : VideoTables) (gs : List DuplicatePhash) : Prop where
  answers : ∀ videoId, getDuplicatesForVideo t videoId ≠ none
  same : ∀ videoId g, getDuplicatesForVideo t videoId = some (some g) ↔
    g ∈ gs ∧ videoId ∈ g.videos.map (·.videoId)
  hashes : (gs.map DuplicatePhash.hash).Nodup
  disjoint : gs.Pairwise fun g g' => ∀ videoId ∈ g.videos.map (·.videoId),
    videoId ∉ g'.videos.map (·.videoId)

/-- **The duplicate views agree** while no group is cut off: a video's own view is
the group it is in, with the same videos in the same order. -/
theorem duplicate_views_agree (t : VideoTables) (order : Shuffle HashGroup)
    (hlimit : (duplicateGroups t).length ≤ 100) :
    ∃ gs, getDuplicatePhashes order t = some gs ∧ ViewsAgree t gs := by
  obtain ⟨gs, hgs, hmem, hhashes⟩ := getDuplicatePhashes_eq order hlimit
  refine ⟨gs, hgs, ?_, ?_, hhashes, ?_⟩
  · intro videoId hnone
    rw [getDuplicatesForVideo_eq] at hnone
    cases hnone
  · intro videoId g
    rw [getDuplicatesForVideo_eq, Option.some_inj, Option.bind_eq_some_iff, hmem]
    constructor
    · rintro ⟨h, hhash, hg⟩
      split_ifs at hg with hone
      obtain rfl := Option.some.inj hg
      exact ⟨⟨h, rfl, Nat.lt_of_not_le hone⟩, mem_viewOf.mpr hhash⟩
    · rintro ⟨⟨h, rfl, hmany⟩, hin⟩
      exact ⟨h, mem_viewOf.mp hin, if_neg (Nat.not_le_of_lt hmany)⟩
  · refine (List.pairwise_map.mp hhashes).imp_of_mem ?_
    intro g g' hg hg' hne videoId hin hin'
    obtain ⟨h, rfl, -⟩ := (hmem g).mp hg
    obtain ⟨h', rfl, -⟩ := (hmem g').mp hg'
    rw [mem_viewOf] at hin hin'
    exact hne (Option.some.inj (hin.symm.trans hin'))

/-- Two videos of one hash, and one of the same hash in an older version. -/
def duplicatedTables : VideoTables :=
  let hashed (version : String) : VideoIndexRow :=
    { phash := some "deadbeef", phashKind := some "videohash",
      phashVersion := some version }
  ((({} : VideoTables).upsertVideo "user/b" (hashed "v1") id).upsertVideo "user/a"
    { hashed "v1" with storjKey := some "user/a.mp4" } id).upsertVideo "user/c"
      (hashed "v0") id

theorem duplicate_views_agree_two : ∃ gs,
    getDuplicatePhashes .none duplicatedTables = some gs ∧
      ViewsAgree duplicatedTables gs :=
  duplicate_views_agree duplicatedTables .none (by decide +kernel)

example : getDuplicatesForVideo duplicatedTables "user/b" =
    some (some ⟨"deadbeef", "videohash", "v1",
      [⟨"user/a", some "user/a.mp4", none⟩, ⟨"user/b", none, none⟩]⟩) := by
  decide +kernel

end VideoStorage.Db
