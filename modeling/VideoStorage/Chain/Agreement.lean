import Mathlib.Data.String.Basic
import VideoStorage.Chain.Audit
import VideoStorage.MediaIndex.MissingHash

/-!
# What the audit queries agree on

`category_d_sample`, `worst_creators` and `category_b_video_ids` classify the
videos again, each with subqueries of its own. Where several master rows have one
canonical key, the audit looks at the one that `LIMIT 1` picks and the others ask
whether any is servable: the queries agree exactly where that makes no difference
(`audit_queries_agree_iff`).
-/

namespace VideoStorage.Chain

open Foundation MediaIndex

/-! ## The queries -/

namespace AuditTables

variable (lower : String → String) (db : AuditTables)

/-- `EXISTS` a master row of the key. -/
def inMaster (vk : String) : Bool :=
  db.media.videos.entries.any fun m => canonicalKey lower m.1 = vk

/-- The master rows of a key that are servable. -/
def servableMasters (vk : String) :
    List ((_ : String) × MediaIndex.ServableVideo) :=
  db.media.videos.entries.filter fun m =>
    canonicalKey lower m.1 = vk && m.2.servableStatus = "servable"

/-- The rows of `category_d_sample`. A group has a post, so its `min` is there. -/
def categoryDRows : List (String × String) :=
  let expected := db.videoGroups.filter fun g => g.2.any (·.isExpected)
  let found := expected.filter fun g =>
    !db.inMaster lower (uidKey lower g.1) && !db.inIndex lower (uidKey lower g.1)
  found.map fun g => (g.1, (g.2.map (·.creatorPrincipal)).min?.getD "")

def categoryDSample (limit : ℤ) : Except SqlError (List (String × String)) := do
  let limit ← limitOf (some limit)
  return orderLimit (·.1) limit (db.categoryDRows lower)

def nonClean : List String :=
  db.expected.filter fun videoUid =>
    !(!(db.servableMasters lower (uidKey lower videoUid)).isEmpty &&
      db.hasHash lower (uidKey lower videoUid))

/-- Each video is in `non_clean` once, so the `JOIN` keeps a post or drops it. -/
def nonCleanPosts : List YralPost :=
  db.live.filter fun p => p.isExpected && p.videoUid ∈ db.nonClean lower

/-- The rows of `worst_creators`. -/
def creatorRows : List (String × ℕ) :=
  countDistinct (·.creatorPrincipal) (·.videoUid) (db.nonCleanPosts lower)

/-- `ORDER BY n DESC`. -/
def worstCreators (limit : ℤ) : Except SqlError (List (String × ℕ)) := do
  let limit ← limitOf (some limit)
  return orderLimit (fun r => OrderDual.toDual r.2) limit (db.creatorRows lower)

/-- The rows of `category_b_video_ids`. -/
def categoryBRows : List String :=
  let unhashed := db.expected.filter fun videoUid =>
    !db.hasHash lower (uidKey lower videoUid)
  let joined := unhashed.flatMap fun videoUid =>
    (db.servableMasters lower (uidKey lower videoUid)).map (·.1)
  joined.dedup

def categoryBVideoIds (limit : ℤ) : Except SqlError (List String) := do
  let limit ← limitOf (some limit)
  return limited limit (db.categoryBRows lower)

/-- No query has more rows than this. -/
def size : ℕ := db.posts.rows.length + db.media.videos.entries.length

end AuditTables

/-! ## Agreement -/

/-- A video that the chain audit counts and does not count as clean. -/
structure NonClean (lower : String → String) (now : ℤ) (db : AuditTables)
    (videoUid : String) : Prop where
  expected : videoUid ∈ db.expected
  category : ∃ k ∈ [Category.b, .c, .d, .e], InCategory lower now db videoUid k

/-- The videos to charge a creator for. -/
def charged (lower : String → String) (now : ℤ) (db : AuditTables)
    (creator : String) : Set String :=
  {videoUid | NonClean lower now db videoUid ∧ ∃ row ∈ db.live,
    row.videoUid = videoUid ∧ row.creatorPrincipal = creator ∧
      row.isExpected = true}

/-- A master row of a video that the chain audit counts in category B. -/
structure MasterOfB (lower : String → String) (now : ℤ) (db : AuditTables)
    (videoId : String) (v : ServableVideo) : Prop where
  master : db.media.get (.video videoId) = some v
  video : ∃ videoUid ∈ db.expected, InCategory lower now db videoUid .b ∧
    canonicalKey lower videoId = uidKey lower videoUid

/-- `media_phash` without a shard. -/
def phashQuery (hashtext : String → ℤ) : MissingHashQuery where
  hashtext := hashtext
  hashKind := Jobs.MediaPhash.hashKind
  hashVersion := Jobs.MediaPhash.hashVersion
  inputMediaVersion := Jobs.MediaPhash.inputMediaVersion
  shard := none

/-- A servable master row without its own hash, which `media_phash` selects once
no failure of the video is backing off. -/
structure DueForHash (now : ℤ) (db : AuditTables) (videoId : String) : Prop where
  servable : ∃ v, db.media.get (.video videoId) = some v ∧
    v.servableStatus = "servable"
  noHash : ∀ hashtext,
    db.media.get (.hash ((phashQuery hashtext).hashKey videoId)) = none
  selected : ∀ hashtext failures,
    MissingHashQuery.notBackingOff now failures videoId →
      ∃ rows, videosMissingCanonicalPhash (phashQuery hashtext) now none none
          db.media failures = .ok rows ∧
        videoId ∈ rows.map (·.videoId)

/-- The three queries say what the chain audit says. -/
structure Agree (lower : String → String) (now limit : ℤ) (db : AuditTables) :
    Prop where
  d : ∃ rows, db.categoryDSample lower limit = .ok rows ∧
    (rows.map (·.1)).Nodup ∧ ∀ videoUid, videoUid ∈ rows.map (·.1) ↔
      videoUid ∈ db.expected ∧ InCategory lower now db videoUid .d
  creators : ∃ rows, db.worstCreators lower limit = .ok rows ∧
    (rows.map (·.1)).Nodup ∧ ∀ creator n, (creator, n) ∈ rows ↔
      n = (charged lower now db creator).ncard ∧ n ≠ 0
  b : ∃ ids, db.categoryBVideoIds lower limit = .ok ids ∧ ids.Nodup ∧
    (∀ videoId, videoId ∈ ids ↔ ∃ v, MasterOfB lower now db videoId v ∧
      v.servableStatus = "servable") ∧
    ∀ videoId ∈ ids, DueForHash now db videoId

/-- If a master row of a video is servable, then so is the one the audit picks. -/
def ServableFirst (lower : String → String) (db : AuditTables) : Prop :=
  ∀ videoUid ∈ db.expected, ∀ m ∈ db.masters lower (uidKey lower videoUid),
    m.2.servableStatus = "servable" →
      (db.masters lower (uidKey lower videoUid)).head?.map
        (·.2.servableStatus) = some "servable"

/-- A video without a hash that has a servable master row has no other. -/
def ServableAlike (lower : String → String) (db : AuditTables) : Prop :=
  ∀ videoUid ∈ db.expected, db.hasHash lower (uidKey lower videoUid) = false →
    ∀ m ∈ db.masters lower (uidKey lower videoUid),
      ∀ m' ∈ db.masters lower (uidKey lower videoUid),
        m.2.servableStatus = "servable" → m'.2.servableStatus = "servable"

/-! ## What a video is -/

variable {lower : String → String} {now limit : ℤ} {db : AuditTables}
  {videoUid vk : String} {m : (_ : String) × MediaIndex.ServableVideo}

theorem mem_masters : m ∈ db.masters lower vk ↔
    db.media.get (.video m.1) = some m.2 ∧ canonicalKey lower m.1 = vk := by
  unfold AuditTables.masters
  rw [List.mem_filter, decide_eq_true_eq]
  exact and_congr_left fun _ => AList.mem_lookup_iff.symm

theorem mem_servableMasters : m ∈ db.servableMasters lower vk ↔
    m ∈ db.masters lower vk ∧ m.2.servableStatus = "servable" := by
  unfold AuditTables.servableMasters AuditTables.masters
  rw [List.mem_filter, List.mem_filter, Bool.and_eq_true, decide_eq_true_eq,
    decide_eq_true_eq, and_assoc]

theorem inMaster_eq_false :
    db.inMaster lower vk = false ↔ db.masters lower vk = [] := by
  unfold AuditTables.inMaster AuditTables.masters
  rw [List.any_eq_false, List.filter_eq_nil_iff]

theorem hasHash_eq_false : db.hasHash lower vk = false → ∀ videoId,
    canonicalKey lower videoId = vk → ∀ hashtext,
      db.media.get (.hash ((phashQuery hashtext).hashKey videoId)) = none := by
  intro h videoId hkey hashtext
  cases hget : db.media.get (.hash ((phashQuery hashtext).hashKey videoId)) with
  | none => rfl
  | some row =>
      -- a row of its own would be one of the key
      have hmem := AList.mem_lookup_iff.mp hget
      have hno := List.any_eq_false.mp h _ hmem
      exact absurd (by simp [hkey, MissingHashQuery.hashKey, phashQuery]) hno

theorem inCategory_a : InCategory lower now db videoUid .a ↔
    (db.masters lower (uidKey lower videoUid)).head?.map
      (·.2.servableStatus) = some "servable" ∧
    db.hasHash lower (uidKey lower videoUid) = true := by
  unfold InCategory Category.filter
  rw [Cond.and_eq_true, Cond.eq_eq_true, Option.some.injEq]
  rfl

theorem inCategory_b : InCategory lower now db videoUid .b ↔
    (db.masters lower (uidKey lower videoUid)).head?.map
      (·.2.servableStatus) = some "servable" ∧
    db.hasHash lower (uidKey lower videoUid) = false := by
  unfold InCategory Category.filter
  rw [Cond.and_eq_true, Cond.eq_eq_true, Option.some.injEq, Bool.not_eq_true']
  rfl

theorem inCategory_d : InCategory lower now db videoUid .d ↔
    db.masters lower (uidKey lower videoUid) = [] ∧
    db.inIndex lower (uidKey lower videoUid) = false := by
  unfold InCategory Category.filter
  rw [Cond.and_eq_true, Option.some.injEq, Option.some.injEq,
    Bool.not_eq_true', Option.isNone_iff_eq_none]
  show Option.map _ _ = none ∧ _ ↔ _
  rw [Option.map_eq_none_iff, List.head?_eq_none_iff]
  rfl

theorem nonClean_iff : NonClean lower now db videoUid ↔
    videoUid ∈ db.expected ∧ ¬ InCategory lower now db videoUid .a := by
  have hother : (∃ k ∈ [Category.b, .c, .d, .e],
      InCategory lower now db videoUid k) ↔
        ¬ InCategory lower now db videoUid .a := by
    unfold InCategory
    simp only [filter_eq_true]
    generalize (db.cat lower now videoUid).category = k
    cases k <;> simp
  exact ⟨fun h => ⟨h.expected, hother.mp h.category⟩,
    fun h => ⟨h.1, hother.mpr h.2⟩⟩

/-! ## What the queries find -/

theorem live_length_le (db : AuditTables) : db.live.length ≤ db.size :=
  (List.length_filter_le _ _).trans (Nat.le_add_right _ _)

/-- Rows that number no more than those of the tables stay under the limit. -/
theorem under_limit {α : Type} {rows : List α} (h : db.size ≤ limit)
    (hlen : rows.length ≤ db.size) : ∀ n ∈ some limit.toNat, rows.length ≤ n := by
  intro n hn
  obtain rfl := Option.mem_some_iff.mp hn
  omega

theorem categoryDRows_keys (lower : String → String) (db : AuditTables) :
    (db.categoryDRows lower).map (·.1) = db.expected.filter fun videoUid =>
      !db.inMaster lower (uidKey lower videoUid) &&
        !db.inIndex lower (uidKey lower videoUid) := by
  unfold AuditTables.categoryDRows AuditTables.expected having
  rw [List.map_map, List.filter_map]
  rfl

theorem categoryDSample_perm (lower : String → String) (h : db.size ≤ limit) :
    ∃ rows, db.categoryDSample lower limit = .ok rows ∧
      rows.Perm (db.categoryDRows lower) := by
  have hlen : (db.categoryDRows lower).length ≤ db.size := by
    unfold AuditTables.categoryDRows
    rw [List.length_map]
    refine (List.length_filter_le _ _).trans ?_
    refine (List.length_filter_le _ _).trans ?_
    exact (groups_length_le _ _).trans (live_length_le db)
  refine ⟨orderLimit (·.1) (some limit.toNat) (db.categoryDRows lower), ?_,
    orderLimit_perm (under_limit h hlen)⟩
  unfold AuditTables.categoryDSample
  rw [limitOf_of_le h]
  rfl

theorem mem_nonClean : videoUid ∈ db.nonClean lower ↔
    videoUid ∈ db.expected ∧
      (db.servableMasters lower (uidKey lower videoUid) = [] ∨
        db.hasHash lower (uidKey lower videoUid) = false) := by
  unfold AuditTables.nonClean
  simp

/-- What a creator is charged for. -/
theorem mem_charges {creator : String} :
    videoUid ∈ valuesOf (·.creatorPrincipal) (·.videoUid)
        (db.nonCleanPosts lower) creator ↔
      videoUid ∈ db.nonClean lower ∧ ∃ row ∈ db.live, row.videoUid = videoUid ∧
        row.creatorPrincipal = creator ∧ row.isExpected = true := by
  unfold AuditTables.nonCleanPosts
  rw [mem_valuesOf]
  simp only [List.mem_filter, Bool.and_eq_true, decide_eq_true_eq]
  constructor
  · rintro ⟨row, ⟨hlive, hexp, hmem⟩, hcreator, rfl⟩
    exact ⟨hmem, row, hlive, rfl, hcreator, hexp⟩
  · rintro ⟨hmem, row, hlive, rfl, hcreator, hexp⟩
    exact ⟨row, ⟨hlive, hexp, hmem⟩, hcreator, rfl⟩

theorem worstCreators_perm (lower : String → String) (h : db.size ≤ limit) :
    ∃ rows, db.worstCreators lower limit = .ok rows ∧
      rows.Perm (db.creatorRows lower) := by
  have hlen : (db.creatorRows lower).length ≤ db.size := by
    unfold AuditTables.creatorRows countDistinct
    rw [List.length_map]
    refine (groups_length_le _ _).trans ?_
    exact (List.length_filter_le _ _).trans (live_length_le db)
  refine ⟨orderLimit (fun r => OrderDual.toDual r.2) (some limit.toNat)
    (db.creatorRows lower), ?_, orderLimit_perm (under_limit h hlen)⟩
  unfold AuditTables.worstCreators
  rw [limitOf_of_le h]
  rfl

theorem mem_categoryBRows {videoId : String} :
    videoId ∈ db.categoryBRows lower ↔ ∃ videoUid ∈ db.expected,
      db.hasHash lower (uidKey lower videoUid) = false ∧
        ∃ v, ⟨videoId, v⟩ ∈ db.servableMasters lower (uidKey lower videoUid) := by
  unfold AuditTables.categoryBRows
  rw [List.mem_dedup, List.mem_flatMap]
  simp only [List.mem_filter, Bool.not_eq_true', List.mem_map, and_assoc]
  refine exists_congr fun videoUid => ?_
  refine and_congr_right fun _ => and_congr_right fun _ => ?_
  constructor
  · rintro ⟨⟨id, v⟩, hm, rfl⟩
    exact ⟨v, hm⟩
  · rintro ⟨v, hm⟩
    exact ⟨⟨videoId, v⟩, hm, rfl⟩

theorem categoryBVideoIds_eq (h : db.size ≤ limit) :
    db.categoryBVideoIds lower limit = .ok (db.categoryBRows lower) := by
  have hkeys : db.categoryBRows lower ⊆ db.media.videos.keys := by
    intro videoId hid
    obtain ⟨videoUid, -, -, v, hm⟩ := mem_categoryBRows.mp hid
    have hget := (mem_masters.mp (mem_servableMasters.mp hm).1).1
    exact List.mem_map_of_mem (AList.mem_lookup_iff.mp hget)
  have hlen : (db.categoryBRows lower).length ≤ db.size := by
    refine (List.subperm_of_subset (List.nodup_dedup _) hkeys).length_le.trans ?_
    unfold AuditTables.size AList.keys List.keys
    rw [List.length_map]
    exact Nat.le_add_left _ _
  unfold AuditTables.categoryBVideoIds
  rw [limitOf_of_le h]
  exact congrArg Except.ok (limited_eq_self (under_limit h hlen))

/-! ## Agreement, query by query -/

theorem agree_d (h : db.size ≤ limit) :
    ∃ rows, db.categoryDSample lower limit = .ok rows ∧
      (rows.map (·.1)).Nodup ∧ ∀ videoUid, videoUid ∈ rows.map (·.1) ↔
        videoUid ∈ db.expected ∧ InCategory lower now db videoUid .d := by
  obtain ⟨rows, hrows, hperm⟩ := categoryDSample_perm lower h
  have hkeys := hperm.map (·.1)
  rw [categoryDRows_keys] at hkeys
  refine ⟨rows, hrows, ?_, fun videoUid => ?_⟩
  · have hexpected : db.expected.Nodup := having_nodup _
    exact hkeys.nodup_iff.mpr (hexpected.filter _)
  · rw [hkeys.mem_iff, List.mem_filter, Bool.and_eq_true, Bool.not_eq_true',
      Bool.not_eq_true', inMaster_eq_false, inCategory_d]

/-- The code's test for a clean video is weaker than the audit's. -/
theorem NonClean.of_mem (h : videoUid ∈ db.nonClean lower) :
    NonClean lower now db videoUid := by
  obtain ⟨hexp, hnot⟩ := mem_nonClean.mp h
  refine nonClean_iff.mpr ⟨hexp, fun ha => ?_⟩
  obtain ⟨hfirst, hhash⟩ := inCategory_a.mp ha
  rcases hnot with hnone | hhash'
  · obtain ⟨m, hm, hservable⟩ := Option.map_eq_some_iff.mp hfirst
    have hmem := mem_servableMasters.mpr ⟨List.mem_of_head? hm, hservable⟩
    rw [hnone] at hmem
    cases hmem
  · rw [hhash] at hhash'
    cases hhash'

/-- Creators are charged as the audit says exactly if no video that the audit
counts is left out as clean. -/
theorem agree_creators_iff (h : db.size ≤ limit) :
    (∃ rows, db.worstCreators lower limit = .ok rows ∧
      (rows.map (·.1)).Nodup ∧ ∀ creator n, (creator, n) ∈ rows ↔
        n = (charged lower now db creator).ncard ∧ n ≠ 0) ↔
      ∀ videoUid, NonClean lower now db videoUid →
        videoUid ∈ db.nonClean lower := by
  obtain ⟨rows, hrows, hperm⟩ := worstCreators_perm lower h
  have hnodup : (rows.map (·.1)).Nodup := by
    refine (hperm.map _).nodup_iff.mpr ?_
    unfold AuditTables.creatorRows
    rw [countDistinct_keys]
    exact List.nodup_dedup _
  have hcount : ∀ creator,
      (∀ n, (creator, n) ∈ rows ↔
        n = (charged lower now db creator).ncard ∧ n ≠ 0) ↔
      ∀ videoUid ∈ charged lower now db creator,
        videoUid ∈ valuesOf (·.creatorPrincipal) (·.videoUid)
          (db.nonCleanPosts lower) creator := by
    intro creator
    have hfinite : (charged lower now db creator).Finite :=
      (List.finite_toSet db.expected).subset fun _ hv => hv.1.expected
    rw [← count_eq_ncard_iff hfinite valuesOf_nodup fun videoUid hv =>
      (mem_charges.mp hv).imp_left NonClean.of_mem]
    refine forall_congr' fun n => ?_
    rw [hperm.mem_iff]
    exact iff_congr mem_countDistinct Iff.rfl
  constructor
  · rintro ⟨rows', hrows', -, hagree⟩ videoUid hnon
    obtain rfl := Except.ok.inj (hrows.symm.trans hrows')
    -- whoever has an expected post of the video is charged for it
    obtain ⟨row, hlive, hvideo, hexp⟩ := mem_expected.mp hnon.expected
    have hcharged := (hcount row.creatorPrincipal).mp (hagree _) videoUid
      ⟨hnon, row, hlive, hvideo, rfl, hexp⟩
    exact (mem_charges.mp hcharged).1
  · intro hall
    refine ⟨rows, hrows, hnodup, fun creator => (hcount creator).mpr ?_⟩
    rintro videoUid ⟨hnon, hpost⟩
    exact mem_charges.mpr ⟨hall videoUid hnon, hpost⟩

theorem masterOfB_of_mem {v : ServableVideo} {videoId : String}
    (hexp : videoUid ∈ db.expected) (hb : InCategory lower now db videoUid .b)
    (hm : ⟨videoId, v⟩ ∈ db.masters lower (uidKey lower videoUid)) :
    MasterOfB lower now db videoId v := by
  obtain ⟨hget, hkey⟩ := mem_masters.mp hm
  exact ⟨hget, videoUid, hexp, hb, hkey⟩

/-- The rows of a master row in B have the key of a video of B. -/
theorem MasterOfB.exists_mem {v : ServableVideo} {videoId : String}
    (h : MasterOfB lower now db videoId v) : ∃ videoUid ∈ db.expected,
      InCategory lower now db videoUid .b ∧
        ⟨videoId, v⟩ ∈ db.masters lower (uidKey lower videoUid) := by
  obtain ⟨videoUid, hexp, hb, hkey⟩ := h.video
  exact ⟨videoUid, hexp, hb, mem_masters.mpr ⟨h.master, hkey⟩⟩

/-- A servable row of a key without a hash is due for its own hash. -/
theorem dueForHash {v : ServableVideo} {videoId : String}
    (hm : ⟨videoId, v⟩ ∈ db.servableMasters lower vk)
    (hhash : db.hasHash lower vk = false) : DueForHash now db videoId := by
  obtain ⟨hmaster, hservable⟩ := mem_servableMasters.mp hm
  obtain ⟨hget, hkey⟩ := mem_masters.mp hmaster
  refine ⟨⟨v, hget, hservable⟩, hasHash_eq_false hhash videoId hkey, ?_⟩
  intro hashtext failures hready
  obtain ⟨rows, hrows, hmem⟩ := videosMissing_all (phashQuery hashtext) now none
    db.media failures rfl
  refine ⟨rows, hrows, List.mem_map.mpr ⟨v.missingRow videoId, ?_, rfl⟩⟩
  have hmissing : Missing (phashQuery hashtext) db.media
      (v.missingRow videoId) :=
    ⟨⟨v, hget, rfl⟩, hasHash_eq_false hhash videoId hkey hashtext, rfl⟩
  exact (hmem _).mpr ⟨hmissing, rfl, hready⟩

/-- The ids are those of B exactly if every video without a hash that has a
servable master row is in B. -/
theorem agree_b_iff (h : db.size ≤ limit) :
    (∃ ids, db.categoryBVideoIds lower limit = .ok ids ∧ ids.Nodup ∧
      (∀ videoId, videoId ∈ ids ↔ ∃ v, MasterOfB lower now db videoId v ∧
        v.servableStatus = "servable") ∧
      ∀ videoId ∈ ids, DueForHash now db videoId) ↔
      ∀ videoUid ∈ db.expected,
        db.hasHash lower (uidKey lower videoUid) = false →
          db.servableMasters lower (uidKey lower videoUid) ≠ [] →
            InCategory lower now db videoUid .b := by
  constructor
  · rintro ⟨ids, hids, -, hagree, -⟩ videoUid hexp hhash hne
    obtain rfl := Except.ok.inj ((categoryBVideoIds_eq h).symm.trans hids)
    obtain ⟨⟨videoId, v⟩, hm⟩ := List.exists_mem_of_ne_nil _ hne
    have hid := mem_categoryBRows.mpr ⟨videoUid, hexp, hhash, v, hm⟩
    obtain ⟨v', hmaster, -⟩ := (hagree videoId).mp hid
    obtain ⟨videoUid', -, hb, hm'⟩ := hmaster.exists_mem
    -- both videos have the key of the row, and a category is one of a key
    have hkey := (mem_masters.mp (mem_servableMasters.mp hm).1).2
    have hkey' := (mem_masters.mp hm').2
    have hsame : uidKey lower videoUid' = uidKey lower videoUid :=
      hkey'.symm.trans hkey
    rw [inCategory_b, hsame] at hb
    exact inCategory_b.mpr hb
  · intro hall
    refine ⟨_, categoryBVideoIds_eq h, List.nodup_dedup _, fun videoId => ?_, ?_⟩
    · rw [mem_categoryBRows]
      constructor
      · rintro ⟨videoUid, hexp, hhash, v, hm⟩
        have hb := hall videoUid hexp hhash (List.ne_nil_of_mem hm)
        obtain ⟨hmaster, hservable⟩ := mem_servableMasters.mp hm
        exact ⟨v, masterOfB_of_mem hexp hb hmaster, hservable⟩
      · rintro ⟨v, hmaster, hservable⟩
        obtain ⟨videoUid, hexp, hb, hm⟩ := hmaster.exists_mem
        refine ⟨videoUid, hexp, (inCategory_b.mp hb).2, v, ?_⟩
        exact mem_servableMasters.mpr ⟨hm, hservable⟩
    · intro videoId hid
      obtain ⟨videoUid, -, hhash, v, hm⟩ := mem_categoryBRows.mp hid
      exact dueForHash hm hhash

/-! ## Agreement -/

/-- The two ways in which the audit sees less than the other queries. -/
theorem servableFirst_iff : ServableFirst lower db ↔
    (∀ videoUid, NonClean lower now db videoUid →
      videoUid ∈ db.nonClean lower) ∧
    ∀ videoUid ∈ db.expected,
      db.hasHash lower (uidKey lower videoUid) = false →
        db.servableMasters lower (uidKey lower videoUid) ≠ [] →
          InCategory lower now db videoUid .b := by
  constructor
  · intro hfirst
    have hpick : ∀ videoUid ∈ db.expected,
        db.servableMasters lower (uidKey lower videoUid) ≠ [] →
          (db.masters lower (uidKey lower videoUid)).head?.map
            (·.2.servableStatus) = some "servable" := by
      intro videoUid hexp hne
      obtain ⟨m, hm⟩ := List.exists_mem_of_ne_nil _ hne
      obtain ⟨hmaster, hservable⟩ := mem_servableMasters.mp hm
      exact hfirst videoUid hexp m hmaster hservable
    refine ⟨fun videoUid hnon => ?_, fun videoUid hexp hhash hne => ?_⟩
    · obtain ⟨hexp, ha⟩ := nonClean_iff.mp hnon
      refine mem_nonClean.mpr ⟨hexp, or_iff_not_imp_left.mpr fun hne => ?_⟩
      rw [inCategory_a, not_and, Bool.not_eq_true] at ha
      exact ha (hpick videoUid hexp hne)
    · exact inCategory_b.mpr ⟨hpick videoUid hexp hne, hhash⟩
  · rintro ⟨hcreators, hb⟩ videoUid hexp m hm hservable
    have hmem := mem_servableMasters.mpr ⟨hm, hservable⟩
    cases hhash : db.hasHash lower (uidKey lower videoUid) with
    | false =>
        have hcat := hb videoUid hexp hhash (List.ne_nil_of_mem hmem)
        exact (inCategory_b.mp hcat).1
    | true =>
        -- with a hash, a video the audit does not call clean would be charged
        by_contra hnot
        have hnon : NonClean lower now db videoUid :=
          nonClean_iff.mpr ⟨hexp, fun ha => hnot (inCategory_a.mp ha).1⟩
        rcases (mem_nonClean.mp (hcreators videoUid hnon)).2 with hnone | hno
        · rw [hnone] at hmem
          cases hmem
        · rw [hhash] at hno
          cases hno

/-- The master rows of the videos of B are servable exactly if those of one key
are alike. -/
theorem mastersOfB_servable_iff (h : ServableFirst lower db) :
    (∀ videoId v, MasterOfB lower now db videoId v →
      v.servableStatus = "servable") ↔ ServableAlike lower db := by
  constructor
  · intro hservable videoUid hexp hhash m hm m' hm' hstatus
    have hb : InCategory lower now db videoUid .b :=
      inCategory_b.mpr ⟨h videoUid hexp m hm hstatus, hhash⟩
    exact hservable m'.1 m'.2 (masterOfB_of_mem hexp hb hm')
  · intro halike videoId v hmaster
    obtain ⟨videoUid, hexp, hb, hm⟩ := hmaster.exists_mem
    obtain ⟨hfirst, hhash⟩ := inCategory_b.mp hb
    obtain ⟨m, hhead, hstatus⟩ := Option.map_eq_some_iff.mp hfirst
    exact halike videoUid hexp hhash m (List.mem_of_head? hhead) ⟨videoId, v⟩ hm
      hstatus

/-- **The audit queries agree** exactly if, of the master rows of one key, the
audit picks a servable one wherever there is one; and then every master row of a
video of B is servable exactly if those of one key are alike. -/
theorem audit_queries_agree_iff (lower : String → String) (now : ℤ) {limit : ℤ}
    {db : AuditTables} (h : db.size ≤ limit) :
    (Agree lower now limit db ↔ ServableFirst lower db) ∧
    (Agree lower now limit db ∧ (∀ videoId v, MasterOfB lower now db videoId v →
        v.servableStatus = "servable") ↔
      ServableFirst lower db ∧ ServableAlike lower db) := by
  have hagree : Agree lower now limit db ↔ ServableFirst lower db := by
    rw [servableFirst_iff, ← agree_creators_iff h, ← agree_b_iff h]
    exact ⟨fun ha => ⟨ha.creators, ha.b⟩, fun ha => ⟨agree_d h, ha.1, ha.2⟩⟩
  refine ⟨hagree, ?_⟩
  rw [hagree]
  exact and_congr_right mastersOfB_servable_iff

/-! ## Two tables -/

/-- `lower` on the letters of ASCII. -/
def asciiLower (s : String) : String := String.ofList (s.toList.map Char.toLower)

def masterRow (servableStatus : String) : ServableVideo :=
  { (default : ServableVideo) with servableStatus := servableStatus }

/-- One expected post of the video `v`, beside the master rows. -/
def onePost (videos : AList fun _ : String => ServableVideo) : AuditTables where
  posts := ⟨[⟨"p", "v", "c", 0, "Uploaded", none, false⟩], by decide⟩
  media := { videos := videos }

/-- Two servable rows of one key. -/
def servableTwice : AuditTables :=
  onePost ((AList.insert "V" (masterRow "servable") ∅).insert "c/v"
    (masterRow "servable"))

theorem servableTwice_agrees : servableTwice.size ≤ (3 : ℤ) ∧
    Agree asciiLower 0 3 servableTwice := by
  have hsize : servableTwice.size ≤ (3 : ℤ) := by decide
  refine ⟨hsize, (audit_queries_agree_iff asciiLower 0 hsize).1.mpr ?_⟩
  unfold ServableFirst
  decide

/-- A row that is not servable before one that is. -/
def unservableFirst : AuditTables :=
  onePost ((AList.insert "v" (masterRow "servable") ∅).insert "c/v"
    (masterRow "unservable"))

/-- The audit counts the video in E, and `category_b_video_ids` returns `v`. -/
theorem unservable_first_disagrees :
    ¬ ∀ lower now limit, ∀ db : AuditTables, db.size ≤ limit →
      Agree lower now limit db := by
  intro h
  obtain ⟨ids, hids, -, hb, -⟩ := (h asciiLower 0 3 unservableFirst (by decide)).b
  have hok : unservableFirst.categoryBVideoIds asciiLower 3 = .ok ["v"] := by
    decide
  obtain rfl := Except.ok.inj (hok.symm.trans hids)
  obtain ⟨v, hmaster, -⟩ := (hb "v").mp List.mem_cons_self
  obtain ⟨videoUid, hexp, hcat, -⟩ := hmaster.video
  have hnone : ∀ videoUid ∈ unservableFirst.expected,
      ¬ InCategory asciiLower 0 unservableFirst videoUid .b := by
    unfold InCategory
    decide
  exact hnone videoUid hexp hcat

end VideoStorage.Chain
