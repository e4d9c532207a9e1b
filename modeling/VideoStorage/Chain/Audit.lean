import Mathlib.Data.List.DropRight
import VideoStorage.Chain.Posts
import VideoStorage.Foundation.Conditions
import VideoStorage.Jobs.MediaPhash

/-!
# The chain audit

`chain_audit` puts every video that the chain is expected to serve into one of
five categories, by its master row, its hash and its row in `video_index`, all
looked up by a canonical key. The counts share out the videos of the posts that
are not stale (`chain_audit_partition`).
-/

namespace VideoStorage.Chain

open Foundation

/-! ## The tables -/

/-- What the audit reads of a row of `media_job_failures`. -/
structure AuditFailure where
  jobKind : String
  videoId : Option String
  nextRetryAt : Option ℤ
  deriving DecidableEq

structure AuditTables where
  posts : Rows YralPost.postId := {}
  media : MediaIndex.Tables := {}
  /-- The `video_id`s of `video_index`. -/
  videoIndex : List String := []
  failures : List AuditFailure := []

/-! ## Keys

`lower` is the database's. -/

/-- `lower(replace(video_uid, '-', ''))`. -/
def uidKey (lower : String → String) (videoUid : String) : String :=
  lower (String.ofList (videoUid.toList.filter (· ≠ '-')))

/-- `regexp_replace(video_id, '^.*/', '')`. -/
def afterLastSlash (videoId : String) : String :=
  String.ofList (videoId.toList.rtakeWhile (· ≠ '/'))

def canonicalKey (lower : String → String) (videoId : String) : String :=
  uidKey lower (afterLastSlash videoId)

/-! ## The queries -/

def expectedStatuses : List String :=
  ["Uploaded", "ReadyToView", "Transcoding", "CheckingExplicitness"]

/-- `status IN ('Uploaded','ReadyToView','Transcoding','CheckingExplicitness')`. -/
def YralPost.isExpected (row : YralPost) : Bool := row.status ∈ expectedStatuses

namespace AuditTables

variable (lower : String → String) (now : ℤ) (db : AuditTables)

/-- `yral_posts WHERE NOT stale`. -/
def live : List YralPost := db.posts.rows.filter (! ·.stale)

/-- `GROUP BY video_uid`. -/
def videoGroups : List (String × List YralPost) := groups (·.videoUid) db.live

/-- The `video_uid`s with an expected post. -/
def expected : List String := having (·.any (·.isExpected)) db.videoGroups

def excluded : List String :=
  having (fun rows => ! rows.any (·.isExpected)) db.videoGroups

/-- The master rows of a key, in the order the database finds them. -/
def masters (vk : String) : List ((_ : String) × MediaIndex.ServableVideo) :=
  db.media.videos.entries.filter fun m => canonicalKey lower m.1 = vk

/-- A hash of the canonical kind has the key. -/
def hasHash (vk : String) : Bool :=
  db.media.hashes.entries.any fun h => canonicalKey lower h.1.videoId = vk &&
    h.1.hashKind = Jobs.MediaPhash.hashKind &&
    h.1.hashVersion = Jobs.MediaPhash.hashVersion &&
    h.1.inputMediaVersion = Jobs.MediaPhash.inputMediaVersion

def inIndex (vk : String) : Bool :=
  db.videoIndex.any fun videoId => canonicalKey lower videoId = vk

def backingOff (vk : String) : Bool :=
  db.failures.any fun f => f.videoId.any (canonicalKey lower · = vk) &&
    f.jobKind = Jobs.MediaPhash.jobKind && f.nextRetryAt.any (now < ·)

end AuditTables

/-- A row of `cat`. -/
structure Cat where
  masterStatus : Option String
  hasHash : Bool
  inIndex : Bool
  backingOff : Bool
  deriving DecidableEq

/-- `LIMIT 1` takes the first master row. -/
def AuditTables.cat (lower : String → String) (now : ℤ) (db : AuditTables)
    (videoUid : String) : Cat where
  masterStatus := (db.masters lower (uidKey lower videoUid)).head?.map
    (·.2.servableStatus)
  hasHash := db.hasHash lower (uidKey lower videoUid)
  inIndex := db.inIndex lower (uidKey lower videoUid)
  backingOff := db.backingOff lower now (uidKey lower videoUid)

/-- Clean, without a hash, in the index alone, nowhere, and not servable. -/
inductive Category
  | a | b | c | d | e
  deriving DecidableEq, Repr

/-- The `FILTER` of a category. -/
def Category.filter : Category → Cat → Cond
  | .a, cat => .and (.eq cat.masterStatus "servable") (some cat.hasHash)
  | .b, cat => .and (.eq cat.masterStatus "servable") (some (!cat.hasHash))
  | .c, cat => .and (some cat.masterStatus.isNone) (some cat.inIndex)
  | .d, cat => .and (some cat.masterStatus.isNone) (some (!cat.inIndex))
  | .e, cat =>
      .and (some cat.masterStatus.isSome) (.ne cat.masterStatus "servable")

structure ChainAuditReport where
  totalExpected : ℕ
  categoryA : ℕ
  categoryB : ℕ
  categoryC : ℕ
  categoryD : ℕ
  categoryE : ℕ
  excludedByStatus : ℕ
  bBackingOff : ℕ
  deriving DecidableEq, Repr

def chainAudit (lower : String → String) (now : ℤ) (db : AuditTables) :
    ChainAuditReport :=
  let cat := db.expected.map (db.cat lower now)
  { totalExpected := cat.length
    categoryA := countWhere Category.a.filter cat
    categoryB := countWhere Category.b.filter cat
    categoryC := countWhere Category.c.filter cat
    categoryD := countWhere Category.d.filter cat
    categoryE := countWhere Category.e.filter cat
    excludedByStatus := db.excluded.length
    bBackingOff := countWhere
      (fun row => .and (Category.b.filter row) (some row.backingOff)) cat }

/-! ## The categories share out the videos -/

/-- Flag a post if it is of a kind. -/
def YralPost.flag (p : YralPost → Bool) (row : YralPost) : YralPost :=
  { row with stale := row.stale || p row }

theorem YralPost.postId_flag (p : YralPost → Bool) (row : YralPost) :
    (row.flag p).postId = row.postId := rfl

/-- Flag the posts of a kind. -/
def AuditTables.flag (db : AuditTables) (p : YralPost → Bool) : AuditTables :=
  { db with posts := db.posts.update (·.flag p) (YralPost.postId_flag p) }

/-- A video is in a category. -/
def InCategory (lower : String → String) (now : ℤ) (db : AuditTables)
    (videoUid : String) (k : Category) : Prop :=
  k.filter (db.cat lower now videoUid) = some true

/-- A row is in the category of its master row, hash and index entry. -/
def Cat.category (cat : Cat) : Category :=
  match cat.masterStatus with
  | none => if cat.inIndex then .c else .d
  | some status =>
      if status = "servable" then (if cat.hasHash then .a else .b) else .e

theorem filter_eq_true {k : Category} {cat : Cat} :
    k.filter cat = some true ↔ k = cat.category := by
  obtain ⟨status, hash, index, backing⟩ := cat
  cases status with
  | none => cases k <;> cases index <;> simp [Category.filter, Cat.category]
  | some s =>
      by_cases hs : s = "servable"
      · cases k <;> cases hash <;> simp [Category.filter, Cat.category, hs]
      · cases k <;> simp [Category.filter, Cat.category, hs]

variable {lower : String → String} {now : ℤ} {db : AuditTables}

theorem mem_expected {videoUid : String} : videoUid ∈ db.expected ↔
    ∃ row ∈ db.live, row.videoUid = videoUid ∧ row.isExpected = true :=
  mem_having_any

theorem expected_length (db : AuditTables) :
    db.expected.length + db.excluded.length
      = (db.live.map (·.videoUid)).dedup.length :=
  having_length _

/-- Flagged posts are no longer live. -/
theorem live_flag_subset (db : AuditTables) (p : YralPost → Bool) :
    (db.flag p).live ⊆ db.live := by
  intro row hrow
  obtain ⟨hmem, hlive⟩ := List.mem_filter.mp hrow
  obtain ⟨row₀, hmem₀, rfl⟩ :=
    (db.posts.mem_update _ (YralPost.postId_flag p)).mp hmem
  have hboth : (row₀.stale || p row₀) = false :=
    (Bool.not_eq_true' _).mp hlive
  obtain ⟨hstale, -⟩ := Bool.or_eq_false_iff.mp hboth
  have hsame : row₀.flag p = row₀ := by
    unfold YralPost.flag
    rw [hboth, ← hstale]
  rw [hsame]
  exact List.mem_filter.mpr ⟨hmem₀, by rw [hstale]; rfl⟩

/-- **The audit shares out the videos**: every expected video is in exactly one
category, the categories and the excluded videos make up the distinct videos of
the live posts, and flagging posts makes these no more. -/
theorem chain_audit_partition (lower : String → String) (now : ℤ)
    (db : AuditTables) :
    (chainAudit lower now db).categoryA + (chainAudit lower now db).categoryB +
      (chainAudit lower now db).categoryC + (chainAudit lower now db).categoryD +
      (chainAudit lower now db).categoryE
        = (chainAudit lower now db).totalExpected ∧
    (∀ videoUid ∈ db.expected, ∃! k, InCategory lower now db videoUid k) ∧
    (chainAudit lower now db).totalExpected +
      (chainAudit lower now db).excludedByStatus
        = (db.live.map (·.videoUid)).dedup.length ∧
    (chainAudit lower now db).bBackingOff
      ≤ (chainAudit lower now db).categoryB ∧
    ∀ p, (chainAudit lower now (db.flag p)).totalExpected +
        (chainAudit lower now (db.flag p)).excludedByStatus
      ≤ (chainAudit lower now db).totalExpected +
        (chainAudit lower now db).excludedByStatus := by
  -- expected and excluded ids are the live ones, each once
  have htotal : ∀ db : AuditTables, (chainAudit lower now db).totalExpected +
      (chainAudit lower now db).excludedByStatus
        = (db.live.map (·.videoUid)).dedup.length := by
    intro db
    show (db.expected.map _).length + db.excluded.length = _
    rw [List.length_map, expected_length]
  refine ⟨?_, ?_, htotal db, ?_, ?_⟩
  · -- of the five conditions each row satisfies that of its category
    have hone : ∀ row ∈ db.expected.map (db.cat lower now),
        ([Category.a, .b, .c, .d, .e].map Category.filter).countP
          (fun f => f row = some true) = 1 := by
      intro row _
      rw [List.countP_map]
      simp only [Function.comp_def, filter_eq_true]
      generalize row.category = k
      cases k <;> rfl
    have hsum := sum_countWhere hone
    simp only [List.map_cons, List.map_nil, List.sum_cons, List.sum_nil] at hsum
    show countWhere _ _ + countWhere _ _ + countWhere _ _ + countWhere _ _ +
      countWhere _ _ = (db.expected.map (db.cat lower now)).length
    omega
  · intro videoUid _
    refine ⟨(db.cat lower now videoUid).category, filter_eq_true.mpr rfl, ?_⟩
    exact fun k hk => filter_eq_true.mp hk
  · exact countWhere_mono fun row hrow => (Cond.and_eq_true.mp hrow).1
  -- a flagged post is live no more
  · intro p
    rw [htotal, htotal]
    refine dedup_length_le fun videoUid hmem => ?_
    obtain ⟨row, hrow, rfl⟩ := List.mem_map.mp hmem
    exact List.mem_map_of_mem (live_flag_subset db p hrow)

end VideoStorage.Chain
