import Mathlib.Algebra.Group.Int.Defs
import Mathlib.Algebra.Group.Nat.Defs
import Mathlib.Data.Int.Order.Basic
import Mathlib.Data.List.Dedup
import VideoStorage.Foundation.Rows

/-!
# Chain posts and their tables

A page of posts as the canister returns it, the row a post becomes, and the four
statements on `yral_posts` and `yral_users`. Of a table only its rows count, and
of the rows of `yral_users` only that they are the rollup of the posts that are
not stale.
-/

namespace VideoStorage.Chain

open Foundation

/-! ## Posts of the chain -/

inductive PostStatus
  | uploaded | readyToView | transcoding | checkingExplicitness | draft | deleted
  | bannedForExplicitness | bannedDueToUserReporting
  deriving DecidableEq, Repr

/-- `{:?}`. -/
def PostStatus.debug : PostStatus → String
  | uploaded => "Uploaded"
  | readyToView => "ReadyToView"
  | transcoding => "Transcoding"
  | checkingExplicitness => "CheckingExplicitness"
  | draft => "Draft"
  | deleted => "Deleted"
  | bannedForExplicitness => "BannedForExplicitness"
  | bannedDueToUserReporting => "BannedDueToUserReporting"

structure SystemTime where
  secsSinceEpoch : UInt64
  nanosSinceEpoch : UInt32
  deriving DecidableEq

/-- A principal is known by its text. -/
structure Post where
  id : String
  status : PostStatus
  createdAt : SystemTime
  videoUid : String
  creatorPrincipal : String
  deriving DecidableEq

structure FetchPostsResult where
  posts : List Post
  lastPostIdFetched : Option String
  deriving DecidableEq

/-! ## Times -/

/-- `DateTime<Utc>`, by its `timestamp` and `timestamp_subsec_nanos`. -/
structure DateTime where
  timestamp : ℤ
  subsecNanos : ℕ
  deriving DecidableEq, Repr

/-- `DateTime::from_timestamp`: the years from -262143 to 262142, and a leap
second as nanoseconds from 10^9 on in the last second of a minute. -/
def DateTime.fromTimestamp (secs : Int64) (nanos : UInt32) : Option DateTime :=
  if -8334601228800 ≤ secs.toInt ∧ secs.toInt ≤ 8210266876799 ∧
      (nanos.toNat < 10 ^ 9 ∨
        nanos.toNat < 2 * 10 ^ 9 ∧ secs.toInt % 60 = 59) then
    some ⟨secs.toInt, nanos.toNat⟩
  else none

def systemTimeToUtc (st : SystemTime) : DateTime :=
  (DateTime.fromTimestamp st.secsSinceEpoch.toInt64 st.nanosSinceEpoch).getD
    ⟨0, 0⟩

/-- The microseconds from 2000-01-01 to a time in nanoseconds, as a
`TIMESTAMPTZ` column counts them; the driver drops the rest. -/
def timestamptz (nanos : ℤ) : ℤ := (nanos - 946684800 * 10 ^ 9).tdiv 1000

def DateTime.timestamptz (d : DateTime) : ℤ :=
  Chain.timestamptz (d.timestamp * 10 ^ 9 + d.subsecNanos)

/-- A time that the years of a `DateTime` reach. -/
structure SystemTime.Representable (st : SystemTime) : Prop where
  secs : st.secsSinceEpoch.toNat ≤ 8210266876799
  nanos : st.nanosSinceEpoch.toNat < 10 ^ 9

/-- What the column holds for such a time. -/
def SystemTime.timestamptz (st : SystemTime) : ℤ :=
  Chain.timestamptz (st.secsSinceEpoch.toNat * 10 ^ 9 + st.nanosSinceEpoch.toNat)

/-- A representable time is stored as it is, to the microsecond. -/
theorem systemTimeToUtc_timestamptz {st : SystemTime} (h : st.Representable) :
    (systemTimeToUtc st).timestamptz = st.timestamptz := by
  have hsecs := h.secs
  have hint : st.secsSinceEpoch.toInt64.toInt = st.secsSinceEpoch.toNat := by
    show st.secsSinceEpoch.toBitVec.toInt = _
    rw [BitVec.toInt_eq_toNat_cond, if_pos]
    · rfl
    · show 2 * st.secsSinceEpoch.toNat < 2 ^ 64
      omega
  have hsome : DateTime.fromTimestamp st.secsSinceEpoch.toInt64
      st.nanosSinceEpoch
        = some ⟨st.secsSinceEpoch.toNat, st.nanosSinceEpoch.toNat⟩ := by
    unfold DateTime.fromTimestamp
    rw [hint, if_pos ⟨by omega, by omega, .inl h.nanos⟩]
  unfold systemTimeToUtc
  rw [hsome]
  rfl

/-! ## Rows -/

abbrev Uuid : Type := BitVec 128

structure ChainPost where
  postId : String
  videoUid : String
  creatorPrincipal : String
  createdAt : DateTime
  status : String
  deriving DecidableEq

/-- A row of `yral_posts`. -/
structure YralPost where
  postId : String
  videoUid : String
  creatorPrincipal : String
  createdAt : ℤ
  status : String
  snapshotRunId : Option Uuid
  stale : Bool
  deriving DecidableEq

/-- A row of `yral_users`. -/
structure YralUser where
  creatorPrincipal : String
  postCount : ℕ
  firstSeen : Option ℤ
  lastSeen : Option ℤ
  deriving DecidableEq

structure ChainTables where
  posts : Rows YralPost.postId := {}
  users : Rows YralUser.creatorPrincipal := {}

namespace ChainTables

/-- `yral_posts WHERE NOT stale`. -/
def live (t : ChainTables) : List YralPost := t.posts.rows.filter (! ·.stale)

@[simp] theorem mem_live {t : ChainTables} {row : YralPost} :
    row ∈ t.live ↔ row ∈ t.posts.rows ∧ row.stale = false := by
  unfold live
  rw [List.mem_filter, Bool.not_eq_true']

end ChainTables

/-- The row that `upsert_chain_post` writes. -/
def ChainPost.row (post : ChainPost) (runId : Uuid) : YralPost where
  postId := post.postId
  videoUid := post.videoUid
  creatorPrincipal := post.creatorPrincipal
  createdAt := post.createdAt.timestamptz
  status := post.status
  snapshotRunId := some runId
  stale := false

/-- The row as `mark_stale_posts` leaves it. -/
def YralPost.marked (runId : Uuid) (row : YralPost) : YralPost :=
  if row.stale = false ∧ row.snapshotRunId ≠ some runId then
    { row with stale := true }
  else row

theorem YralPost.postId_marked (runId : Uuid) (row : YralPost) :
    (row.marked runId).postId = row.postId := by
  unfold marked
  split_ifs <;> rfl

/-- The row of one creator: `count(*), min(created_at), max(created_at)`. -/
def rollup (rows : List YralPost) (creator : String) : YralUser :=
  let times := (rows.filter (·.creatorPrincipal = creator)).map (·.createdAt)
  { creatorPrincipal := creator
    postCount := times.length
    firstSeen := times.min?
    lastSeen := times.max? }

/-- `GROUP BY creator_principal`. -/
def rollups (rows : List YralPost) : List YralUser :=
  (rows.map (·.creatorPrincipal)).dedup.map (rollup rows)

/-! ## Statements -/

/-- The statements of `upsert_chain_post` and `mark_stale_posts`, and the two of
`rebuild_yral_users`. -/
inductive ChainStatement
  | upsertChainPost (post : ChainPost) (runId : Uuid)
  | markStalePosts (runId : Uuid)
  | deleteUsers
  | insertUsers
  deriving DecidableEq

def ChainStatement.apply : ChainStatement → ChainTables → ChainTables
  | .upsertChainPost post runId, t =>
      { t with posts := t.posts.upsert (post.row runId) }
  | .markStalePosts runId, t =>
      { t with
        posts := t.posts.update (·.marked runId) (YralPost.postId_marked runId) }
  | .deleteUsers, t =>
      { t with
        users := t.users.delete fun u =>
          u.creatorPrincipal ∉ t.live.map (·.creatorPrincipal) }
  | .insertUsers, t => { t with users := t.users.upsertAll (rollups t.live) }

/-- One after another. -/
def executeAll (ss : List ChainStatement) (t : ChainTables) : ChainTables :=
  ss.foldl (fun t s => s.apply t) t

@[simp] theorem executeAll_nil (t : ChainTables) : executeAll [] t = t := rfl

@[simp] theorem executeAll_cons (s : ChainStatement) (ss : List ChainStatement)
    (t : ChainTables) : executeAll (s :: ss) t = executeAll ss (s.apply t) := rfl

theorem executeAll_append (ss ss' : List ChainStatement) (t : ChainTables) :
    executeAll (ss ++ ss') t = executeAll ss' (executeAll ss t) :=
  List.foldl_append

end VideoStorage.Chain
