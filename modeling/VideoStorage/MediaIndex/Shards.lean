import VideoStorage.Foundation.Int64
import VideoStorage.MediaIndex.MissingHash

/-!
# The shards of a missing-hash run

A shard holds the videos whose `hashtext` has its remainder. The remainder is
taken twice, with `of` added in between: the shards of `of` split the whole result
wherever that sum is a `bigint` (`shards_partition_iff`).
-/

namespace VideoStorage.MediaIndex

open Foundation

theorem parseShard_eq_ok {idx of : ℤ} {shard : Option Shard} :
    parseShard (some idx) (some of) = .ok shard ↔
      ∃ s : Shard, shard = some s ∧ s.of = of ∧ s.idx = idx := by
  unfold parseShard
  dsimp only
  split_ifs with h
  · constructor
    · intro heq
      exact ⟨⟨of, idx, h⟩, (Except.ok.inj heq).symm, rfl, rfl⟩
    · rintro ⟨s, rfl, rfl, rfl⟩
      rfl
  · refine iff_of_false nofun ?_
    rintro ⟨s, -, rfl, rfl⟩
    exact h s.valid

namespace MissingHashQuery

variable (q : MissingHashQuery)

/-- The same question of a shard, or of the whole set. -/
def ofShard (shard : Option Shard) : MissingHashQuery := { q with shard := shard }

/-- The sum in the middle of the shard's arithmetic is a `bigint`. -/
def Fits (of : ℤ) (videoId : String) : Prop :=
  (q.hashtext videoId).tmod of + of < 2 ^ 63

instance (of : ℤ) (videoId : String) : Decidable (q.Fits of videoId) :=
  inferInstanceAs (Decidable (_ < _))

variable {q} {s : Shard} {videoId : String}

theorem inShard_whole : (q.ofShard none).inShard videoId = .ok true := rfl

theorem inShard_of_fits (h : q.Fits s.of videoId) :
    (q.ofShard (some s)).inShard videoId
      = .ok (decide (q.hashtext videoId % s.of = s.idx)) := by
  have hmod : ((q.hashtext videoId).tmod s.of + s.of).tmod s.of
      = q.hashtext videoId % s.of :=
    tmod_add_tmod (by have := s.valid; omega) _
  rw [← hmod]
  exact if_pos h

theorem inShard_isOk :
    (∃ b, (q.ofShard (some s)).inShard videoId = .ok b) ↔ q.Fits s.of videoId := by
  constructor
  · rintro ⟨b, hb⟩
    by_contra hfits
    have herror : (q.ofShard (some s)).inShard videoId = .error .bigintOutOfRange :=
      if_neg hfits
    rw [herror] at hb
    cases hb
  · exact fun h => ⟨_, inShard_of_fits h⟩

/-- Hashes of 32 bits fit under every count that leaves room for one. -/
theorem fits_of_le {of : ℤ} (hhash : q.hashtext videoId < 2 ^ 31)
    (hof : of ≤ 2 ^ 63 - 2 ^ 31) : q.Fits of videoId := by
  have hmod := tmod_le_max (q.hashtext videoId) of
  unfold Fits
  omega

end MissingHashQuery

/-! ## All the shards of a count -/

/-- The rows whose shard is computed, with a hash or without. -/
def Sharded (after : Option String) (t : Tables) (row : MissingHashRow) : Prop :=
  row ∈ masterRows t ∧ past after row.videoId

variable {q : MissingHashQuery} {now : ℤ} {after : Option String} {t : Tables}
  {failures : JobFailures} {rows : List MissingHashRow} {row : MissingHashRow}

/-- The rows of one result, and no other: a shard adds its condition. -/
theorem missing_ofShard {shard : Option Shard} :
    Missing (q.ofShard shard) t row ↔
      Missing (q.ofShard none) t row ∧
        (q.ofShard shard).inShard row.videoId = .ok true := by
  constructor
  · exact fun h => ⟨⟨h.master, h.noHash, MissingHashQuery.inShard_whole⟩, h.shard⟩
  · rintro ⟨h, hin⟩
    exact ⟨h.master, h.noHash, hin⟩

section Partition

variable (q now after t failures)

/-- The whole result of a shard, or of the whole set. -/
def shardRows (shard : Option Shard) : Except SqlError (List MissingHashRow) :=
  videosMissingCanonicalPhash (q.ofShard shard) now after none t failures

/-- The shards `0..of-1` split the whole result, every one in the order of the ids. -/
structure Partition (of : ℤ) : Prop where
  answers : ∀ idx shard, parseShard (some idx) (some of) = .ok shard →
    ∃ rows, shardRows q now after t failures shard = .ok rows
  ordered : ∀ shard rows, shardRows q now after t failures shard = .ok rows →
    rows.Pairwise fun a b => a.videoId < b.videoId
  disjoint : ∀ idx idx' shard shard' rows rows', idx ≠ idx' →
    parseShard (some idx) (some of) = .ok shard →
    parseShard (some idx') (some of) = .ok shard' →
    shardRows q now after t failures shard = .ok rows →
    shardRows q now after t failures shard' = .ok rows' →
    (rows.map (·.videoId)).Disjoint (rows'.map (·.videoId))
  total : ∃ all, shardRows q now after t failures none = .ok all ∧
    ∀ row, row ∈ all ↔ ∃ idx shard rows,
      parseShard (some idx) (some of) = .ok shard ∧
      shardRows q now after t failures shard = .ok rows ∧ row ∈ rows

variable {q now after t failures} {s : Shard}

theorem shardRows_isOk :
    (∃ rows, shardRows q now after t failures (some s) = .ok rows) ↔
      ∀ row, Sharded after t row → q.Fits s.of row.videoId := by
  rw [shardRows, videosMissing_isOk_iff rfl]
  constructor
  · rintro h row ⟨hmaster, hpast⟩
    exact MissingHashQuery.inShard_isOk.mp (h row hmaster hpast)
  · intro h row hmaster hpast
    exact MissingHashQuery.inShard_isOk.mpr (h row ⟨hmaster, hpast⟩)

theorem wholeRows_isOk : ∃ all, shardRows q now after t failures none = .ok all :=
  (videosMissing_isOk_iff rfl).mpr fun _ _ _ => ⟨true, MissingHashQuery.inShard_whole⟩

/-- A row of the whole result is in the shard of its remainder. -/
theorem mem_shardRows {all : List MissingHashRow}
    (hall : shardRows q now after t failures none = .ok all)
    (hrows : shardRows q now after t failures (some s) = .ok rows) :
    row ∈ rows ↔ row ∈ all ∧ q.hashtext row.videoId % s.of = s.idx := by
  have hfits := shardRows_isOk.mp ⟨rows, hrows⟩
  have hmissing : Missing (q.ofShard (some s)) t row ↔ _ := missing_ofShard
  rw [mem_scan hrows, mem_scan hall, hmissing]
  constructor
  · rintro ⟨⟨hm, hin⟩, hpast, hready⟩
    have hrow : Sharded after t row := ⟨mem_masterRows.mpr hm.master, hpast⟩
    rw [MissingHashQuery.inShard_of_fits (hfits row hrow)] at hin
    exact ⟨⟨hm, hpast, hready⟩, of_decide_eq_true (Except.ok.inj hin)⟩
  · rintro ⟨⟨hm, hpast, hready⟩, hidx⟩
    have hrow : Sharded after t row := ⟨mem_masterRows.mpr hm.master, hpast⟩
    refine ⟨⟨hm, ?_⟩, hpast, hready⟩
    rw [MissingHashQuery.inShard_of_fits (hfits row hrow), hidx, decide_eq_true rfl]

end Partition

/-- Where the arithmetic stays in range the remainders split the rows. -/
theorem partition_of_fits {of : ℤ} (hof : 1 ≤ of)
    (h : ∀ row, Sharded after t row → q.Fits of row.videoId) :
    Partition q now after t failures of := by
  obtain ⟨all, hall⟩ : ∃ all, shardRows q now after t failures none = .ok all :=
    wholeRows_isOk
  have hanswers : ∀ s : Shard, s.of = of →
      ∃ rows, shardRows q now after t failures (some s) = .ok rows := by
    rintro s rfl
    exact shardRows_isOk.mpr h
  refine ⟨?_, fun _ _ => scan_sorted, ?_, all, hall, fun row => ?_⟩
  · intro idx shard hshard
    obtain ⟨s, rfl, hs, -⟩ := parseShard_eq_ok.mp hshard
    exact hanswers s hs
  · intro idx idx' shard shard' rows rows' hne hshard hshard' hrows hrows'
    obtain ⟨s, rfl, rfl, rfl⟩ := parseShard_eq_ok.mp hshard
    obtain ⟨s', rfl, hof', rfl⟩ := parseShard_eq_ok.mp hshard'
    intro videoId hid hid'
    obtain ⟨row, hrow, rfl⟩ := List.mem_map.mp hid
    obtain ⟨row', hrow', heq⟩ := List.mem_map.mp hid'
    have hidx := ((mem_shardRows hall hrows).mp hrow).2
    have hidx' := ((mem_shardRows hall hrows').mp hrow').2
    rw [heq, hof', hidx] at hidx'
    exact hne hidx'
  · constructor
    · intro hrow
      -- the remainder of a row is an index the server accepts
      let s : Shard := ⟨of, q.hashtext row.videoId % of, hof,
        Int.emod_nonneg _ (by omega), Int.emod_lt_of_pos _ (by omega)⟩
      obtain ⟨rows, hrows⟩ := hanswers s rfl
      exact ⟨s.idx, some s, rows, parseShard_eq_ok.mpr ⟨s, rfl, rfl, rfl⟩, hrows,
        (mem_shardRows hall hrows).mpr ⟨hrow, rfl⟩⟩
    · rintro ⟨idx, shard, rows, hshard, hrows, hrow⟩
      obtain ⟨s, rfl, -, -⟩ := parseShard_eq_ok.mp hshard
      exact ((mem_shardRows hall hrows).mp hrow).1

/-- **The shards split the result exactly where no sum overflows.** -/
theorem shards_partition_iff (q : MissingHashQuery) (now : ℤ) (after : Option String)
    (t : Tables) (failures : JobFailures) (of : ℤ) (hof : 1 ≤ of) :
    Partition q now after t failures of ↔
      ∀ row, Sharded after t row → q.Fits of row.videoId := by
  constructor
  · intro h
    have hzero : 0 < of := by omega
    let s : Shard := ⟨of, 0, hof, le_refl 0, hzero⟩
    have hrows := h.answers 0 (some s) (parseShard_eq_ok.mpr ⟨s, rfl, rfl, rfl⟩)
    exact shardRows_isOk.mp hrows
  · exact partition_of_fits hof

/-- One video, of this hash. -/
def oneVideo : Tables := { videos := AList.singleton "v" default }

def hashesTo (h : ℤ) : MissingHashQuery where
  hashtext := fun _ => h
  hashKind := "phash"
  hashVersion := "offchain_binary_10x8_v1"
  inputMediaVersion := "current_stored_object_v1"
  shard := none

theorem sharded_oneVideo :
    Sharded none oneVideo ((default : ServableVideo).missingRow "v") :=
  ⟨mem_masterRows.mpr ⟨default, rfl, rfl⟩, rfl⟩

/-- The counts under which the shards of no table overflow. -/
theorem partition_always_iff {of : ℤ} (hof : 1 ≤ of) :
    (∀ q now after t failures, (∀ videoId, q.hashtext videoId < 2 ^ 31) →
      Partition q now after t failures of) ↔ of ≤ 2 ^ 63 - 2 ^ 31 := by
  constructor
  · intro h
    by_contra hlarge
    have hpart := h (hashesTo (2 ^ 31 - 1)) 0 none oneVideo {}
      (fun _ => Int.sub_lt_self _ Int.one_pos)
    obtain ⟨rows, hrows⟩ := hpart.answers 0 (some ⟨of, 0, hof, le_refl 0, by omega⟩)
      (parseShard_eq_ok.mpr ⟨_, rfl, rfl, rfl⟩)
    have hfits : ((2 : ℤ) ^ 31 - 1).tmod of + of < 2 ^ 63 :=
      shardRows_isOk.mp ⟨rows, hrows⟩ _ sharded_oneVideo
    rw [Int.tmod_eq_of_lt (by decide) (by omega)] at hfits
    omega
  · intro hle q now after t failures hhash
    exact partition_of_fits hof fun row _ =>
      MissingHashQuery.fits_of_le (hhash row.videoId) hle

/-- Four videos, the third of which has the hash. -/
def fourVideos : Tables where
  videos := [("a", default), ("b", default), ("c", default), ("d", default)].foldl
    (fun m (v : String × ServableVideo) => m.insert v.1 v.2) ∅
  hashes := AList.singleton ((hashesTo 0).hashKey "c")
    ⟨"0110", 640, 10, 8, none, none, none, none⟩

/-- Hashes of either sign. -/
def signedHashes : MissingHashQuery :=
  { hashesTo 0 with hashtext := fun id => if id = "b" then -7 else 2 ^ 31 - 1 }

/-- Behind the first video, -7 and 2³¹ - 1 in three shards. -/
theorem shards_partition_three :
    Partition signedHashes 0 (some "a") fourVideos {} 3 ∧
      (shardRows signedHashes 0 (some "a") fourVideos {} (some ⟨3, 2, by decide⟩)).map
        (·.map (·.videoId)) = .ok ["b"] ∧
      (shardRows signedHashes 0 (some "a") fourVideos {} (some ⟨3, 1, by decide⟩)).map
        (·.map (·.videoId)) = .ok ["d"] ∧
      (shardRows signedHashes 0 (some "a") fourVideos {} none).map
        (·.map (·.videoId)) = .ok ["b", "d"] := by
  have hhash : ∀ id, signedHashes.hashtext id < 2 ^ 31 := by
    intro id
    show (if id = "b" then -7 else (2 : ℤ) ^ 31 - 1) < 2 ^ 31
    split_ifs
    · decide
    · decide
  refine ⟨(shards_partition_iff signedHashes 0 (some "a") fourVideos {} 3
    (by decide)).mpr fun row _ =>
      MissingHashQuery.fits_of_le (hhash row.videoId) (by decide), ?_, ?_, ?_⟩
  · rfl
  · rfl
  · rfl

/-- The server admits shard 0 of the largest count, and the query fails. -/
theorem shard_overflows :
    ∃ shard, parseShard (some 0) (some (2 ^ 63 - 1)) = .ok shard ∧
      shardRows (hashesTo 1) 0 none oneVideo {} shard = .error .bigintOutOfRange ∧
      ¬ Partition (hashesTo 1) 0 none oneVideo {} (2 ^ 63 - 1) := by
  have hshard := parseShard_eq_ok.mpr
    ⟨⟨2 ^ 63 - 1, 0, by decide⟩, rfl, rfl, rfl⟩
  have hrows : shardRows (hashesTo 1) 0 none oneVideo {}
      (some ⟨2 ^ 63 - 1, 0, by decide⟩) = .error .bigintOutOfRange := rfl
  refine ⟨_, hshard, hrows, fun h => ?_⟩
  obtain ⟨rows, hok⟩ := h.answers 0 _ hshard
  rw [hrows] at hok
  cases hok

end VideoStorage.MediaIndex
