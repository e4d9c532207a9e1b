import VideoStorage.Foundation.Fallible
import VideoStorage.Foundation.Scan
import VideoStorage.MediaIndex.JobFailures
import VideoStorage.MediaIndex.Types

/-!
# Videos without a canonical hash

`videos_missing_canonical_phash`: the master rows of a shard that have no hash
of the canonical kind and are not backing off, in pages (`isPage_videosMissing`).
-/

namespace VideoStorage.MediaIndex

open Foundation

/-- A shard of a run, as `parse_shard` admits it. -/
structure Shard where
  of : ℤ
  idx : ℤ
  valid : 1 ≤ of ∧ 0 ≤ idx ∧ idx < of

def parseShard : Option ℤ → Option ℤ → Except Unit (Option Shard)
  | none, none => .ok none
  | some idx, some of =>
      if h : 1 ≤ of ∧ 0 ≤ idx ∧ idx < of then .ok (some ⟨of, idx, h⟩)
      else .error ()
  | _, _ => .error ()

structure MissingHashRow where
  videoId : String
  storageProvider : Option String
  objectKey : Option String
  servableStatus : String
  bucket : Option String
  deriving DecidableEq

/-- The columns the scan selects. -/
def ServableVideo.missingRow (videoId : String) (v : ServableVideo) :
    MissingHashRow where
  videoId := videoId
  storageProvider := v.storageProvider
  objectKey := v.objectKey
  servableStatus := v.servableStatus
  bucket := v.bucket

/-- What every page of a run asks for; `hashtext` is the database's. -/
structure MissingHashQuery where
  hashtext : String → ℤ
  hashKind : String
  hashVersion : String
  inputMediaVersion : String
  shard : Option Shard

namespace MissingHashQuery

variable (q : MissingHashQuery)

def hashKey (videoId : String) : HashKey where
  videoId := videoId
  hashKind := q.hashKind
  hashVersion := q.hashVersion
  inputMediaVersion := q.inputMediaVersion

/-- `((hashtext(video_id)::bigint % of) + of) % of = idx`, in 64 bits. -/
def inShard (videoId : String) : Except SqlError Bool :=
  match q.shard with
  | none => .ok true
  | some s =>
      let shifted := (q.hashtext videoId).tmod s.of + s.of
      if shifted < 2 ^ 63 then .ok (shifted.tmod s.of = s.idx)
      else .error .bigintOutOfRange

/-- `NOT_BACKING_OFF`: the failures of every job count, one without a retry time
is due. -/
def notBackingOff (now : ℤ) (failures : JobFailures) (videoId : String) : Bool :=
  (failures.ofVideo videoId).all fun f => ! f.nextRetryAt.any (now < ·)

theorem notBackingOff_eq_false {now : ℤ} {failures : JobFailures}
    {videoId : String} : notBackingOff now failures videoId = false ↔
      ∃ f ∈ failures.ofVideo videoId, ∃ due, f.nextRetryAt = some due ∧ now < due := by
  unfold notBackingOff
  simp only [List.all_eq_false, Bool.not_eq_true, Bool.not_eq_false',
    Option.any_eq_true, decide_eq_true_eq]

/-- The `WHERE` clause. The conditions on the master row are the scan's, the cursor
before the shard; a hash is looked for afterwards, so the shard is computed for
rows that have one, too. -/
def selects (now : ℤ) (after : Option String) (t : Tables)
    (failures : JobFailures) (row : MissingHashRow) : Except SqlError Bool :=
  if past after row.videoId then
    (q.inShard row.videoId).map fun inShard =>
      inShard && (t.get (.hash (q.hashKey row.videoId))).isNone &&
        notBackingOff now failures row.videoId
  else .ok false

end MissingHashQuery

def masterRows (t : Tables) : List MissingHashRow :=
  t.videos.entries.map fun e => e.2.missingRow e.1

def videosMissingCanonicalPhash (q : MissingHashQuery) (now : ℤ)
    (after : Option String) (limit : Option ℤ) (t : Tables)
    (failures : JobFailures) : Except SqlError (List MissingHashRow) := do
  let limit ← limitOf limit
  let rows ← selectWhere (q.selects now after t failures) (masterRows t)
  return orderLimit MissingHashRow.videoId limit rows

/-! ## What a page holds -/

/-- A master row of the shard without the hash. -/
structure Missing (q : MissingHashQuery) (t : Tables) (row : MissingHashRow) :
    Prop where
  master : ∃ v, t.get (.video row.videoId) = some v ∧
    row = v.missingRow row.videoId
  noHash : t.get (.hash (q.hashKey row.videoId)) = none
  shard : q.inShard row.videoId = .ok true

variable {q : MissingHashQuery} {now : ℤ} {after : Option String}
  {limit : Option ℤ} {t : Tables} {failures : JobFailures}
  {rows : List MissingHashRow} {row : MissingHashRow}

theorem mem_masterRows :
    row ∈ masterRows t ↔ ∃ v, t.get (.video row.videoId) = some v ∧
      row = v.missingRow row.videoId :=
  mem_map_entries fun _ _ => rfl

theorem masterRows_nodup (t : Tables) :
    ((masterRows t).map (·.videoId)).Nodup :=
  map_entries_nodup fun _ _ => rfl

theorem selects_eq_true :
    q.selects now after t failures row = .ok true ↔
      t.get (.hash (q.hashKey row.videoId)) = none ∧
      past after row.videoId ∧ q.inShard row.videoId = .ok true ∧
      MissingHashQuery.notBackingOff now failures row.videoId := by
  unfold MissingHashQuery.selects
  cases hget : t.get (.hash (q.hashKey row.videoId)) <;>
    cases hpast : past after row.videoId <;>
    cases hshard : q.inShard row.videoId <;>
    simp [Except.map, and_comm]

theorem mem_selected {sel : List MissingHashRow}
    (h : selectWhere (q.selects now after t failures) (masterRows t) = .ok sel) :
    row ∈ sel ↔ Missing q t row ∧ past after row.videoId ∧
      MissingHashQuery.notBackingOff now failures row.videoId := by
  rw [mem_selectWhere h, mem_masterRows, selects_eq_true]
  constructor
  · rintro ⟨hm, hh, hp, hs, hb⟩
    exact ⟨⟨hm, hh, hs⟩, hp, hb⟩
  · rintro ⟨⟨hm, hh, hs⟩, hp, hb⟩
    exact ⟨hm, hh, hp, hs, hb⟩

/-- Only the arithmetic of the shard can fail, on a row that is past the cursor. -/
theorem selects_isOk :
    (∃ b, q.selects now after t failures row = .ok b) ↔
      (past after row.videoId → ∃ b, q.inShard row.videoId = .ok b) := by
  unfold MissingHashQuery.selects
  cases hpast : past after row.videoId <;>
    cases hshard : q.inShard row.videoId <;>
    simp [Except.map]

theorem videosMissing_ok
    (h : videosMissingCanonicalPhash q now after limit t failures = .ok rows) :
    ∃ n sel, limitOf limit = .ok n ∧
      selectWhere (q.selects now after t failures) (masterRows t) = .ok sel ∧
      rows = orderLimit MissingHashRow.videoId n sel := by
  unfold videosMissingCanonicalPhash at h
  obtain ⟨n, hn, h⟩ := bind_eq_ok.mp h
  obtain ⟨sel, hsel, h⟩ := bind_eq_ok.mp h
  exact ⟨n, sel, hn, hsel, (Except.ok.inj h).symm⟩

/-- A page is there when the condition is, on every row. -/
theorem videosMissing_isOk_iff {n : Option ℕ} (hn : limitOf limit = .ok n) :
    (∃ rows, videosMissingCanonicalPhash q now after limit t failures = .ok rows) ↔
      ∀ row ∈ masterRows t, past after row.videoId →
        ∃ b, q.inShard row.videoId = .ok b := by
  constructor
  · rintro ⟨rows, h⟩ row hrow
    obtain ⟨_, sel, -, hsel, -⟩ := videosMissing_ok h
    exact selects_isOk.mp (isOk_of_selectWhere hsel row hrow)
  · intro h
    obtain ⟨sel, hsel⟩ := selectWhere_isOk fun row hrow =>
      selects_isOk.mpr (h row hrow)
    refine ⟨orderLimit MissingHashRow.videoId n sel, ?_⟩
    unfold videosMissingCanonicalPhash
    rw [hn, hsel]
    rfl

theorem videosMissing_isOk (hlimit : ∀ n, limit = some n → 0 ≤ n)
    (hshard : ∀ row ∈ masterRows t, ∃ b, q.inShard row.videoId = .ok b) :
    ∃ rows, videosMissingCanonicalPhash q now after limit t failures
      = .ok rows := by
  have hn : ∃ n, limitOf limit = .ok n := by
    cases limit with
    | none => exact ⟨_, rfl⟩
    | some i => exact ⟨_, if_pos (hlimit i rfl)⟩
  obtain ⟨n, hn⟩ := hn
  exact (videosMissing_isOk_iff hn).mpr fun row hrow _ => hshard row hrow

theorem length_videosMissing {n : ℤ}
    (h : videosMissingCanonicalPhash q now after (some n) t failures = .ok rows) :
    (rows.length : ℤ) ≤ n := by
  obtain ⟨m, sel, hm, -, rfl⟩ := videosMissing_ok h
  unfold limitOf at hm
  dsimp only at hm
  split_ifs at hm with hn
  obtain rfl := Except.ok.inj hm
  have hlen : (orderLimit MissingHashRow.videoId (some n.toNat) sel).length
      ≤ n.toNat := length_orderLimit_le
  omega

/-- A result without a limit leaves none out. -/
theorem mem_scan
    (h : videosMissingCanonicalPhash q now after none t failures = .ok rows) :
    row ∈ rows ↔ Missing q t row ∧ past after row.videoId ∧
      MissingHashQuery.notBackingOff now failures row.videoId := by
  obtain ⟨n, sel, hn, hsel, rfl⟩ := videosMissing_ok h
  obtain rfl := Except.ok.inj hn
  rw [(orderLimit_perm fun _ hn => by cases hn).mem_iff]
  exact mem_selected hsel

/-- In the order of the ids, each once. -/
theorem scan_sorted
    (h : videosMissingCanonicalPhash q now after none t failures = .ok rows) :
    rows.Pairwise fun a b => a.videoId < b.videoId := by
  obtain ⟨n, sel, -, hsel, rfl⟩ := videosMissing_ok h
  have hnodup : (sel.map (·.videoId)).Nodup :=
    (masterRows_nodup t).sublist ((selectWhere_sublist hsel).map _)
  have hids : ((orderLimit MissingHashRow.videoId n sel).map (·.videoId)).Nodup :=
    orderLimit_nodup hnodup
  have hne := List.pairwise_map.mp hids
  refine (orderLimit_sorted.and hne).imp ?_
  rintro a b ⟨hle, hne⟩
  exact lt_of_le_of_ne hle hne

/-- **The whole list**: without a shard and a limit every video is there that
misses the hash and is due. -/
theorem videosMissing_all (q : MissingHashQuery) (now : ℤ)
    (after : Option String) (t : Tables) (failures : JobFailures)
    (hshard : q.shard = none) :
    ∃ rows, videosMissingCanonicalPhash q now after none t failures = .ok rows ∧
      ∀ row, row ∈ rows ↔ Missing q t row ∧ past after row.videoId ∧
        MissingHashQuery.notBackingOff now failures row.videoId := by
  have hin : ∀ videoId, q.inShard videoId = .ok true := by
    intro videoId
    unfold MissingHashQuery.inShard
    rw [hshard]
  have hok : ∃ rows, videosMissingCanonicalPhash q now after none t failures = .ok rows :=
    (videosMissing_isOk_iff rfl).mpr fun _ _ _ => ⟨true, hin _⟩
  obtain ⟨rows, hrows⟩ := hok
  exact ⟨rows, hrows, fun _ => mem_scan hrows⟩

/-- What is known of a page, and of the rows that are on none yet. -/
structure IsPage (q : MissingHashQuery) (now : ℤ) (after : Option String)
    (limit : Option ℤ) (t : Tables) (failures : JobFailures)
    (rows : List MissingHashRow) : Prop where
  missing : ∀ row ∈ rows, Missing q t row
  past : ∀ row ∈ rows, past after row.videoId
  ready : ∀ row ∈ rows,
    MissingHashQuery.notBackingOff now failures row.videoId
  nodup : (rows.map (·.videoId)).Nodup
  upTo : ∀ last, rows.getLast? = some last →
    ∀ row ∈ rows, row.videoId ≤ last.videoId
  zero : limit = some 0 → rows = []
  noGaps : ∀ row, Missing q t row → Foundation.past after row.videoId →
    MissingHashQuery.notBackingOff now failures row.videoId →
    limit ≠ some 0 → row ∈ rows ∨
      ∃ last, rows.getLast? = some last ∧ last.videoId < row.videoId

theorem isPage_videosMissing
    (h : videosMissingCanonicalPhash q now after limit t failures = .ok rows) :
    IsPage q now after limit t failures rows := by
  obtain ⟨n, sel, hlimit, hsel, rfl⟩ := videosMissing_ok h
  have hmem : ∀ row, row ∈ sel ↔ Missing q t row ∧
      Foundation.past after row.videoId ∧
      MissingHashQuery.notBackingOff now failures row.videoId :=
    fun row => mem_selected hsel
  have hnodup : (sel.map (·.videoId)).Nodup :=
    (masterRows_nodup t).sublist ((selectWhere_sublist hsel).map _)
  have hon : ∀ row ∈ orderLimit MissingHashRow.videoId n sel, row ∈ sel :=
    fun row => mem_of_mem_orderLimit
  have hn : n = some 0 ↔ limit = some 0 := limitOf_zero hlimit
  refine ⟨fun row hr => ((hmem row).mp (hon row hr)).1,
    fun row hr => ((hmem row).mp (hon row hr)).2.1,
    fun row hr => ((hmem row).mp (hon row hr)).2.2,
    orderLimit_nodup hnodup,
    fun last hlast row hr => le_last hlast hr, ?_, ?_⟩
  · intro hzero
    rw [hn.mpr hzero]
    rfl
  · intro row hm hp hb hzero
    have hrow : row ∈ sel := (hmem row).mpr ⟨hm, hp, hb⟩
    cases hlast : (orderLimit MissingHashRow.videoId n sel).getLast? with
    | none =>
        -- an empty page that was not asked to be: nothing was selected
        have hnil := orderLimit_eq_nil (fun h => hzero (hn.mp h))
          (List.getLast?_eq_none_iff.mp hlast)
        rw [hnil] at hrow
        cases hrow
    | some last =>
        exact (mem_page_or_past hnodup hlast hrow).imp_right
          fun hlt => ⟨last, rfl, hlt⟩

end VideoStorage.MediaIndex
