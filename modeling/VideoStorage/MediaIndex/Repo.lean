import VideoStorage.Foundation.AppendLog
import VideoStorage.Foundation.Perform
import VideoStorage.MediaIndex.Types

/-!
# The writers' helpers

`upsert_servable_video_txn` and `upsert_hash_record_txn` as transaction bodies:
insert, on a conflict read the row under its lock, compare, update. Each comes
with what a committed call of it did to its row (`eval_upsert…`): the outcome
says which of the three happened, nothing else changed and no event was
appended.
-/

namespace VideoStorage.MediaIndex

open Foundation

variable {O : OtherWork}

/-! ## Master rows -/

namespace ServableVideoInput

/-- The row the `INSERT` writes. -/
def toRow (input : ServableVideoInput) : ServableVideo where
  publisherUserId := input.publisherUserId
  postId := input.postId
  sourceKind := input.sourceKind
  sourceRef := input.sourceRef
  servableStatus := input.servableStatus
  nsfwState := input.nsfwState
  storageProvider := input.storageProvider
  bucket := input.bucket
  objectKey := input.objectKey
  canonicalUrl := input.canonicalUrl
  thumbnailKey := input.thumbnailKey
  durationMs := input.durationMs
  width := input.width
  height := input.height
  fps := input.fps
  container := input.container
  videoCodec := input.videoCodec
  audioCodec := input.audioCodec
  moovAtomFront := input.moovAtomFront
  canonicalEncodingVersion := input.canonicalEncodingVersion
  discoveredFrom := input.discoveredFrom

/-- The row the `UPDATE` leaves: `or` is `COALESCE`, and of `source_ref` the old
value comes first. -/
def updateRow (input : ServableVideoInput) (row : ServableVideo) :
    ServableVideo where
  publisherUserId := input.publisherUserId.or row.publisherUserId
  postId := input.postId.or row.postId
  sourceKind := input.sourceKind
  sourceRef := row.sourceRef.or input.sourceRef
  servableStatus := input.servableStatus
  nsfwState := input.nsfwState.or row.nsfwState
  storageProvider := input.storageProvider.or row.storageProvider
  bucket := input.bucket.or row.bucket
  objectKey := input.objectKey.or row.objectKey
  canonicalUrl := input.canonicalUrl.or row.canonicalUrl
  thumbnailKey := input.thumbnailKey.or row.thumbnailKey
  durationMs := input.durationMs.or row.durationMs
  width := input.width.or row.width
  height := input.height.or row.height
  fps := input.fps.or row.fps
  container := input.container.or row.container
  videoCodec := input.videoCodec.or row.videoCodec
  audioCodec := input.audioCodec.or row.audioCodec
  moovAtomFront := input.moovAtomFront.or row.moovAtomFront
  canonicalEncodingVersion :=
    input.canonicalEncodingVersion.or row.canonicalEncodingVersion
  discoveredFrom := input.discoveredFrom

end ServableVideoInput

/-- `optional_str_matches` and, at the types with lawful equality,
`optional_eq_matches`: an absent input matches whatever the row has. -/
def optionalMatches {α : Type} [DecidableEq α] (existing incoming : Option α) :
    Bool :=
  match incoming with
  | none => true
  | some x => existing == some x

/-- `optional_eq_matches` at `f64`. -/
def optionalF64Matches (existing incoming : Option F64) : Bool :=
  match incoming, existing with
  | none, _ => true
  | some x, some y => y.same x
  | some _, none => false

def sourceRefMatches (existing incoming : Option String) : Bool :=
  existing.isSome || incoming.isNone

def servableVideoMaterialMatches (row : ServableVideo)
    (input : ServableVideoInput) : Bool :=
  optionalMatches row.publisherUserId input.publisherUserId
    && optionalMatches row.postId input.postId
    && row.sourceKind == input.sourceKind
    && sourceRefMatches row.sourceRef input.sourceRef
    && row.servableStatus == input.servableStatus
    && optionalMatches row.nsfwState input.nsfwState
    && optionalMatches row.storageProvider input.storageProvider
    && optionalMatches row.bucket input.bucket
    && optionalMatches row.objectKey input.objectKey
    && optionalMatches row.canonicalUrl input.canonicalUrl
    && optionalMatches row.thumbnailKey input.thumbnailKey
    && optionalMatches row.durationMs input.durationMs
    && optionalMatches row.width input.width
    && optionalMatches row.height input.height
    && optionalF64Matches row.fps input.fps
    && optionalMatches row.container input.container
    && optionalMatches row.videoCodec input.videoCodec
    && optionalMatches row.audioCodec input.audioCodec
    && optionalMatches row.moovAtomFront input.moovAtomFront
    && optionalMatches row.canonicalEncodingVersion
      input.canonicalEncodingVersion
    && row.discoveredFrom == input.discoveredFrom

def insertSourceRow (input : ServableVideoInput) : MediaTxn O Bool :=
  match input.sourceRef with
  | some sourceRef =>
      insertIfAbsent (D := mediaIndex O)
        (.source ⟨input.videoId, input.sourceKind, sourceRef⟩) ⟨none⟩
  | none => return false

def upsertServableVideoTxn (input : ServableVideoInput) :
    MediaTxn O ServableVideoUpsertOutcome := do
  let inserted ← insertIfAbsent (D := mediaIndex O)
    (.video input.videoId) input.toRow
  let sourceInserted ← insertSourceRow input
  if inserted then
    return ⟨.inserted, sourceInserted⟩
  let existing ← selectForUpdate (D := mediaIndex O) (.video input.videoId)
  if servableVideoMaterialMatches existing input then
    return ⟨.unchanged, sourceInserted⟩
  update (D := mediaIndex O) (.video input.videoId) input.updateRow
  return ⟨.changed, sourceInserted⟩

/-! ## Hash rows -/

namespace HashRecordInput

def key (input : HashRecordInput) : HashKey where
  videoId := input.videoId
  hashKind := input.hashKind
  hashVersion := input.hashVersion
  inputMediaVersion := input.inputMediaVersion

/-- The row that both the `INSERT` and the `UPDATE` leave. -/
def toRow (input : HashRecordInput) : HashRecord where
  hashValue := input.hashValue
  hashBitLength := input.hashBitLength
  numFrames := input.numFrames
  hashSize := input.hashSize
  computedFromProvider := input.computedFromProvider
  computedFromBucket := input.computedFromBucket
  computedFromKey := input.computedFromKey
  metadata := input.metadata

end HashRecordInput

/-- Equality of `Option<Value>`. -/
def metadataMatches : Option Json → Option Json → Bool
  | none, none => true
  | some a, some b => a.same b
  | _, _ => false

def hashMaterialMatches (row : HashRecord) (input : HashRecordInput) : Bool :=
  row.hashValue == input.hashValue
    && row.hashBitLength == input.hashBitLength
    && row.numFrames == input.numFrames
    && row.hashSize == input.hashSize
    && row.computedFromProvider == input.computedFromProvider
    && row.computedFromBucket == input.computedFromBucket
    && row.computedFromKey == input.computedFromKey
    && metadataMatches row.metadata input.metadata

def upsertHashRecordTxn (input : HashRecordInput) :
    MediaTxn O UpsertOutcome := do
  let inserted ← insertIfAbsent (D := mediaIndex O)
    (.hash input.key) input.toRow
  if inserted then
    return .inserted
  let existing ← selectForUpdate (D := mediaIndex O) (.hash input.key)
  if hashMaterialMatches existing input then
    return .unchanged
  update (D := mediaIndex O) (.hash input.key) (fun _ => input.toRow)
  return .changed

/-! ## What a call does -/

/-- What an outcome says about the row before and after, when `new` is the row
an insert writes, `upd` what an update makes of a row that does not match. -/
def UpsertOutcome.Explains {R : Type} (new : R) (upd : R → R)
    (matching : R → Bool) (before after : Option R) : UpsertOutcome → Prop
  | .inserted => before = none ∧ after = some new
  | .changed => ∃ row, before = some row ∧ matching row = false ∧
      after = some (upd row)
  | .unchanged => ∃ row, before = some row ∧ matching row = true ∧
      after = some row

namespace UpsertOutcome.Explains

variable {R : Type} {new row : R} {upd : R → R} {matching : R → Bool}
  {before after : Option R} {out : UpsertOutcome}

/-- What did not write left the row alone. -/
theorem same (h : out.Explains new upd matching before after)
    (hw : out.isWrite = false) : after = before := by
  cases out with
  | inserted => cases hw
  | changed => cases hw
  | unchanged =>
      obtain ⟨row, hbefore, -, hafter⟩ := h
      exact hafter.trans hbefore.symm

/-- Over no row an upsert inserts. -/
theorem inserted (h : out.Explains new upd matching before after)
    (hnone : before = none) : out = .inserted ∧ after = some new := by
  cases out with
  | inserted => exact ⟨rfl, h.2⟩
  | changed =>
      obtain ⟨row, hbefore, -⟩ := h
      cases hnone.symm.trans hbefore
  | unchanged =>
      obtain ⟨row, hbefore, -⟩ := h
      cases hnone.symm.trans hbefore

/-- A row that matches is kept. -/
theorem matched (h : out.Explains new upd matching before after)
    (hrow : before = some row) (hmatch : matching row = true) :
    out = .unchanged ∧ after = before := by
  cases out with
  | inserted => cases h.1.symm.trans hrow
  | changed =>
      obtain ⟨row', hbefore, hm, -⟩ := h
      obtain rfl := Option.some.inj (hrow.symm.trans hbefore)
      cases hmatch.symm.trans hm
  | unchanged => exact ⟨rfl, h.same rfl⟩

end UpsertOutcome.Explains

variable {st : (mediaIndex O).Store} {l l' : Loc (mediaIndex O)}

theorem eval_upsertHashRecordTxn {input : HashRecordInput} {out : UpsertOutcome}
    (h : Eval st (upsertHashRecordTxn (O := O) input) l out l') :
    l.Only (· = TableKey.hash input.key) st l' ∧
      out.Explains input.toRow (fun _ => input.toRow)
        (hashMaterialMatches · input)
        ((mediaIndex O).get (l.view st) (TableKey.hash input.key))
        ((mediaIndex O).get (l'.view st) (TableKey.hash input.key)) := by
  unfold upsertHashRecordTxn at h
  simp only [Prog.bind_eq, Prog.pure_eq] at h
  obtain ⟨b, l₁, hins, hrest⟩ := eval_bind.mp h
  rcases eval_insertIfAbsent hins with ⟨hp, rfl, rfl⟩ | ⟨hp, -, rfl, rfl⟩
  · rw [if_neg Bool.false_ne_true] at hrest
    obtain ⟨honly, row, hrow, hcase⟩ := eval_compareAndUpdate hrest
    refine ⟨honly, ?_⟩
    rcases hcase with ⟨hm, rfl, hafter⟩ | ⟨hm, rfl, hafter⟩
    · exact ⟨row, hrow, hm, hafter⟩
    · exact ⟨row, hrow, hm, hafter⟩
  · obtain ⟨rfl, rfl⟩ := eval_ret.mp hrest
    refine ⟨l.only_write _ rfl, ?_, Loc.get_view_write_self ..⟩
    simpa [Schema.present] using hp

/-- The store is left as it was, or with the one row written. -/
theorem eval_upsertHashRecordTxn_view {input : HashRecordInput}
    {out : UpsertOutcome}
    (h : Eval st (upsertHashRecordTxn (O := O) input) l out l') :
    l'.view st = l.view st ∨
      ∃ r, l'.view st = (l.view st).set (.hash input.key) r := by
  have hwrite : ∀ (l : Loc (mediaIndex O)) (r : HashRecord),
      (l.write (TableKey.hash input.key) r).view st
        = (l.view st).set (.hash input.key) r :=
    fun l r => Schema.applyWrites_append ..
  unfold upsertHashRecordTxn at h
  simp only [Prog.bind_eq, Prog.pure_eq] at h
  obtain ⟨b, l₁, hins, hrest⟩ := eval_bind.mp h
  rcases eval_insertIfAbsent hins with ⟨-, rfl, rfl⟩ | ⟨-, -, rfl, rfl⟩
  · rw [if_neg Bool.false_ne_true] at hrest
    obtain ⟨row, -, ⟨-, -, rfl⟩ | ⟨-, -, rfl⟩⟩ := eval_compareAndUpdate_loc hrest
    · exact .inl rfl
    · exact .inr ⟨_, hwrite _ _⟩
  · obtain ⟨-, rfl⟩ := eval_ret.mp hrest
    exact .inr ⟨_, hwrite _ _⟩

theorem eval_insertSourceRow {input : ServableVideoInput} {b : Bool}
    (h : Eval st (insertSourceRow (O := O) input) l b l') :
    l.Only (fun k => ∃ key, k = TableKey.source key) st l' := by
  unfold insertSourceRow at h
  split at h
  · rcases eval_insertIfAbsent h with ⟨-, -, rfl⟩ | ⟨-, -, -, rfl⟩
    · exact .refl _
    · exact l.only_write _ ⟨_, rfl⟩
  · obtain ⟨-, rfl⟩ := eval_ret.mp h
    exact .refl _

/-- The rows an upsert of this video may touch. -/
def VideoRows (videoId : String) (k : TableKey) : Prop :=
  k = .video videoId ∨ ∃ key, k = .source key

theorem eval_upsertServableVideoTxn {input : ServableVideoInput}
    {out : ServableVideoUpsertOutcome}
    (h : Eval st (upsertServableVideoTxn (O := O) input) l out l') :
    l.Only (VideoRows input.videoId) st l' ∧
      out.media.Explains input.toRow input.updateRow
        (servableVideoMaterialMatches · input)
        ((mediaIndex O).get (l.view st) (TableKey.video input.videoId))
        ((mediaIndex O).get (l'.view st) (TableKey.video input.videoId)) := by
  unfold upsertServableVideoTxn at h
  simp only [Prog.bind_eq, Prog.pure_eq] at h
  obtain ⟨b, l₁, hins, hrest⟩ := eval_bind.mp h
  obtain ⟨src, l₂, hsrc, htail⟩ := eval_bind.mp hrest
  have honly₂ := eval_insertSourceRow hsrc
  -- the source row is another row than the master row
  have hsame : (mediaIndex O).get (l₂.view st) (TableKey.video input.videoId)
      = (mediaIndex O).get (l₁.view st) (TableKey.video input.videoId) :=
    honly₂.rows _ (by rintro ⟨key, ⟨⟩⟩)
  have hsub₂ : l₁.Only (VideoRows input.videoId) st l₂ :=
    ⟨fun k hk => honly₂.rows k fun hs => hk (.inr hs), honly₂.pend⟩
  rcases eval_insertIfAbsent hins with ⟨hp, rfl, rfl⟩ | ⟨hp, -, rfl, rfl⟩
  · rw [if_neg Bool.false_ne_true] at htail
    obtain ⟨honly, row, hrow, hcase⟩ := eval_compareAndUpdate htail
    have hsub : l₂.Only (VideoRows input.videoId) st l' :=
      ⟨fun k hk => honly.rows k fun hs => hk (.inl hs), honly.pend⟩
    rw [hsame] at hrow
    refine ⟨hsub₂.trans hsub, ?_⟩
    rcases hcase with ⟨hm, rfl, hafter⟩ | ⟨hm, rfl, hafter⟩
    · exact ⟨row, hrow, hm, hafter⟩
    · exact ⟨row, hrow, hm, hafter⟩
  · rw [if_pos rfl] at htail
    obtain ⟨rfl, rfl⟩ := eval_ret.mp htail
    refine ⟨(l.only_write _ (.inl rfl)).trans hsub₂, ?_, ?_⟩
    · simpa [Schema.present] using hp
    · rw [hsame]
      exact Loc.get_view_write_self ..

/-! The two helpers leave the feed to their callers. -/

variable {Q : FeedEventRow → Prop}

theorem disciplined_upsertServableVideoTxn (held : Bool)
    (input : ServableVideoInput) :
    Disciplined (D := mediaIndex O) Q held (upsertServableVideoTxn input) := by
  unfold upsertServableVideoTxn insertSourceRow
  refine (disciplined_insertIfAbsent held _ _).bind fun inserted => ?_
  refine Disciplined.bind ?_ fun src => ?_
  · split
    · exact disciplined_insertIfAbsent held _ _
    · trivial
  · split
    · trivial
    · refine (disciplined_selectForUpdate held _).bind fun row => ?_
      split
      · trivial
      · exact (disciplined_update held _ _).bind fun _ => trivial

theorem disciplined_upsertHashRecordTxn (held : Bool) (input : HashRecordInput) :
    Disciplined (D := mediaIndex O) Q held (upsertHashRecordTxn input) := by
  unfold upsertHashRecordTxn
  refine (disciplined_insertIfAbsent held _ _).bind fun inserted => ?_
  split
  · trivial
  · refine (disciplined_selectForUpdate held _).bind fun row => ?_
    split
    · trivial
    · exact (disciplined_update held _ _).bind fun _ => trivial

/-! They look at no number either. -/

theorem numberless_upsertServableVideoTxn (input : ServableVideoInput) :
    Numberless (upsertServableVideoTxn (O := O) input) := by
  unfold upsertServableVideoTxn insertSourceRow
  refine Numberless.bind (fun _ => trivial) fun inserted => ?_
  refine Numberless.bind ?_ fun src => ?_
  · split
    · exact fun _ => trivial
    · trivial
  · split
    · trivial
    · refine Numberless.bind (fun _ => trivial) fun row => ?_
      split <;> trivial

theorem numberless_upsertHashRecordTxn (input : HashRecordInput) :
    Numberless (upsertHashRecordTxn (O := O) input) := by
  unfold upsertHashRecordTxn
  refine Numberless.bind (fun _ => trivial) fun inserted => ?_
  split
  · trivial
  · refine Numberless.bind (fun _ => trivial) fun row => ?_
    split <;> trivial

/-! ## An upsert of a master row never fails -/

section Performs

variable {O : OtherWork} {ε X : Type} {fault : Fault → ε}
  {act : (w : (mediaIndex O).Work) → X → Except ε ((mediaIndex O).Answer w × X)}
  {ans : Oracle (mediaIndex O)} {st : (mediaIndex O).Store}
  {l : Loc (mediaIndex O)} {x : X}

theorem present_write {k k' : TableKey} {r : (mediaIndex O).Row k'}
    (h : (mediaIndex O).present (l.view st) k) :
    (mediaIndex O).present ((l.write k' r).view st) k := by
  unfold Loc.view Loc.write
  rw [Schema.applyWrites_append]
  exact Schema.present_applyWrites _ h

theorem present_write_self {k : TableKey} {r : (mediaIndex O).Row k} :
    (mediaIndex O).present ((l.write k r).view st) k := by
  unfold Schema.present
  rw [Loc.get_view_write_self]
  rfl

/-- The rows an upsert of this video leaves there. -/
structure UpsertLeft (input : ServableVideoInput) (t : (mediaIndex O).Store) :
    Prop where
  video : (mediaIndex O).present t (TableKey.video input.videoId)
  source : ∀ ref, input.sourceRef = some ref → (mediaIndex O).present t
    (TableKey.source ⟨input.videoId, input.sourceKind, ref⟩)

theorem UpsertLeft.write {input : ServableVideoInput} {k : TableKey}
    {r : (mediaIndex O).Row k} (h : UpsertLeft input (l.view st)) :
    UpsertLeft input ((l.write k r).view st) :=
  ⟨present_write h.video, fun ref href => present_write (h.source ref href)⟩

theorem performs_insertSourceRow {input : ServableVideoInput}
    (hvideo : (mediaIndex O).present (l.view st)
      (TableKey.video input.videoId)) :
    Performs fault act ans st (insertSourceRow input) l x
      fun _ l' x' => x = x' ∧ UpsertLeft input (l'.view st) := by
  unfold insertSourceRow
  cases href : input.sourceRef with
  | none =>
      refine performs_ret ⟨rfl, hvideo, fun ref h => ?_⟩
      rw [href] at h
      cases h
  | some ref =>
      have hsource : ∀ ref', input.sourceRef = some ref' → ref' = ref := by
        intro ref' h
        exact Option.some.inj (h.symm.trans href)
      refine performs_insertIfAbsent ?_ ?_ ?_
      · simpa using hvideo
      · intro hp
        refine ⟨rfl, hvideo, fun ref' h => ?_⟩
        rwa [hsource ref' h]
      · intro _
        refine ⟨rfl, present_write hvideo, fun ref' h => ?_⟩
        rw [hsource ref' h]
        exact present_write_self

theorem performs_upsertServableVideoTxn {input : ServableVideoInput} :
    Performs fault act ans st (upsertServableVideoTxn input) l x
      fun _ l' x' => x = x' ∧ UpsertLeft input (l'.view st) := by
  unfold upsertServableVideoTxn
  rw [Prog.bind_eq]
  refine Performs.bind (Q := fun _ l' x' => x = x' ∧
      (mediaIndex O).present (l'.view st) (TableKey.video input.videoId))
    (performs_insertIfAbsent ?_ ?_ ?_) ?_
  · simp
  · exact fun hp => ⟨rfl, hp⟩
  · exact fun _ => ⟨rfl, present_write_self⟩
  · rintro inserted l₁ x₁ ⟨rfl, hvideo⟩
    rw [Prog.bind_eq]
    refine Performs.bind (performs_insertSourceRow hvideo) ?_
    rintro src l₂ x₂ ⟨rfl, hleft⟩
    cases inserted with
    | true => exact performs_ret ⟨rfl, hleft⟩
    | false =>
        obtain ⟨r, hr⟩ := Option.isSome_iff_exists.mp hleft.video
        exact performs_compareAndUpdate hr ⟨rfl, hleft⟩ ⟨rfl, hleft.write⟩

end Performs

end VideoStorage.MediaIndex
