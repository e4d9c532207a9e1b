import VideoStorage.MediaIndex.Repo

/-!
# The laws of an upsert

`upsert_servable_video_with_client` as a function of the tables (`Tables.upserted`,
`eval_upsertServableVideoTxn_tables`), and what it keeps: it reports `Unchanged`
exactly when its `UPDATE` would change no column, a second call does nothing, and no
value gives way to a `NULL` (`upsert_laws`).
-/

namespace VideoStorage.MediaIndex

open Foundation

/-! ## The columns -/

/-- Neither of two `DOUBLE PRECISION` values `IS DISTINCT FROM` the other: for the
database the two zeros are one number, and so are the NaNs. -/
def notDistinct : Option F64 → Option F64 → Bool
  | none, none => true
  | some x, some y => x.same y || (x.isNaN && y.isNaN)
  | _, _ => false

/-- Two rows with the same values in all 21 columns. -/
structure SameMaterial (a b : ServableVideo) : Prop where
  fps : notDistinct a.fps b.fps = true
  others : { a with fps := b.fps } = b

/-- Which of the columns that may be `NULL` are not. -/
def ServableVideo.filled (row : ServableVideo) : List Bool :=
  [row.publisherUserId.isSome, row.postId.isSome, row.sourceRef.isSome,
    row.nsfwState.isSome, row.storageProvider.isSome, row.bucket.isSome,
    row.objectKey.isSome, row.canonicalUrl.isSome, row.thumbnailKey.isSome,
    row.durationMs.isSome, row.width.isSome, row.height.isSome, row.fps.isSome,
    row.container.isSome, row.videoCodec.isSome, row.audioCodec.isSome,
    row.moovAtomFront.isSome, row.canonicalEncodingVersion.isSome]

/-- No column went from a value to `NULL`. -/
def KeepsValues (before after : ServableVideo) : Prop :=
  List.Forall₂ (fun b a => b = true → a = true) before.filled after.filled

theorem KeepsValues.refl (row : ServableVideo) : KeepsValues row row :=
  List.forall₂_same.mpr fun _ _ h => h

section Columns

variable {α : Type} [DecidableEq α] {existing incoming : Option α}

theorem optionalMatches_iff :
    optionalMatches existing incoming = true ↔
      incoming.or existing = existing := by
  cases incoming with
  | none => simp [optionalMatches]
  | some x =>
      simp only [optionalMatches, Option.some_or, beq_iff_eq]
      exact eq_comm

theorem optionalMatches_self : optionalMatches existing existing = true := by
  cases existing <;> simp [optionalMatches]

theorem optionalMatches_or :
    optionalMatches (incoming.or existing) incoming = true := by
  cases incoming <;> simp [optionalMatches]

theorem sourceRefMatches_iff {existing incoming : Option String} :
    sourceRefMatches existing incoming = true ↔
      existing.or incoming = existing := by
  cases existing <;> simp [sourceRefMatches]

end Columns

section Fps

variable {existing incoming : Option F64}

theorem same_self {x : F64} (h : x.isNaN = false) : x.same x = true := by
  simp [F64.same, h]

theorem same_comm (x y : F64) : x.same y = y.same x := by
  unfold F64.same
  rw [Bool.and_comm !x.isNaN, Bool.and_comm x.isZero, BEq.comm]

theorem notDistinct_self : notDistinct existing existing = true := by
  cases existing with
  | none => rfl
  | some x => cases h : x.isNaN <;> simp [notDistinct, F64.same, h]

/-- The program compares as the database does, but for the NaNs. -/
theorem optionalF64Matches_iff (hfps : ∀ x ∈ incoming, x.isNaN = false) :
    optionalF64Matches existing incoming = true ↔
      notDistinct (incoming.or existing) existing = true := by
  cases incoming with
  | none => simp [optionalF64Matches, notDistinct_self]
  | some x =>
      have hx : x.isNaN = false := hfps x rfl
      cases existing with
      | none => simp [optionalF64Matches, notDistinct]
      | some y => simp [optionalF64Matches, notDistinct, hx, same_comm y x]

theorem optionalF64Matches_or (hfps : ∀ x ∈ incoming, x.isNaN = false) :
    optionalF64Matches (incoming.or existing) incoming = true := by
  cases incoming with
  | none => rfl
  | some x => exact same_self (hfps x rfl)

end Fps

/-! ## The comparison and the update -/

section Rows

variable {row : ServableVideo} {input : ServableVideoInput}

/-- **Column by column**, the comparison in the program says what the `UPDATE`
would do. -/
theorem servableVideoMaterialMatches_iff
    (hfps : ∀ x ∈ input.fps, x.isNaN = false) :
    servableVideoMaterialMatches row input = true ↔
      SameMaterial (input.updateRow row) row := by
  unfold servableVideoMaterialMatches
  simp only [Bool.and_eq_true, beq_iff_eq, optionalMatches_iff,
    sourceRefMatches_iff, optionalF64Matches_iff hfps,
    @eq_comm _ _ input.sourceKind, @eq_comm _ _ input.servableStatus,
    @eq_comm _ _ input.discoveredFrom]
  cases row
  constructor
  · intro h
    constructor
    · exact h.1.1.1.1.1.1.2
    · simp [ServableVideoInput.updateRow, h]
  · rintro ⟨hfps', hothers⟩
    simp only [ServableVideoInput.updateRow, ServableVideo.mk.injEq] at hfps' hothers
    simp [hfps', hothers]

theorem matches_updateRow (hfps : ∀ x ∈ input.fps, x.isNaN = false) :
    servableVideoMaterialMatches (input.updateRow row) input = true := by
  have href : sourceRefMatches (row.sourceRef.or input.sourceRef) input.sourceRef
      = true := by
    cases row.sourceRef <;> cases input.sourceRef <;> rfl
  simp [servableVideoMaterialMatches, ServableVideoInput.updateRow,
    optionalMatches_or, optionalF64Matches_or hfps, href]

theorem matches_toRow (hfps : ∀ x ∈ input.fps, x.isNaN = false) :
    servableVideoMaterialMatches input.toRow input = true := by
  have href : sourceRefMatches input.sourceRef input.sourceRef = true := by
    cases input.sourceRef <;> rfl
  have hf64 : optionalF64Matches input.fps input.fps = true := by
    have h := @optionalF64Matches_or none _ hfps
    rwa [Option.or_none] at h
  simp [servableVideoMaterialMatches, ServableVideoInput.toRow,
    optionalMatches_self, hf64, href]

/-- `COALESCE` puts no `NULL` in the place of a value. -/
theorem keepsValues_updateRow : KeepsValues row (input.updateRow row) := by
  simp +contextual [KeepsValues, ServableVideo.filled,
    ServableVideoInput.updateRow]

theorem sourceRef_updateRow {ref : String} (h : row.sourceRef = some ref) :
    (input.updateRow row).sourceRef = some ref := by
  simp [ServableVideoInput.updateRow, h]

end Rows

/-! ## The call on the tables -/

/-- The row of `servable_video_sources` an input asks for. -/
def ServableVideoInput.sourceKey (input : ServableVideoInput) : Option SourceKey :=
  input.sourceRef.map fun ref => ⟨input.videoId, input.sourceKind, ref⟩

namespace Tables

/-- `INSERT … ON CONFLICT DO NOTHING`: whether the row is new, and the tables. -/
def insertIfAbsent (t : Tables) (k : TableKey) (row : k.Row) : Bool × Tables :=
  if (t.get k).isSome then (false, t) else (true, t.set k row)

def insertSource (t : Tables) (input : ServableVideoInput) : Bool × Tables :=
  match input.sourceKey with
  | some key => t.insertIfAbsent (.source key) ⟨none⟩
  | none => (false, t)

/-- The whole call: what it returns, and the tables it leaves. -/
def upserted (t : Tables) (input : ServableVideoInput) :
    ServableVideoUpsertOutcome × Tables :=
  let inserted := t.insertIfAbsent (.video input.videoId) input.toRow
  let source := inserted.2.insertSource input
  match t.get (.video input.videoId) with
  | none => (⟨.inserted, source.1⟩, source.2)
  | some row =>
      if servableVideoMaterialMatches row input then
        (⟨.unchanged, source.1⟩, source.2)
      else
        (⟨.changed, source.1⟩,
          source.2.set (.video input.videoId) (input.updateRow row))

/-- The master row the call leaves. -/
def rowAfter (t : Tables) (input : ServableVideoInput) : ServableVideo :=
  match t.get (.video input.videoId) with
  | none => input.toRow
  | some row =>
      if servableVideoMaterialMatches row input then row
      else input.updateRow row

variable {t : Tables} {input : ServableVideoInput} {k k' : TableKey} {row : k.Row}

theorem get_insertIfAbsent_ne (h : k' ≠ k) :
    (t.insertIfAbsent k row).2.get k' = t.get k' := by
  unfold insertIfAbsent
  split
  · rfl
  · exact t.get_set_ne _ _ _ h

theorem get_insertIfAbsent_self :
    (t.insertIfAbsent k row).2.get k = some ((t.get k).getD row) := by
  unfold insertIfAbsent
  cases h : t.get k with
  | none => simp [get_set_self]
  | some r => simp [h]

theorem insertSource_fst :
    (t.insertSource input).1 = true ↔
      ∃ key, input.sourceKey = some key ∧ t.get (.source key) = none := by
  unfold insertSource
  cases hkey : input.sourceKey with
  | none => simp
  | some key => cases h : t.get (.source key) <;> simp [insertIfAbsent, h]

theorem get_insertSource (h : ∀ key, k ≠ .source key) :
    (t.insertSource input).2.get k = t.get k := by
  unfold insertSource
  split
  · exact get_insertIfAbsent_ne (h _)
  · rfl

/-- The triple asked for is there afterwards; it is the only one that may be new. -/
theorem get_insertSource_source (key : SourceKey) :
    (t.insertSource input).2.get (.source key)
      = if input.sourceKey = some key then
          some ((t.get (.source key)).getD ⟨none⟩)
        else t.get (.source key) := by
  unfold insertSource
  cases hkey : input.sourceKey with
  | none => simp
  | some key' =>
      by_cases h : key' = key
      · subst h
        simpa using get_insertIfAbsent_self
      · rw [if_neg fun e => h (Option.some.inj e)]
        apply get_insertIfAbsent_ne
        rintro ⟨⟩
        exact h rfl

theorem get_upserted_ne (h : k ≠ .video input.videoId) :
    (t.upserted input).2.get k = ((t.insertIfAbsent (.video input.videoId)
      input.toRow).2.insertSource input).2.get k := by
  unfold upserted
  cases t.get (.video input.videoId) with
  | none => rfl
  | some row =>
      by_cases hm : servableVideoMaterialMatches row input
      · simp [hm]
      · simpa [hm] using get_set_ne _ _ _ _ h

theorem get_upserted_other (h : k ≠ .video input.videoId)
    (hsrc : ∀ key, k ≠ .source key) : (t.upserted input).2.get k = t.get k := by
  rw [get_upserted_ne h, get_insertSource hsrc]
  exact get_insertIfAbsent_ne h

theorem get_upserted_source (key : SourceKey) :
    (t.upserted input).2.get (.source key)
      = if input.sourceKey = some key then
          some ((t.get (.source key)).getD ⟨none⟩)
        else t.get (.source key) := by
  have hne : TableKey.source key ≠ .video input.videoId := nofun
  rw [get_upserted_ne hne, get_insertSource_source, get_insertIfAbsent_ne hne]

theorem get_upserted_self :
    (t.upserted input).2.get (.video input.videoId) = some (t.rowAfter input) := by
  have hsrc : ∀ key, TableKey.video input.videoId ≠ .source key := nofun
  unfold upserted rowAfter
  cases hrow : t.get (.video input.videoId) with
  | none =>
      rw [get_insertSource hsrc, get_insertIfAbsent_self, hrow]
      rfl
  | some row =>
      by_cases hm : servableVideoMaterialMatches row input
      · simp [hm, get_insertSource hsrc, get_insertIfAbsent_self, hrow]
      · simp [hm, get_set_self]

theorem sourceInserted_upserted :
    (t.upserted input).1.sourceInserted = true ↔
      ∃ key, input.sourceKey = some key ∧ t.get (.source key) = none := by
  have hfst : (t.upserted input).1.sourceInserted
      = ((t.insertIfAbsent (.video input.videoId) input.toRow).2.insertSource
          input).1 := by
    unfold upserted
    cases t.get (.video input.videoId) with
    | none => rfl
    | some row => by_cases hm : servableVideoMaterialMatches row input <;> simp [hm]
  have hget : ∀ key, (t.insertIfAbsent (.video input.videoId) input.toRow).2.get
      (.source key) = t.get (.source key) := by
    intro key
    apply get_insertIfAbsent_ne
    rintro ⟨⟩
  rw [hfst, insertSource_fst]
  simp only [hget]

theorem media_upserted :
    (t.upserted input).1.media = .unchanged ↔
      ∃ row, t.get (.video input.videoId) = some row ∧
        servableVideoMaterialMatches row input = true := by
  unfold upserted
  cases t.get (.video input.videoId) with
  | none => simp
  | some row => by_cases hm : servableVideoMaterialMatches row input <;> simp [hm]

theorem matches_rowAfter (hfps : ∀ x ∈ input.fps, x.isNaN = false) :
    servableVideoMaterialMatches (t.rowAfter input) input = true := by
  unfold rowAfter
  cases t.get (.video input.videoId) with
  | none => exact matches_toRow hfps
  | some row =>
      by_cases hm : servableVideoMaterialMatches row input
      · simp [hm]
      · simpa [hm] using matches_updateRow hfps

/-- **Again.** The second call finds everything as it would leave it. -/
theorem upserted_upserted (hfps : ∀ x ∈ input.fps, x.isNaN = false) :
    (t.upserted input).2.upserted input
      = (⟨.unchanged, false⟩, (t.upserted input).2) := by
  have hvideo : (t.upserted input).2.get (.video input.videoId)
      = some (t.rowAfter input) := get_upserted_self
  have hinserted : (t.upserted input).2.insertIfAbsent (.video input.videoId)
      input.toRow = (false, (t.upserted input).2) := by
    simp [insertIfAbsent, hvideo]
  have hsource : (t.upserted input).2.insertSource input
      = (false, (t.upserted input).2) := by
    unfold insertSource
    cases hkey : input.sourceKey with
    | none => rfl
    | some key => simp [insertIfAbsent, get_upserted_source, hkey]
  rw [upserted, hinserted]
  simp [hsource, hvideo, matches_rowAfter hfps]

end Tables

section Refinement

variable {O : OtherWork} {st : (mediaIndex O).Store}
  {l l' : Loc (mediaIndex O)} {input : ServableVideoInput}

theorem view_write (k : TableKey) (row : k.Row) :
    Loc.view (D := mediaIndex O) (l.write k row) st
      = Tables.set (l.view st) k row := by
  simp [Loc.view, Loc.write, Schema.applyWrites]

theorem eval_insertIfAbsent_tables {k : TableKey} {row : k.Row} {b : Bool}
    (h : Eval st (insertIfAbsent (D := mediaIndex O) k row) l b l') :
    Tables.insertIfAbsent (l.view st) k row = (b, l'.view st) := by
  rcases eval_insertIfAbsent h with ⟨hp, rfl, rfl⟩ | ⟨hp, -, rfl, rfl⟩
  · exact if_pos hp
  · rw [view_write]
    exact if_neg hp

theorem eval_insertSourceRow_tables {b : Bool}
    (h : Eval st (insertSourceRow (O := O) input) l b l') :
    Tables.insertSource (l.view st) input = (b, l'.view st) := by
  unfold insertSourceRow at h
  unfold Tables.insertSource ServableVideoInput.sourceKey
  cases hsrc : input.sourceRef with
  | some sourceRef =>
      rw [hsrc] at h
      exact eval_insertIfAbsent_tables h
  | none =>
      rw [hsrc] at h
      obtain ⟨rfl, rfl⟩ := eval_ret.mp h
      rfl

/-- **The call as a function.** -/
theorem eval_upsertServableVideoTxn_tables {out : ServableVideoUpsertOutcome}
    (h : Eval st (upsertServableVideoTxn (O := O) input) l out l') :
    Tables.upserted (l.view st) input = (out, l'.view st) := by
  unfold upsertServableVideoTxn at h
  simp only [Prog.bind_eq, Prog.pure_eq] at h
  obtain ⟨inserted, l₁, hins, hrest⟩ := eval_bind.mp h
  obtain ⟨src, l₂, hsrc, htail⟩ := eval_bind.mp hrest
  have hsource := eval_insertSourceRow_tables hsrc
  unfold Tables.upserted
  rw [eval_insertIfAbsent_tables hins]
  dsimp only
  rw [hsource]
  rcases eval_insertIfAbsent hins with ⟨hp, rfl, rfl⟩ | ⟨hp, -, rfl, rfl⟩
  · rw [if_neg Bool.false_ne_true] at htail
    obtain ⟨row, hrow, hcase⟩ := eval_compareAndUpdate_loc htail
    have hbefore : Tables.get (l₁.view st) (.video input.videoId) = some row :=
      ((eval_insertSourceRow hsrc).rows _ (by rintro ⟨key, ⟨⟩⟩)).symm.trans hrow
    rw [hbefore]
    rcases hcase with ⟨hm, rfl, rfl⟩ | ⟨hm, rfl, rfl⟩
    · simp [hm]
    · simp [hm, view_write]
  · rw [if_pos rfl] at htail
    obtain ⟨rfl, rfl⟩ := eval_ret.mp htail
    have hnone : Tables.get (l.view st) (.video input.videoId) = none := by
      simpa [Schema.present] using hp
    rw [hnone]

variable {ε X : Type} {fault : Fault → ε}
  {act : (w : (mediaIndex O).Work) → X → Except ε ((mediaIndex O).Answer w × X)}
  {ans : Oracle (mediaIndex O)} {x : X}

/-- What one call does to the tables, and what it returns. -/
structure UpsertLaws (input : ServableVideoInput) (before after : Tables)
    (out : ServableVideoUpsertOutcome) : Prop where
  unchanged : out.media = .unchanged ↔
    ∃ row, before.get (.video input.videoId) = some row ∧
      SameMaterial (input.updateRow row) row
  values : ∀ row, before.get (.video input.videoId) = some row →
    ∃ row', after.get (.video input.videoId) = some row' ∧ KeepsValues row row' ∧
      ∀ ref, row.sourceRef = some ref → row'.sourceRef = some ref
  others : ∀ k, k ≠ .video input.videoId → (∀ key, k ≠ .source key) →
    after.get k = before.get k
  sources : ∀ key, after.get (.source key)
    = if input.sourceKey = some key then
        some ((before.get (.source key)).getD ⟨none⟩)
      else before.get (.source key)
  sourceInserted : out.sourceInserted = true ↔
    ∃ key, input.sourceKey = some key ∧ before.get (.source key) = none

theorem upsertLaws_upserted {t : Tables}
    (hfps : ∀ x ∈ input.fps, x.isNaN = false) :
    UpsertLaws input t (t.upserted input).2 (t.upserted input).1 where
  unchanged := by
    simp only [Tables.media_upserted, servableVideoMaterialMatches_iff hfps]
  values := by
    intro row hrow
    refine ⟨_, Tables.get_upserted_self, ?_⟩
    unfold Tables.rowAfter
    rw [hrow]
    by_cases hm : servableVideoMaterialMatches row input
    · simp [hm, KeepsValues.refl]
    · simp only [hm]
      exact ⟨keepsValues_updateRow, fun ref => sourceRef_updateRow⟩
  others := fun k hk hsrc => Tables.get_upserted_other hk hsrc
  sources := fun key => Tables.get_upserted_source key
  sourceInserted := Tables.sourceInserted_upserted

/-- **The laws of an upsert**, wherever in a transaction it is called: it returns,
and whatever it returns is as the laws say; and where the tables are as it left
them the same call finds nothing to do. -/
theorem upsert_laws (st : (mediaIndex O).Store) (l : Loc (mediaIndex O))
    (hfps : ∀ x ∈ input.fps, x.isNaN = false) :
    Performs fault act ans st (upsertServableVideoTxn input) l x
        (fun _ _ x' => x = x') ∧
      ∀ out l', Eval st (upsertServableVideoTxn input) l out l' →
        UpsertLaws input (l.view st) (l'.view st) out ∧
          ∀ st₂ l₂ out₂ l₂', l₂.view st₂ = l'.view st →
            Eval st₂ (upsertServableVideoTxn input) l₂ out₂ l₂' →
            out₂ = ⟨.unchanged, false⟩ ∧ l₂'.view st₂ = l₂.view st₂ := by
  constructor
  · exact performs_upsertServableVideoTxn.mono fun _ _ _ h => h.1
  · intro out l' heval
    have hcall := eval_upsertServableVideoTxn_tables heval
    constructor
    · have hlaws := upsertLaws_upserted (t := l.view st) hfps
      rwa [hcall] at hlaws
    · intro st₂ l₂ out₂ l₂' hview heval₂
      have hcall₂ := eval_upsertServableVideoTxn_tables heval₂
      have hagain := Tables.upserted_upserted (t := l.view st) hfps
      rw [hcall, ← hview, hcall₂] at hagain
      exact Prod.mk.inj hagain

/-- A clip of thirty frames a second, from a bucket. -/
def clipInput : ServableVideoInput where
  videoId := "clip"
  publisherUserId := none
  postId := none
  sourceKind := "bucket"
  sourceRef := some "clip.mp4"
  servableStatus := "servable"
  nsfwState := none
  storageProvider := none
  bucket := none
  objectKey := some "clip.mp4"
  canonicalUrl := none
  thumbnailKey := none
  durationMs := none
  width := none
  height := none
  fps := some ⟨0x403E000000000000⟩
  container := none
  videoCodec := none
  audioCodec := none
  moovAtomFront := none
  canonicalEncodingVersion := none
  discoveredFrom := "sweep"

theorem upsert_laws_clip :
    ∃ out, ∃ l' : Loc (mediaIndex .none),
      Eval ({} : Tables) (upsertServableVideoTxn clipInput) {} out l' ∧
        out = ⟨.inserted, true⟩ ∧ UpsertLaws clipInput {} (l'.view {}) out := by
  obtain ⟨hperforms, hlaws⟩ := @upsert_laws .none clipInput _ _ id idleWork
    idleOracle () ({} : Tables) {} (by decide)
  obtain ⟨out, c, l', x, hperform, -⟩ := hperforms 0
  have heval := perform_eval hperform
  refine ⟨out, l', heval, ?_, (hlaws out l' heval).1⟩
  have hcall := eval_upsertServableVideoTxn_tables heval
  have hout : (Tables.upserted {} clipInput).1 = ⟨.inserted, true⟩ := by decide
  rw [← hout]
  exact (congrArg Prod.fst hcall).symm

end Refinement

end VideoStorage.MediaIndex
