import VideoStorage.Foundation.JsonText
import Mathlib.Data.List.Induction

/-!
# The backfill manifest

`manifest.jsonl` of the thumbnail backfill: one compact JSON object a line,
appended without reading the file first, over any number of runs. A crash leaves
some first bytes of the last line; the next append goes right after them.

`fromSlice` is serde_json's reader and a parameter: it reads back what the
writer wrote, and accepts nothing that is not one closed object or array.
-/

namespace VideoStorage.Backfill

open Foundation JsonText

inductive BackendKind
  | storj | hetzner
  deriving DecidableEq, Repr

inductive ManifestStatus
  | completed | failed | skipRemoteExists | skipManifestDone
  deriving DecidableEq, Repr

structure ManifestEntry where
  backend : BackendKind
  bucket : String
  sourceVideoKey : String
  stagedThumbnailKey : String
  status : ManifestStatus
  deriving DecidableEq, Repr

/-! ## Writing a line -/

def BackendKind.serialized : BackendKind → String
  | .storj => "Storj"
  | .hetzner => "Hetzner"

def ManifestStatus.serialized : ManifestStatus → String
  | .completed => "Completed"
  | .failed => "Failed"
  | .skipRemoteExists => "SkipRemoteExists"
  | .skipManifestDone => "SkipManifestDone"

def ManifestEntry.fields (e : ManifestEntry) : List (List UInt8 × List UInt8) :=
  [(asciiBytes "backend", asciiBytes e.backend.serialized),
    (asciiBytes "bucket", utf8Bytes e.bucket),
    (asciiBytes "source_video_key", utf8Bytes e.sourceVideoKey),
    (asciiBytes "staged_thumbnail_key", utf8Bytes e.stagedThumbnailKey),
    (asciiBytes "status", asciiBytes e.status.serialized)]

def toVec (e : ManifestEntry) : List UInt8 := object e.fields

/-- What one append writes when nothing goes wrong. -/
def line (e : ManifestEntry) : List UInt8 := toVec e ++ [newline]

/-- **One append, of which the first `cut` bytes reached the file.** The file is
created when it is absent. -/
def appendJsonl (file : Option (List UInt8)) (value : ManifestEntry) (cut : ℕ) :
    Option (List UInt8) :=
  some (file.getD [] ++ (line value).take cut)

theorem toVec_keyed (e : ManifestEntry) : Keyed (toVec e) :=
  @keyed_object _ _ 0x62 (asciiBytes "ackend") rfl (by decide) (by decide)

theorem newline_notMem_toVec (e : ManifestEntry) : newline ∉ toVec e :=
  newline_notMem_object

/-! ## Reading the file -/

/-- serde_json's reader of one entry. -/
structure ManifestJson where
  fromSlice : List UInt8 → Except String ManifestEntry
  roundTrip : ∀ e, fromSlice (toVec e) = .ok e
  accepts : ∀ bs e, fromSlice bs = .ok e → scan (.outside 0) bs = some .done

def BackendKind.read (bs : List UInt8) : Option BackendKind :=
  [.storj, .hetzner].find? fun kind => asciiBytes kind.serialized == bs

def ManifestStatus.read (bs : List UInt8) : Option ManifestStatus :=
  [.completed, .failed, .skipRemoteExists, .skipManifestDone].find?
    fun status => asciiBytes status.serialized == bs

theorem BackendKind.read_serialized (kind : BackendKind) :
    read (asciiBytes kind.serialized) = some kind := by
  cases kind <;> decide

theorem ManifestStatus.read_serialized (status : ManifestStatus) :
    read (asciiBytes status.serialized) = some status := by
  cases status <;> decide

def names : List (List UInt8) :=
  ["backend", "bucket", "source_video_key", "staged_thumbnail_key", "status"].map
    asciiBytes

def readEntry (bs : List UInt8) : Option ManifestEntry :=
  match readMembers names (bs.drop 1) with
  | some ([backend, bucket, video, thumbnail, status], _) => do
      let backend ← BackendKind.read backend
      let bucket ← fromUtf8 bucket
      let sourceVideoKey ← fromUtf8 video
      let stagedThumbnailKey ← fromUtf8 thumbnail
      let status ← ManifestStatus.read status
      some { backend, bucket, sourceVideoKey, stagedThumbnailKey, status }
  | _ => none

theorem readEntry_toVec (e : ManifestEntry) : readEntry (toVec e) = some e := by
  have h : readMembers (e.fields.map Prod.fst) (members e.fields ++ [closeBrace]) =
      some (e.fields.map Prod.snd, [closeBrace]) :=
    readMembers_members (List.cons_ne_nil _ _)
  have hread : readMembers names ((toVec e).drop 1) =
      some (e.fields.map Prod.snd, [closeBrace]) := h
  unfold readEntry
  rw [hread]
  show (BackendKind.read (asciiBytes e.backend.serialized)).bind _ = _
  rw [BackendKind.read_serialized]
  show (fromUtf8 (utf8Bytes e.bucket)).bind _ = _
  rw [fromUtf8_utf8Bytes]
  show (fromUtf8 (utf8Bytes e.sourceVideoKey)).bind _ = _
  rw [fromUtf8_utf8Bytes]
  show (fromUtf8 (utf8Bytes e.stagedThumbnailKey)).bind _ = _
  rw [fromUtf8_utf8Bytes]
  show (ManifestStatus.read (asciiBytes e.status.serialized)).bind _ = _
  rw [ManifestStatus.read_serialized]
  rfl

/-- A reader of what the writer writes, and of nothing else. -/
def compactJson : ManifestJson where
  fromSlice bs :=
    match readEntry bs with
    | some e => if toVec e = bs then .ok e else .error "trailing characters"
    | none => .error "key must be a string at line 1 column 2"
  roundTrip e := by
    rw [readEntry_toVec]
    exact if_pos rfl
  accepts bs e h := by
    split at h
    · split_ifs at h with heq
      rw [← heq]
      exact whole_object.closes
    · cases h

section Load

variable (json : ManifestJson)

/-- The loop over the lines; an error carries its contexts, outermost first. -/
def parseLines (endedWithNewline : Bool) (lines : ℕ) :
    ℕ → List (List UInt8) → Except (List String) (List ManifestEntry)
  | _, [] => .ok []
  | index, line :: rest =>
      if line = [] then parseLines endedWithNewline lines (index + 1) rest
      else
        match json.fromSlice line with
        | .ok entry =>
            (parseLines endedWithNewline lines (index + 1) rest).map (entry :: ·)
        | .error err =>
            -- a torn last line is ignored
            if index + 1 = lines ∧ endedWithNewline = false then
              parseLines endedWithNewline lines (index + 1) rest
            else .error [s!"invalid manifest line {index + 1}", err]

def parseManifestEntries (bytes : List UInt8) :
    Except (List String) (List ManifestEntry) :=
  let endedWithNewline := bytes.getLast? == some newline
  let lines := bytes.splitOn newline
  parseLines json endedWithNewline lines.length 0 lines

def loadManifestEntries (path : String) (file : Option (List UInt8)) :
    Except (List String) (List ManifestEntry) :=
  match file with
  | none => .ok []
  | some content =>
      (parseManifestEntries json content).mapError (s!"parse manifest {path}" :: ·)

/-! ## What a file holds -/

variable {json} {es : List ManifestEntry} {e : ManifestEntry} {err : String}
  {bytes tail bad more : List UInt8} {rest : List (List UInt8)} {ended : Bool}
  {lines index : ℕ}

theorem toVec_ne_nil : toVec e ≠ [] := List.cons_ne_nil _ _

theorem parseLines_entries :
    parseLines json ended lines index (es.map toVec ++ rest) =
      (parseLines json ended lines (index + es.length) rest).map (es ++ ·) := by
  induction es generalizing index with
  | nil =>
      show parseLines json ended lines index rest = _
      rw [List.length_nil, Nat.add_zero]
      cases parseLines json ended lines index rest <;> rfl
  | cons e es ih =>
      rw [List.map_cons, List.cons_append, parseLines, if_neg toVec_ne_nil,
        json.roundTrip]
      dsimp only
      rw [ih, List.length_cons, Nat.add_right_comm, Nat.add_assoc]
      cases parseLines json ended lines _ rest <;> rfl

theorem splitOn_entries :
    (es.flatMap line ++ bytes).splitOn newline =
      es.map toVec ++ bytes.splitOn newline := by
  induction es with
  | nil => rfl
  | cons e es ih =>
      have hsplit : (e :: es).flatMap line ++ bytes =
          toVec e ++ newline :: (es.flatMap line ++ bytes) := by
        simp only [List.flatMap_cons, line, List.append_assoc, List.cons_append,
          List.nil_append]
      rw [hsplit, List.splitOn_append_cons_self_of_not_mem (newline_notMem_toVec e), ih]
      rfl

/-- Whole lines in front are read whatever follows them. -/
theorem parse_entries (hne : bytes ≠ []) :
    parseManifestEntries json (es.flatMap line ++ bytes) =
      (parseLines json (bytes.getLast? == some newline)
        (es.length + (bytes.splitOn newline).length) es.length
        (bytes.splitOn newline)).map (es ++ ·) := by
  unfold parseManifestEntries
  dsimp only
  rw [splitOn_entries, parseLines_entries, List.length_append, List.length_map,
    Nat.zero_add, List.getLast?_append_of_ne_nil _ hne]

/-- **Only whole lines**: they are all returned. -/
theorem parse_clean : parseManifestEntries json (es.flatMap line) = .ok es := by
  have hsplit : (es.flatMap line).splitOn newline = es.map toVec ++ [[]] := by
    rw [← List.append_nil (es.flatMap line), splitOn_entries]
    rfl
  unfold parseManifestEntries
  dsimp only
  rw [hsplit, parseLines_entries]
  show Except.ok (es ++ []) = _
  rw [List.append_nil]

/-- **A torn last line**: it is ignored, or it was the whole entry. -/
theorem parse_torn (hne : tail ≠ []) (htail : newline ∉ tail) :
    parseManifestEntries json (es.flatMap line ++ tail) = .ok es ∨
      ∃ e, parseManifestEntries json (es.flatMap line ++ tail) = .ok (es ++ [e]) := by
  have hended : (tail.getLast? == some newline) = false := by
    rw [beq_eq_false_iff_ne]
    intro hlast
    exact htail (List.mem_of_getLast? hlast)
  rw [parse_entries hne, hended, List.splitOn_eq_singleton htail, parseLines,
    if_neg hne]
  cases hread : json.fromSlice tail with
  | ok e => exact .inr ⟨e, rfl⟩
  | error err =>
      left
      dsimp only
      rw [if_pos ⟨rfl, rfl⟩]
      show Except.ok (es ++ []) = _
      rw [List.append_nil]

/-- **A rejected line that was terminated** fails the whole file. -/
theorem parse_broken (hne : bad ≠ []) (hbad : newline ∉ bad)
    (hread : json.fromSlice bad = .error err) :
    parseManifestEntries json (es.flatMap line ++ (bad ++ newline :: more)) =
      .error [s!"invalid manifest line {es.length + 1}", err] := by
  have hlast : ¬ es.length + 1 = es.length + (bad :: more.splitOn newline).length := by
    have hpos := List.length_pos_of_ne_nil (List.splitOn_ne_nil newline more)
    rw [List.length_cons]
    omega
  rw [parse_entries (List.append_ne_nil_of_left_ne_nil hne _),
    List.splitOn_append_cons_self_of_not_mem hbad, parseLines, if_neg hne, hread]
  dsimp only
  rw [if_neg fun h => hlast h.1]
  rfl

end Load

/-! ## Histories of appends -/

/-- One call of `append_jsonl`, and how many bytes it wrote. -/
structure Append where
  entry : ManifestEntry
  cut : ℕ
  deriving DecidableEq, Repr

namespace Append

def written (a : Append) : List UInt8 := (line a.entry).take a.cut

def Completed (a : Append) : Prop := (line a.entry).length ≤ a.cut

/-- Some bytes of the line were written, and not all. -/
def Torn (a : Append) : Prop := 0 < a.cut ∧ ¬ a.Completed

instance (a : Append) : Decidable a.Completed := inferInstanceAs (Decidable (_ ≤ _))

instance (a : Append) : Decidable a.Torn := inferInstanceAs (Decidable (_ ∧ _))

end Append

/-- The file after appends of any number of runs. -/
def manifestFile (history : List Append) : Option (List UInt8) :=
  history.foldl (fun file a => appendJsonl file a.entry a.cut) none

def completedEntries (history : List Append) : List ManifestEntry :=
  (history.filter fun a => decide a.Completed).map Append.entry

/-- **What crash safety asks of a history.** -/
def CrashSafe (json : ManifestJson) (path : String) (history : List Append) : Prop :=
  ∃ es, loadManifestEntries json path (manifestFile history) = .ok es ∧
    (completedEntries history).Sublist es

/-- No append completes after one that was torn. -/
def TornOnlyLast (history : List Append) : Prop :=
  history.Pairwise fun a b => a.Torn → ¬ b.Completed

instance (history : List Append) : Decidable (TornOnlyLast history) :=
  inferInstanceAs (Decidable (history.Pairwise _))

section History

variable {a : Append} {history : List Append} {json : ManifestJson} {path : String}

theorem manifestFile_getD :
    (manifestFile history).getD [] = history.flatMap Append.written := by
  induction history using List.reverseRecOn with
  | nil => rfl
  | append_singleton history a ih =>
      unfold manifestFile at ih ⊢
      rw [List.foldl_append, List.flatMap_append, ← ih]
      show _ ++ _ = _ ++ (a.written ++ [])
      rw [List.append_nil]
      rfl

theorem load_eq :
    loadManifestEntries json path (manifestFile history) =
      (parseManifestEntries json (history.flatMap Append.written)).mapError
        (s!"parse manifest {path}" :: ·) := by
  rw [← manifestFile_getD]
  cases manifestFile history with
  | none => rfl
  | some content => rfl

theorem written_completed (h : a.Completed) : a.written = line a.entry :=
  List.take_of_length_le h

/-- A torn append leaves a piece of its entry's text. -/
theorem written_torn (h : a.Torn) :
    a.written <+: toVec a.entry ∧ a.written ≠ [] := by
  obtain ⟨hpos, hshort⟩ := h
  have hcut : a.cut ≤ (toVec a.entry).length := by
    have hlength : (line a.entry).length = (toVec a.entry).length + 1 :=
      List.length_append
    have hlt : a.cut < (line a.entry).length := Nat.lt_of_not_le hshort
    omega
  have hwritten : a.written = (toVec a.entry).take a.cut := by
    unfold Append.written line
    rw [List.take_append_of_le_length hcut]
  rw [hwritten]
  refine ⟨List.take_prefix _ _, ?_⟩
  rw [Ne, List.take_eq_nil_iff]
  rintro (h | h)
  · omega
  · exact toVec_ne_nil h

theorem written_nothing (hc : ¬ a.Completed) (ht : ¬ a.Torn) : a.written = [] := by
  have hcut : a.cut = 0 := by
    by_contra h
    exact ht ⟨Nat.pos_of_ne_zero h, hc⟩
  unfold Append.written
  rw [hcut]
  rfl

theorem completedEntries_append :
    completedEntries (history ++ [a]) =
      completedEntries history ++ (if a.Completed then [a.entry] else []) := by
  unfold completedEntries
  rw [List.filter_append, List.map_append]
  by_cases h : a.Completed
  · simp [h]
  · simp [h]

theorem tornOnlyLast_append :
    TornOnlyLast (history ++ [a]) ↔
      TornOnlyLast history ∧ ∀ b ∈ history, b.Torn → ¬ a.Completed := by
  unfold TornOnlyLast
  rw [List.pairwise_append]
  constructor
  · rintro ⟨h, -, hlast⟩
    exact ⟨h, fun b hb => hlast b hb a List.mem_cons_self⟩
  · rintro ⟨h, hlast⟩
    refine ⟨h, List.pairwise_singleton _ _, ?_⟩
    intro b hb c hc
    obtain rfl := List.mem_singleton.mp hc
    exact hlast b hb

/-- **The shapes of the file**: whole lines, whole lines and a piece that nothing
glued to it closes, or a rejected line that was terminated. -/
inductive Shape (history : List Append) : Prop
  | clean (hnone : ∀ a ∈ history, ¬ a.Torn)
      (hfile : history.flatMap Append.written =
        (completedEntries history).flatMap line)
  | torn (tail : List UInt8) (hlast : TornOnlyLast history)
      (hsome : ∃ a ∈ history, a.Torn) (hne : tail ≠ []) (htail : newline ∉ tail)
      (hstarted : Started tail)
      (hfile : history.flatMap Append.written =
        (completedEntries history).flatMap line ++ tail)
  | broken (es : List ManifestEntry) (bad more : List UInt8)
      (hlast : ¬ TornOnlyLast history) (hne : bad ≠ []) (hbad : newline ∉ bad)
      (hopen : ∀ s, scan (.outside 0) bad = some s → Open s)
      (hfile : history.flatMap Append.written =
        es.flatMap line ++ (bad ++ newline :: more))

theorem completed_append (h : a.Completed) :
    completedEntries (history ++ [a]) = completedEntries history ++ [a.entry] := by
  rw [completedEntries_append, if_pos h]

theorem completed_append_not (h : ¬ a.Completed) :
    completedEntries (history ++ [a]) = completedEntries history := by
  rw [completedEntries_append, if_neg h, List.append_nil]

theorem flatMap_written_append :
    (history ++ [a]).flatMap Append.written =
      history.flatMap Append.written ++ a.written := by
  rw [List.flatMap_append, List.flatMap_singleton]

theorem tornOnlyLast_of_none (h : ∀ a ∈ history, ¬ a.Torn) : TornOnlyLast history :=
  List.pairwise_of_forall_mem_list fun a ha _ _ ht => absurd ht (h a ha)

/-- An append to whole lines. -/
theorem Shape.step_clean (hnone : ∀ a ∈ history, ¬ a.Torn)
    (hfile : history.flatMap Append.written =
      (completedEntries history).flatMap line) (a : Append) :
    Shape (history ++ [a]) := by
  by_cases ht : a.Torn
  · obtain ⟨hpiece, hne⟩ := written_torn ht
    refine .torn a.written ?_ ⟨a, List.mem_append_right _ List.mem_cons_self, ht⟩ hne
      ?_ ((toVec_keyed a.entry).started hpiece hne) ?_
    · exact tornOnlyLast_append.mpr
        ⟨tornOnlyLast_of_none hnone, fun b hb hbt => absurd hbt (hnone b hb)⟩
    · intro h
      exact newline_notMem_toVec a.entry (hpiece.subset h)
    · rw [flatMap_written_append, hfile, completed_append_not ht.2]
  · refine .clean ?_ ?_
    · intro b hb
      rcases List.mem_append.mp hb with hb | hb
      · exact hnone b hb
      · rwa [List.mem_singleton.mp hb]
    · rw [flatMap_written_append, hfile]
      by_cases hc : a.Completed
      · rw [completed_append hc, written_completed hc, List.flatMap_append,
          List.flatMap_singleton]
      · rw [completed_append_not hc, written_nothing hc ht, List.append_nil]

/-- An append after a piece. -/
theorem Shape.step_torn {tail : List UInt8} (hlast : TornOnlyLast history)
    (hsome : ∃ a ∈ history, a.Torn) (hne : tail ≠ []) (htail : newline ∉ tail)
    (hstarted : Started tail)
    (hfile : history.flatMap Append.written =
      (completedEntries history).flatMap line ++ tail) (a : Append) :
    Shape (history ++ [a]) := by
  obtain ⟨b, hb, hbt⟩ := hsome
  by_cases hc : a.Completed
  · -- the line that is terminated now begins with the piece
    refine .broken (completedEntries history) (tail ++ toVec a.entry) [] ?_
      (List.append_ne_nil_of_left_ne_nil hne _) ?_ ?_ ?_
    · intro h
      exact (tornOnlyLast_append.mp h).2 b hb hbt hc
    · intro h
      rcases List.mem_append.mp h with h | h
      · exact htail h
      · exact newline_notMem_toVec a.entry h
    · intro s hs
      exact hstarted.glue (toVec_keyed a.entry) (List.prefix_refl _) toVec_ne_nil hs
    · rw [flatMap_written_append, hfile, written_completed hc, line]
      simp only [List.append_assoc]
  -- otherwise the file still ends in one piece, longer or the same
  · have hlast' : TornOnlyLast (history ++ [a]) :=
      tornOnlyLast_append.mpr ⟨hlast, fun _ _ _ => hc⟩
    have hsome' : ∃ b ∈ history ++ [a], b.Torn :=
      ⟨b, List.mem_append_left _ hb, hbt⟩
    by_cases ht : a.Torn
    · obtain ⟨hpiece, hpne⟩ := written_torn ht
      refine .torn (tail ++ a.written) hlast' hsome'
        (List.append_ne_nil_of_left_ne_nil hne _) ?_ ?_ ?_
      · intro h
        rcases List.mem_append.mp h with h | h
        · exact htail h
        · exact newline_notMem_toVec a.entry (hpiece.subset h)
      · intro s hs
        exact .inl (hstarted.glue (toVec_keyed a.entry) hpiece hpne hs)
      · rw [flatMap_written_append, hfile, completed_append_not hc, List.append_assoc]
    · refine .torn tail hlast' hsome' hne htail hstarted ?_
      rw [flatMap_written_append, hfile, completed_append_not hc,
        written_nothing hc ht, List.append_nil]

theorem Shape.step (h : Shape history) (a : Append) : Shape (history ++ [a]) := by
  cases h with
  | clean hnone hfile => exact step_clean hnone hfile a
  | torn tail hlast hsome hne htail hstarted hfile =>
      exact step_torn hlast hsome hne htail hstarted hfile a
  | broken es bad more hlast hne hbad hopen hfile =>
      -- nothing that is appended repairs the line
      refine .broken es bad (more ++ a.written) ?_ hne hbad hopen ?_
      · intro h
        exact hlast (tornOnlyLast_append.mp h).1
      · rw [flatMap_written_append, hfile]
        simp only [List.append_assoc, List.cons_append]

theorem shape (history : List Append) : Shape history := by
  induction history using List.reverseRecOn with
  | nil => exact .clean (fun a ha => by cases ha) rfl
  | append_singleton history a ih => exact ih.step a

/-- **Crash safety, exactly.** The reader forgives a torn last line, and an append
never terminates one: the manifest survives as long as no append completes
after a torn one. -/
theorem crash_safe_iff (json : ManifestJson) (path : String) (history : List Append) :
    CrashSafe json path history ↔ TornOnlyLast history := by
  unfold CrashSafe
  rw [load_eq]
  cases shape history with
  | clean hnone hfile =>
      rw [hfile, parse_clean]
      exact iff_of_true ⟨_, rfl, List.Sublist.refl _⟩ (tornOnlyLast_of_none hnone)
  | torn tail hlast hsome hne htail hstarted hfile =>
      refine iff_of_true ?_ hlast
      rw [hfile]
      rcases @parse_torn json (completedEntries history) tail hne htail with
        h | ⟨e, h⟩
      · rw [h]
        exact ⟨_, rfl, List.Sublist.refl _⟩
      · rw [h]
        exact ⟨_, rfl, List.sublist_append_left _ _⟩
  | broken es bad more hlast hne hbad hopen hfile =>
      refine iff_of_false ?_ hlast
      rintro ⟨es', hload, -⟩
      cases hread : json.fromSlice bad with
      | ok e => exact hopen _ (json.accepts bad e hread)
      | error err =>
          rw [hfile, parse_broken hne hbad hread] at hload
          cases hload

def thumbnailEntry (name : String) : ManifestEntry where
  backend := .storj
  bucket := "bucket-a"
  sourceVideoKey := s!"publisher/{name}.mp4"
  stagedThumbnailKey := s!"publisher/{name}-thumbnail.png"
  status := .completed

/-- One entry, a run that dies after the first byte of its line, a later run that
completes one: the file cannot be loaded any more. -/
def tornThenCompleted : List Append :=
  [⟨thumbnailEntry "video-1", 1000⟩, ⟨thumbnailEntry "video-2", 1⟩,
    ⟨thumbnailEntry "video-3", 1000⟩]

theorem torn_line_fails_load :
    loadManifestEntries compactJson "manifest.jsonl" (manifestFile tornThenCompleted) =
        .error ["parse manifest manifest.jsonl", "invalid manifest line 2",
          "key must be a string at line 1 column 2"] ∧
      ¬ CrashSafe compactJson "manifest.jsonl" tornThenCompleted := by
  have hload : loadManifestEntries compactJson "manifest.jsonl"
      (manifestFile tornThenCompleted) =
        .error ["parse manifest manifest.jsonl", "invalid manifest line 2",
          "key must be a string at line 1 column 2"] := by decide +kernel
  refine ⟨hload, ?_⟩
  rintro ⟨es, h, -⟩
  cases hload.symm.trans h

end History

end VideoStorage.Backfill
