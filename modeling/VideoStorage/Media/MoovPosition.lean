import VideoStorage.Media.Mp4

/-!
# The position of `moov`

Any data is a sequence of boxes and a rest that begins no box. What the scan has
seen of such a sequence is where the last `moov` and the last `mdat` started, and as
it stops as soon as it has seen both, the later of the two is the first of its type.
-/

namespace VideoStorage.Media

open Foundation

variable {t : Target} {data : Slice t} {boxType bytes rest : List UInt8}
  {b : TopBox} {boxes done todo : List TopBox} {s : Scan}

/-! ## Sequences of boxes -/

/-- Boxes one after the other, and what is left. A box that goes to the end is the
last one, as nothing follows it. -/
inductive Sequence : List UInt8 → List TopBox → List UInt8 → Prop
  | nil (rest : List UInt8) : Sequence rest [] rest
  | cons {bytes rest rest' : List UInt8} {b : TopBox} {boxes : List TopBox}
      (hb : b.Begins bytes rest) (h : Sequence rest boxes rest') :
      Sequence bytes (b :: boxes) rest'

/-- No box stands at the beginning. -/
def Stuck (bytes : List UInt8) : Prop := ¬ ∃ b rest, TopBox.Begins b bytes rest

def Occurs (boxType : List UInt8) (boxes : List TopBox) : Prop :=
  ∃ b ∈ boxes, b.boxType = boxType

instance (boxType : List UInt8) (boxes : List TopBox) : Decidable (Occurs boxType boxes) :=
  inferInstanceAs (Decidable (∃ b ∈ boxes, b.boxType = boxType))

def sizes (boxes : List TopBox) : ℕ := (boxes.map TopBox.size).sum

/-- Where the first box of the type starts. -/
def firstStart (boxType : List UInt8) (boxes : List TopBox) : Option ℕ :=
  if Occurs boxType boxes then
    some (sizes (boxes.takeWhile fun b => b.boxType ≠ boxType))
  else none

theorem TopBox.size_ge (b : TopBox) : 8 ≤ b.size := by
  obtain ⟨form, _, _, _, _⟩ := b
  cases form with
  | compact => exact Nat.le_add_right 8 _
  | large => exact (by decide : 8 ≤ 16).trans (Nat.le_add_right 16 _)
  | toEnd => exact Nat.le_add_right 8 _

theorem TopBox.Begins.length_eq (h : b.Begins bytes rest) :
    bytes.length = b.size + rest.length := by
  rw [h.data_eq, List.length_append, length_bytes]

theorem TopBox.Begins.drop_eq (h : b.Begins bytes rest) : bytes.drop b.size = rest := by
  rw [h.data_eq, List.drop_left' (length_bytes b)]

theorem stuck_nil : Stuck [] := by
  rintro ⟨b, rest, h⟩
  have hlen := h.length_eq
  have hsize := b.size_ge
  rw [List.length_nil] at hlen
  omega

theorem Sequence.length_eq (h : Sequence bytes boxes rest) :
    bytes.length = sizes boxes + rest.length := by
  induction h with
  | nil rest => simp [sizes]
  | cons hb _ ih =>
      rw [hb.length_eq, ih, sizes, sizes, List.map_cons, List.sum_cons, Nat.add_assoc]

/-- All data is boxes and a rest where the reading is stuck. -/
theorem exists_sequence (bytes : List UInt8) :
    ∃ boxes rest, Sequence bytes boxes rest ∧ Stuck rest := by
  induction hn : bytes.length using Nat.strongRecOn generalizing bytes with
  | ind n ih =>
      by_cases hstuck : Stuck bytes
      · exact ⟨[], bytes, .nil bytes, hstuck⟩
      · obtain ⟨b, rest, hb⟩ := not_not.mp hstuck
        have hlen := hb.length_eq
        have hsize := b.size_ge
        obtain ⟨boxes, rest', hseq, hrest⟩ := ih rest.length (by omega) rest rfl
        exact ⟨b :: boxes, rest', .cons hb hseq, hrest⟩

@[simp] theorem sizes_append (boxes boxes' : List TopBox) :
    sizes (boxes ++ boxes') = sizes boxes + sizes boxes' := by
  rw [sizes, List.map_append, List.sum_append]
  rfl

theorem not_occurs_nil : ¬ Occurs boxType [] := by
  rintro ⟨b, hmem, -⟩
  cases hmem

theorem occurs_append : Occurs boxType (done ++ todo) ↔
    Occurs boxType done ∨ Occurs boxType todo := by
  simp only [Occurs, List.mem_append, or_and_right, exists_or]

theorem occurs_singleton : Occurs boxType [b] ↔ b.boxType = boxType := by
  simp only [Occurs, List.mem_singleton, exists_eq_left]

/-- The first box of a type that was not there before. -/
theorem firstStart_here (h : ¬ Occurs boxType done) (hb : b.boxType = boxType) :
    firstStart boxType (done ++ b :: todo) = some (sizes done) := by
  have hdone : ∀ x ∈ done, decide (x.boxType ≠ boxType) = true :=
    fun x hx => decide_eq_true fun hx' => h ⟨x, hx, hx'⟩
  have hocc : Occurs boxType (done ++ b :: todo) :=
    ⟨b, List.mem_append_right _ List.mem_cons_self, hb⟩
  rw [firstStart, if_pos hocc, List.takeWhile_append_of_pos hdone,
    List.takeWhile_cons_of_neg (by simp [hb]), List.append_nil]

/-- The first box of a type that was there before. -/
theorem firstStart_before (todo : List TopBox) (h : Occurs boxType done) :
    ∃ start, firstStart boxType (done ++ todo) = some start ∧ start < sizes done := by
  induction done with
  | nil => exact absurd h not_occurs_nil
  | cons x done ih =>
      have hsize := x.size_ge
      have hsum : sizes (x :: done) = x.size + sizes done := by
        rw [sizes, List.map_cons, List.sum_cons, sizes]
      by_cases hx : x.boxType = boxType
      · refine ⟨0, @firstStart_here _ _ [] _ not_occurs_nil hx, ?_⟩
        omega
      · have hdone : Occurs boxType done := by
          obtain ⟨y, hy, hytype⟩ := h
          rcases List.mem_cons.mp hy with rfl | hy
          · exact absurd hytype hx
          · exact ⟨y, hy, hytype⟩
        obtain ⟨start, hstart, hlt⟩ := ih hdone
        have hrest : Occurs boxType (done ++ todo) := occurs_append.mpr (.inl hdone)
        have hall : Occurs boxType (x :: done ++ todo) :=
          occurs_append.mpr (.inl h)
        rw [firstStart, if_pos hrest, Option.some.injEq] at hstart
        refine ⟨x.size + start, ?_, by omega⟩
        rw [firstStart, if_pos hall, List.cons_append,
          List.takeWhile_cons_of_pos (by simp [hx]), ← hstart, sizes, List.map_cons,
          List.sum_cons, sizes]

/-! ## The scan -/

/-- What is kept of a type after some boxes. -/
structure Tracks (start? : Option ℕ) (boxType : List UInt8) (done : List TopBox) :
    Prop where
  unseen : start? = none → ¬ Occurs boxType done
  seen : ∀ start, start? = some start → start < sizes done ∧ Occurs boxType done

/-- The scan after some boxes, with the others before it. -/
structure Reading (data : Slice t) (boxes : List TopBox) (rest : List UInt8)
    (done todo : List TopBox) (s : Scan) : Prop where
  boxes_eq : boxes = done ++ todo
  sequence : Sequence (data.bytes.drop s.offset) todo rest
  offset_eq : s.offset = sizes done
  offset_le : s.offset ≤ data.len
  moovTracks : Tracks s.moovOffset moov done
  mdatTracks : Tracks s.mdatOffset mdat done
  going : s.moovOffset = none ∨ s.mdatOffset = none

/-- The answer that the boxes ask for. -/
inductive Answer (boxes : List TopBox) : Except (Stop IoError) MoovPosition → Prop
  | before {m d : ℕ} (hmoov : firstStart moov boxes = some m)
      (hmdat : firstStart mdat boxes = some d) (hlt : m < d) :
      Answer boxes (.ok .beforeMdat)
  | after {m d : ℕ} (hmoov : firstStart moov boxes = some m)
      (hmdat : firstStart mdat boxes = some d) (hlt : d < m) :
      Answer boxes (.ok .afterMdat)
  | missing (h : ¬ (Occurs moov boxes ∧ Occurs mdat boxes)) (e : IoError) :
      Answer boxes (.error (.error e))

theorem Tracks.nil : Tracks none boxType [] := ⟨fun _ => not_occurs_nil, nofun⟩

theorem Tracks.here (hb : b.boxType = boxType) :
    Tracks (some (sizes done)) boxType (done ++ [b]) where
  unseen := nofun
  seen := by
    rintro _ ⟨⟩
    have hsize := b.size_ge
    have hsizes : sizes [b] = b.size := List.sum_singleton
    refine ⟨by rw [sizes_append, hsizes]; omega, occurs_append.mpr (.inr ?_)⟩
    exact occurs_singleton.mpr hb

theorem Tracks.other {start? : Option ℕ} (h : Tracks start? boxType done)
    (hb : b.boxType ≠ boxType) : Tracks start? boxType (done ++ [b]) where
  unseen hnone hocc := by
    rcases occurs_append.mp hocc with hocc | hocc
    · exact h.unseen hnone hocc
    · exact hb (occurs_singleton.mp hocc)
  seen start hsome := by
    obtain ⟨hlt, hocc⟩ := h.seen start hsome
    exact ⟨by rw [sizes_append]; omega, occurs_append.mpr (.inl hocc)⟩

/-- Of two types the one that is seen later starts later. -/
theorem Tracks.both {first second : List UInt8} {start : ℕ} (todo : List TopBox)
    (hfirst : Tracks (some start) first done) (hsecond : Tracks none second done)
    (hb : b.boxType = second) :
    start < sizes done ∧ ∃ start', firstStart first (done ++ b :: todo) = some start' ∧
      firstStart second (done ++ b :: todo) = some (sizes done) ∧ start' < sizes done := by
  obtain ⟨hlt, hocc⟩ := hfirst.seen start rfl
  obtain ⟨start', hstart', hlt'⟩ := firstStart_before (b :: todo) hocc
  exact ⟨hlt, start', hstart', firstStart_here (hsecond.unseen rfl) hb, hlt'⟩

theorem see_moov (hb : b.boxType = moov) :
    s.see b.boxType = { s with moovOffset := some s.offset } := if_pos hb

theorem see_mdat (hb : b.boxType = mdat) :
    s.see b.boxType = { s with mdatOffset := some s.offset } := by
  rw [Scan.see, hb, if_neg (by decide), if_pos rfl]

theorem see_other (hmoov : b.boxType ≠ moov) (hmdat : b.boxType ≠ mdat) :
    s.see b.boxType = s := by
  rw [Scan.see, if_neg hmoov, if_neg hmdat]

theorem goOn_going (s : Scan) {next : ℕ} (h : s.moovOffset = none ∨ s.mdatOffset = none) :
    s.goOn next = .inl { s with offset := next } := by
  rcases h with hnone | hnone
  · simp only [Scan.goOn, hnone]
  · cases hm : s.moovOffset <;> simp only [Scan.goOn, hnone, hm]

theorem goOn_both (s : Scan) {next m d : ℕ} (hm : s.moovOffset = some m)
    (hd : s.mdatOffset = some d) :
    s.goOn next = .inr (if m < d then .beforeMdat else .afterMdat) := by
  simp only [Scan.goOn, hm, hd]

/-- At a box the parser goes to its end. -/
theorem nextBox_begins {offset : ℕ} (h : b.Begins (data.bytes.drop offset) rest) :
    nextBox data offset = .ok (b.boxType, offset + b.size) := by
  obtain ⟨size, tail, hdrop, hsize, hext⟩ := h.extent
  have hheader : Header data offset size b.boxType tail := ⟨hdrop, hsize, b.type_length⟩
  obtain ⟨n, hn, hnext⟩ | ⟨hnone, -⟩ := hheader.nextBox
  · rw [hnext, (hn _).mp hext]
  · exact absurd hext (hnone _)

/-- Where no box begins, a header at least being there, it has an error. -/
theorem nextBox_stuck {offset : ℕ} (h : Stuck (data.bytes.drop offset))
    (hlen : offset + 8 ≤ data.len) : ∃ e, nextBox data offset = .error (.error e) := by
  have hlength : (data.bytes.drop offset).length = data.len - offset := List.length_drop
  obtain ⟨size, rest, hrest, hsize⟩ : ∃ size rest,
      data.bytes.drop offset = size ++ rest ∧ size.length = 4 :=
    ⟨_, _, (List.take_append_drop 4 _).symm, by rw [List.length_take]; omega⟩
  rw [hrest, List.length_append] at hlength
  obtain ⟨boxType, tail, rfl, htype⟩ : ∃ boxType tail,
      rest = boxType ++ tail ∧ boxType.length = 4 :=
    ⟨_, _, (List.take_append_drop 4 _).symm, by rw [List.length_take]; omega⟩
  have hheader : Header data offset size boxType tail := ⟨hrest, hsize, htype⟩
  obtain ⟨n, hn, -⟩ | ⟨-, herr⟩ := hheader.nextBox
  · obtain ⟨b, rest', hb⟩ := ((hn n).mpr rfl).begins hsize htype
    exact absurd ⟨b, rest', hrest ▸ hb⟩ h
  · exact herr

/-- **The end of the scan.** -/
theorem Reading.stuck (h : Reading data boxes rest done [] s) (hrest : Stuck rest) :
    ∃ e, round data s = .error (.error e) ∧ Answer boxes (.error (.error e)) := by
  obtain ⟨hboxes, hseq, hoffset, hle, hmoov, hmdat, hgoing⟩ := h
  obtain rfl : boxes = done := by rw [hboxes, List.append_nil]
  have hmissing : ¬ (Occurs moov boxes ∧ Occurs mdat boxes) := by
    rintro ⟨hm, hd⟩
    rcases hgoing with hnone | hnone
    · exact hmoov.unseen hnone hm
    · exact hmdat.unseen hnone hd
  have hdrop : data.bytes.drop s.offset = rest := by
    cases hseq
    rfl
  rw [round, t.add_of_le (add_fits data hle (by decide)), ok_bind]
  by_cases hlen : s.offset + 8 ≤ data.len
  · obtain ⟨e, he⟩ := nextBox_stuck (hdrop ▸ hrest) hlen
    rw [failIf_neg (not_not.mpr hlen), ok_bind, he]
    exact ⟨e, rfl, .missing hmissing e⟩
  · rw [failIf_pos hlen]
    exact ⟨_, rfl, .missing hmissing _⟩

/-- Where the next round starts. -/
theorem Reading.place (h : Reading data boxes rest done (b :: todo) s) :
    Media.round data s = .ok ((s.see b.boxType).goOn (s.offset + b.size)) ∧
      boxes = done ++ [b] ++ todo ∧
      Sequence (data.bytes.drop (s.offset + b.size)) todo rest ∧
      s.offset + b.size = sizes (done ++ [b]) ∧ s.offset + b.size ≤ data.len := by
  obtain ⟨hboxes, hseq, hoffset, hle, -, -, -⟩ := h
  obtain _ | @⟨_, rest₁, _, _, _, hb, hseq⟩ := hseq
  have hlen := hb.length_eq
  have hsize := b.size_ge
  have hdata : data.len = data.bytes.length := rfl
  rw [List.length_drop] at hlen
  refine ⟨?_, ?_, ?_, ?_, by omega⟩
  · rw [Media.round, t.add_of_le (add_fits data hle (by decide)), ok_bind,
      failIf_neg (not_not.mpr (by omega)), ok_bind, nextBox_begins hb, ok_bind]
    rfl
  · rw [hboxes, List.append_assoc, List.singleton_append]
  · rw [← List.drop_drop, hb.drop_eq]
    exact hseq
  · rw [hoffset, sizes_append]
    rfl

/-- **One round** goes on to the next box, or has seen both types. -/
theorem Reading.round (h : Reading data boxes rest done (b :: todo) s) :
    (∃ s', round data s = .ok (.inl s') ∧ Reading data boxes rest (done ++ [b]) todo s' ∧
        s'.offset = s.offset + b.size) ∨
      ∃ p, round data s = .ok (.inr p) ∧ Answer boxes (.ok p) := by
  obtain ⟨hround, hboxes', hseq', hoffset', hle'⟩ := h.place
  obtain ⟨hboxes, -, hoffset, -, hmoov, hmdat, hgoing⟩ := h
  by_cases htm : b.boxType = moov
  · rw [see_moov htm] at hround
    have hmdat' : Tracks s.mdatOffset mdat (done ++ [b]) :=
      hmdat.other (by rw [htm]; decide)
    cases hd : s.mdatOffset with
    | none =>
        rw [goOn_going { s with moovOffset := some s.offset } (.inr hd)] at hround
        refine .inl ⟨_, hround, ⟨hboxes', hseq', hoffset', hle', ?_, hmdat', .inr hd⟩, rfl⟩
        exact hoffset ▸ Tracks.here htm
    | some d =>
        rw [goOn_both { s with moovOffset := some s.offset } rfl hd] at hround
        have hnone : s.moovOffset = none := hgoing.resolve_right (by rw [hd]; nofun)
        obtain ⟨hlt, start, hstart, hhere, hstartlt⟩ :=
          Tracks.both todo (hd ▸ hmdat) (hnone ▸ hmoov) htm
        rw [if_neg (by omega)] at hround
        exact .inr ⟨_, hround, .after (hboxes ▸ hhere) (hboxes ▸ hstart) hstartlt⟩
  · by_cases htd : b.boxType = mdat
    · rw [see_mdat htd] at hround
      have hmoov' : Tracks s.moovOffset moov (done ++ [b]) := hmoov.other htm
      cases hm : s.moovOffset with
      | none =>
          rw [goOn_going { s with mdatOffset := some s.offset } (.inl hm)] at hround
          refine .inl ⟨_, hround, ⟨hboxes', hseq', hoffset', hle', hmoov', ?_, .inl hm⟩, rfl⟩
          exact hoffset ▸ Tracks.here htd
      | some m =>
          rw [goOn_both { s with mdatOffset := some s.offset } hm rfl] at hround
          have hnone : s.mdatOffset = none := hgoing.resolve_left (by rw [hm]; nofun)
          obtain ⟨hlt, start, hstart, hhere, hstartlt⟩ :=
            Tracks.both todo (hm ▸ hmoov) (hnone ▸ hmdat) htd
          rw [if_pos (by omega)] at hround
          exact .inr ⟨_, hround, .before (hboxes ▸ hstart) (hboxes ▸ hhere) hstartlt⟩
    · rw [see_other htm htd, goOn_going s hgoing] at hround
      exact .inl ⟨_, hround, ⟨hboxes', hseq', hoffset', hle', hmoov.other htm,
        hmdat.other htd, hgoing⟩, rfl⟩

/-- A round goes on to a later place or answers as the boxes ask. -/
theorem Reading.progress (h : Reading data boxes rest done todo s) (hrest : Stuck rest) :
    (∃ s', Media.round data s = .ok (.inl s') ∧ s.offset < s'.offset ∧
        ∃ done' todo', Reading data boxes rest done' todo' s') ∨
      (∃ p, Media.round data s = .ok (.inr p) ∧ Answer boxes (.ok p)) ∨
        ∃ f, Media.round data s = .error f ∧ Answer boxes (.error f) := by
  cases todo with
  | nil =>
      obtain ⟨e, he, hanswer⟩ := h.stuck hrest
      exact .inr (.inr ⟨_, he, hanswer⟩)
  | cons b todo =>
      obtain ⟨s', hs', hread, hoffset⟩ | hstop := h.round
      · have hsize := b.size_ge
        exact .inl ⟨s', hs', by omega, _, _, hread⟩
      · exact .inr (.inl hstop)

/-- **The run.** -/
theorem moovPosition_answer (hseq : Sequence data.bytes boxes rest) (hrest : Stuck rest) :
    Answer boxes (mp4MoovPosition data) := by
  refine loop_post (fun s => ∃ done todo, Reading data boxes rest done todo s) (Answer boxes)
    (fun s => data.len - s.offset) ?next ?stop ?fail ⟨[], boxes, ?start⟩
    (Nat.lt_succ_of_le (Nat.sub_le _ _))
  case start =>
    exact ⟨rfl, hseq, rfl, Nat.zero_le _, .nil, .nil, .inl rfl⟩
  case next =>
    rintro s s' ⟨done, todo, hs⟩ hround
    obtain ⟨s'', hs'', hlt, done', todo', hread⟩ | ⟨p, hp, -⟩ | ⟨f, hf, -⟩ :=
      hs.progress hrest
    · cases hs''.symm.trans hround
      have hle := hread.offset_le
      exact ⟨⟨done', todo', hread⟩, by omega⟩
    · cases hp.symm.trans hround
    · cases hf.symm.trans hround
  case stop =>
    rintro s p ⟨done, todo, hs⟩ hround
    obtain ⟨s', hs', -⟩ | ⟨p', hp', hanswer⟩ | ⟨f, hf, -⟩ := hs.progress hrest
    · cases hs'.symm.trans hround
    · cases hp'.symm.trans hround
      exact hanswer
    · cases hf.symm.trans hround
  case fail =>
    rintro s f ⟨done, todo, hs⟩ hround
    obtain ⟨s', hs', -⟩ | ⟨p, hp, -⟩ | ⟨f', hf', hanswer⟩ := hs.progress hrest
    · cases hs'.symm.trans hround
    · cases hp.symm.trans hround
    · cases hf'.symm.trans hround
      exact hanswer

end VideoStorage.Media
