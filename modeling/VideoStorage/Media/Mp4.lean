import VideoStorage.Foundation.AsyncFile
import VideoStorage.Foundation.BigEndian
import VideoStorage.Foundation.Usize

/-!
# Top-level boxes of an MP4

`mp4_moov_position` reads the boxes of a file one after the other and tells whether
`moov` comes before `mdat`. A `TopBox` is what may stand there: its size in 32 bits,
in 64 bits, or left out for a box that goes to the end. The sizes that the parser
reads come with the file, so its arithmetic is that of a target.
-/

namespace VideoStorage.Media

open Foundation

variable {t : Target}

/-! ## The parser -/

inductive MoovPosition
  | beforeMdat
  | afterMdat
  deriving DecidableEq, Repr

def invalidData (message : String) : IoError := ⟨"InvalidData", message⟩

/-- `b"moov"` -/
def moov : List UInt8 := [0x6d, 0x6f, 0x6f, 0x76]

/-- `b"mdat"` -/
def mdat : List UInt8 := [0x6d, 0x64, 0x61, 0x74]

/-- `from_be_bytes`, on a slice that is expected to have the width. -/
def fromBeBytes (width : ℕ) (bytes : List UInt8) : Except (Stop IoError) ℕ :=
  if bytes.length = width then .ok (ofBigEndian bytes) else .error .panic

/-- `(box_size, header_size)` -/
def boxSize (data : Slice t) (offset : ℕ) : ℕ → Except (Stop IoError) (ℕ × ℕ)
  | 0 => do
      let size ← sub data.len offset
      return (size, 8)
  | 1 => do
      let headerEnd ← t.add offset 16
      failIf (headerEnd > data.len) (invalidData "truncated MP4 large-size box")
      let start ← t.add offset 8
      let size64 ← fromBeBytes 8 (← data.range start headerEnd)
      let size ← okOr (t.tryFrom size64)
        (.error (invalidData "MP4 box size does not fit in memory"))
      return (size, 16)
  | size32 => do
      let size ← okOr (t.tryFrom size32) .panic
      return (size, 8)

/-- `box_type` and `next_offset` of the box at `offset`. -/
def nextBox (data : Slice t) (offset : ℕ) : Except (Stop IoError) (List UInt8 × ℕ) := do
  let typeStart ← t.add offset 4
  let size32 ← fromBeBytes 4 (← data.range offset typeStart)
  let typeEnd ← t.add offset 8
  let boxType ← data.range typeStart typeEnd
  let (boxSize, headerSize) ← boxSize data offset size32
  let nextOffset ← okOr (t.checkedAdd offset boxSize)
    (.error (invalidData "MP4 box offset overflow"))
  failIf (boxSize < headerSize ∨ nextOffset > data.len)
    (invalidData "invalid MP4 top-level box size")
  return (boxType, nextOffset)

structure Scan where
  offset : ℕ := 0
  moovOffset : Option ℕ := none
  mdatOffset : Option ℕ := none
  deriving DecidableEq, Repr

def Scan.see (s : Scan) (boxType : List UInt8) : Scan :=
  if boxType = moov then { s with moovOffset := some s.offset }
  else if boxType = mdat then { s with mdatOffset := some s.offset }
  else s

/-- Both boxes have been seen, or the scan goes on at the next one. -/
def Scan.goOn (s : Scan) (nextOffset : ℕ) : Scan ⊕ MoovPosition :=
  match s.moovOffset, s.mdatOffset with
  | some m, some d => .inr (if m < d then .beforeMdat else .afterMdat)
  | _, _ => .inl { s with offset := nextOffset }

/-- One round of the loop, and what is after it. -/
def round (data : Slice t) (s : Scan) :
    Except (Stop IoError) (Scan ⊕ MoovPosition) := do
  let headerEnd ← t.add s.offset 8
  failIf (¬ headerEnd ≤ data.len)
    (invalidData "MP4 is missing top-level moov or mdat box")
  let (boxType, nextOffset) ← nextBox data s.offset
  return (s.see boxType).goOn nextOffset

def mp4MoovPosition (data : Slice t) : Except (Stop IoError) MoovPosition :=
  loop (round data) (data.len + 1) {}

/-! ## Boxes -/

inductive SizeForm
  | compact
  | large
  | toEnd
  deriving DecidableEq, Repr

namespace SizeForm

def headerSize : SizeForm → ℕ
  | .compact => 8
  | .large => 16
  | .toEnd => 8

/-- The first four bytes, as a number. -/
def size32 (form : SizeForm) (size : ℕ) : ℕ :=
  match form with
  | .compact => size
  | .large => 1
  | .toEnd => 0

/-- What stands between the type and the payload. -/
def size64 (form : SizeForm) (size : ℕ) : List UInt8 :=
  match form with
  | .compact => []
  | .large => bigEndian 8 size
  | .toEnd => []

/-- The size can be written so. -/
def Fits (form : SizeForm) (size : ℕ) : Prop :=
  match form with
  | .compact => size < 2 ^ 32
  | .large => size < 2 ^ 64
  | .toEnd => True

instance (form : SizeForm) (size : ℕ) : Decidable (form.Fits size) := by
  cases form <;> unfold Fits <;> infer_instance

end SizeForm

structure TopBox where
  form : SizeForm
  boxType : List UInt8
  payload : List UInt8
  type_length : boxType.length = 4
  fits : form.Fits (form.headerSize + payload.length)

namespace TopBox

def size (b : TopBox) : ℕ := b.form.headerSize + b.payload.length

def bytes (b : TopBox) : List UInt8 :=
  bigEndian 4 (b.form.size32 b.size) ++ b.boxType ++ b.form.size64 b.size ++ b.payload

/-- The data begins with the box, which takes all of it if it goes to the end. -/
structure Begins (b : TopBox) (data rest : List UInt8) : Prop where
  data_eq : data = b.bytes ++ rest
  last : b.form = .toEnd → rest = []

@[simp] theorem length_bytes (b : TopBox) : b.bytes.length = b.size := by
  obtain ⟨form, boxType, payload, hkind, -⟩ := b
  cases form <;> simp [bytes, size, SizeForm.headerSize, SizeForm.size64, hkind] <;> omega

end TopBox

/-! ## One box -/

/-- The header at an offset: four bytes of size, the type and what follows. -/
structure Header (data : Slice t) (offset : ℕ) (size boxType tail : List UInt8) :
    Prop where
  drop_eq : data.bytes.drop offset = size ++ (boxType ++ tail)
  size_length : size.length = 4
  type_length : boxType.length = 4

/-- How many bytes a box with such a header takes. -/
inductive Extent (size tail : List UInt8) : ℕ → Prop
  | compact (hsize : 8 ≤ ofBigEndian size) (hle : ofBigEndian size ≤ 8 + tail.length) :
      Extent size tail (ofBigEndian size)
  | large {size64 payload : List UInt8} (hsize : ofBigEndian size = 1)
      (htail : tail = size64 ++ payload) (hlength : size64.length = 8)
      (hheader : 16 ≤ ofBigEndian size64) (hle : ofBigEndian size64 ≤ 8 + tail.length) :
      Extent size tail (ofBigEndian size64)
  | toEnd (hsize : ofBigEndian size = 0) : Extent size tail (8 + tail.length)

section OneBox

variable {data : Slice t} {offset n : ℕ} {size boxType tail : List UInt8}

theorem Header.len_eq (h : Header data offset size boxType tail) :
    data.len = offset + 8 + tail.length := by
  have hlen := congrArg List.length h.drop_eq
  rw [List.length_drop, List.length_append, List.length_append, h.size_length,
    h.type_length] at hlen
  unfold Slice.len
  omega

/-- There is room in a size beyond what a slice can have. -/
theorem add_fits {m n : ℕ} (data : Slice t) (hm : m ≤ data.len) (hn : n ≤ 2 ^ 31) :
    m + n ≤ t.usizeMax := by
  have hlen := data.len_le
  have hroom := t.holdsU32
  unfold Target.usizeMax
  omega

theorem Header.nextBox_eq (h : Header data offset size boxType tail) :
    nextBox data offset = (do
      let (boxSize, headerSize) ← boxSize data offset (ofBigEndian size)
      let nextOffset ← okOr (t.checkedAdd offset boxSize)
        (.error (invalidData "MP4 box offset overflow"))
      failIf (boxSize < headerSize ∨ nextOffset > data.len)
        (invalidData "invalid MP4 top-level box size")
      return (boxType, nextOffset)) := by
  have hlen := h.len_eq
  have hsize : (data.range offset (offset + 4) : Except (Stop IoError) _) = .ok size :=
    Slice.range_of_drop h.drop_eq h.size_length (by omega)
  have htype : (data.range (offset + 4) (offset + 8) : Except (Stop IoError) _) =
      .ok boxType := by
    have hdrop : data.bytes.drop (offset + 4) = boxType ++ tail := by
      rw [← List.drop_drop, h.drop_eq, List.drop_left' h.size_length]
    exact Slice.range_of_drop hdrop h.type_length (by omega)
  rw [nextBox, t.add_of_le (add_fits data (by omega) (by decide)), ok_bind,
    hsize, ok_bind, fromBeBytes, if_pos h.size_length, ok_bind,
    t.add_of_le (add_fits data (by omega) (by decide)), ok_bind, htype, ok_bind]

theorem boxSize_compact (h : 2 ≤ n) (hn : n < 2 ^ 32) :
    boxSize data offset n = .ok (n, 8) := by
  have hroom := t.holdsU32
  obtain ⟨m, rfl⟩ : ∃ m, n = m + 2 := ⟨n - 2, by omega⟩
  rw [boxSize.eq_3 _ _ _ (by omega) (by omega),
    t.tryFrom_of_le (by unfold Target.usizeMax; omega), okOr_some, ok_bind]
  rfl

theorem Header.boxSize_toEnd (h : Header data offset size boxType tail) :
    boxSize data offset 0 = .ok (8 + tail.length, 8) := by
  have hlen := h.len_eq
  rw [boxSize, sub_of_le (by omega), ok_bind,
    show data.len - offset = 8 + tail.length by omega]
  rfl

theorem Header.boxSize_truncated (h : Header data offset size boxType tail)
    (htail : tail.length < 8) : ∃ e, boxSize data offset 1 = .error (.error e) := by
  have hlen := h.len_eq
  rw [boxSize, t.add_of_le (add_fits data (by omega) (by decide)), ok_bind,
    failIf_pos (by omega)]
  exact ⟨_, rfl⟩

theorem Header.boxSize_large {size64 payload : List UInt8}
    (h : Header data offset size boxType tail) (htail : tail = size64 ++ payload)
    (hlength : size64.length = 8) :
    boxSize data offset 1 =
      if ofBigEndian size64 ≤ t.usizeMax then .ok (ofBigEndian size64, 16)
      else .error (.error (invalidData "MP4 box size does not fit in memory")) := by
  have hlen := h.len_eq
  have htail8 : 8 ≤ tail.length := by
    rw [htail, List.length_append]
    omega
  have hrange : (data.range (offset + 8) (offset + 16) : Except (Stop IoError) _) =
      .ok size64 := by
    have hdrop : data.bytes.drop (offset + 8) = size64 ++ payload := by
      rw [← List.drop_drop, h.drop_eq, ← List.append_assoc,
        List.drop_left' (by rw [List.length_append, h.size_length, h.type_length]), htail]
    exact Slice.range_of_drop hdrop hlength (by omega)
  rw [boxSize, t.add_of_le (add_fits data (by omega) (by decide)), ok_bind,
    failIf_neg (by omega), ok_bind,
    t.add_of_le (add_fits data (by omega) (by decide)), ok_bind, hrange, ok_bind,
    fromBeBytes, if_pos hlength, ok_bind]
  by_cases hsize : ofBigEndian size64 ≤ t.usizeMax
  · rw [if_pos hsize, t.tryFrom_of_le hsize, okOr_some, ok_bind]
    rfl
  · rw [if_neg hsize, t.tryFrom_of_lt (Nat.lt_of_not_le hsize), okOr_none, error_bind]

theorem extent_toEnd (h : ofBigEndian size = 0) :
    Extent size tail n ↔ n = 8 + tail.length := by
  constructor
  · rintro (⟨_, _⟩ | ⟨_, _, _, _, _⟩ | _) <;> omega
  · rintro rfl
    exact .toEnd h

theorem extent_compact (h : 2 ≤ ofBigEndian size) :
    Extent size tail n ↔ n = ofBigEndian size ∧
      8 ≤ ofBigEndian size ∧ ofBigEndian size ≤ 8 + tail.length := by
  constructor
  · rintro (⟨h8, hle⟩ | ⟨_, _, _, _, _⟩ | _)
    · exact ⟨rfl, h8, hle⟩
    · omega
    · omega
  · rintro ⟨rfl, h8, hle⟩
    exact .compact h8 hle

theorem extent_large {size64 payload : List UInt8} (h : ofBigEndian size = 1)
    (hlength : size64.length = 8) :
    Extent size (size64 ++ payload) n ↔ n = ofBigEndian size64 ∧
      16 ≤ ofBigEndian size64 ∧
      ofBigEndian size64 ≤ 8 + (size64 ++ payload).length := by
  constructor
  · rintro (⟨_, _⟩ | ⟨_, heq, hlength', h16, hle⟩ | _)
    · omega
    · obtain ⟨rfl, -⟩ := List.append_inj heq (hlength.trans hlength'.symm)
      exact ⟨rfl, h16, hle⟩
    · omega
  · rintro ⟨rfl, h16, hle⟩
    exact .large h rfl hlength h16 hle

theorem not_extent_truncated (h : ofBigEndian size = 1) (htail : tail.length < 8) :
    ¬ Extent size tail n := by
  rintro (⟨_, _⟩ | ⟨_, rfl, hlength, _, _⟩ | _)
  · omega
  · rw [List.length_append] at htail
    omega
  · omega

/-- The size that the header declares is the extent of a box, or it is refused. -/
theorem Header.nextBox_of_size {headerSize : ℕ} (h : Header data offset size boxType tail)
    (hsize : boxSize data offset (ofBigEndian size) = .ok (n, headerSize))
    (hextent : ∀ m, Extent size tail m ↔ m = n ∧ headerSize ≤ n ∧ n ≤ 8 + tail.length) :
    (∃ n, (∀ m, Extent size tail m ↔ m = n) ∧
        nextBox data offset = .ok (boxType, offset + n)) ∨
      ((∀ n, ¬ Extent size tail n) ∧ ∃ e, nextBox data offset = .error (.error e)) := by
  have hlen := h.len_eq
  have hmax := data.len_le
  rw [h.nextBox_eq, hsize, ok_bind]
  dsimp only
  by_cases hn : headerSize ≤ n ∧ n ≤ 8 + tail.length
  · refine .inl ⟨n, fun m => (hextent m).trans (and_iff_left hn), ?_⟩
    rw [t.checkedAdd_of_le (by unfold Target.usizeMax; omega), okOr_some, ok_bind,
      failIf_neg (by omega), ok_bind]
    rfl
  · refine .inr ⟨fun m hm => hn ((hextent m).mp hm).2, ?_⟩
    by_cases hsum : offset + n ≤ t.usizeMax
    · rw [t.checkedAdd_of_le hsum, okOr_some, ok_bind, failIf_pos (by omega), error_bind]
      exact ⟨_, rfl⟩
    · rw [t.checkedAdd_of_lt (Nat.lt_of_not_le hsum), okOr_none, error_bind]
      exact ⟨_, rfl⟩

/-- A size of 64 bits may be beyond `usize`, where no data is as long. -/
theorem Header.nextBox_large {size64 payload : List UInt8}
    (h : Header data offset size boxType (size64 ++ payload))
    (hone : ofBigEndian size = 1) (hlength : size64.length = 8) :
    (∃ n, (∀ m, Extent size (size64 ++ payload) m ↔ m = n) ∧
        nextBox data offset = .ok (boxType, offset + n)) ∨
      ((∀ n, ¬ Extent size (size64 ++ payload) n) ∧
        ∃ e, nextBox data offset = .error (.error e)) := by
  have hsize := h.boxSize_large rfl hlength
  split_ifs at hsize with hmax
  · exact h.nextBox_of_size (hone ▸ hsize) fun m => extent_large hone hlength
  · have hlen := h.len_eq
    have hroom := data.len_le
    refine .inr ⟨fun m hm => ?_, invalidData "MP4 box size does not fit in memory", ?_⟩
    · obtain ⟨-, -, hle⟩ := (extent_large hone hlength).mp hm
      unfold Target.usizeMax at hmax
      omega
    · rw [h.nextBox_eq, hone, hsize, error_bind]

/-- **One box.** The parser goes to the end of the box that the header begins, and
has an error where there is none. -/
theorem Header.nextBox (h : Header data offset size boxType tail) :
    (∃ n, (∀ m, Extent size tail m ↔ m = n) ∧
        nextBox data offset = .ok (boxType, offset + n)) ∨
      ((∀ n, ¬ Extent size tail n) ∧ ∃ e, nextBox data offset = .error (.error e)) := by
  have hlt := ofBigEndian_lt size
  rw [h.size_length] at hlt
  obtain hzero | hone | htwo : ofBigEndian size = 0 ∨ ofBigEndian size = 1 ∨
      2 ≤ ofBigEndian size := by omega
  · refine h.nextBox_of_size (hzero ▸ h.boxSize_toEnd) fun m => ?_
    rw [extent_toEnd hzero]
    exact (and_iff_left ⟨Nat.le_add_right _ _, Nat.le_refl _⟩).symm
  · by_cases htail : tail.length < 8
    · obtain ⟨e, he⟩ := h.boxSize_truncated htail
      refine .inr ⟨fun m => not_extent_truncated hone htail, e, ?_⟩
      rw [h.nextBox_eq, hone, he, error_bind]
    · obtain ⟨size64, payload, rfl, hlength⟩ : ∃ size64 payload,
          tail = size64 ++ payload ∧ size64.length = 8 :=
        ⟨tail.take 8, tail.drop 8, (List.take_append_drop 8 tail).symm, by
          rw [List.length_take]; omega⟩
      exact h.nextBox_large hone hlength
  · exact h.nextBox_of_size (boxSize_compact htwo hlt) fun m => extent_compact htwo

theorem TopBox.Begins.extent {b : TopBox} {d rest : List UInt8} (h : b.Begins d rest) :
    ∃ size tail, d = size ++ (b.boxType ++ tail) ∧ size.length = 4 ∧
      Extent size tail b.size := by
  obtain ⟨rfl, hlast⟩ := h
  refine ⟨bigEndian 4 (b.form.size32 b.size), b.form.size64 b.size ++ (b.payload ++ rest),
    by simp only [bytes, List.append_assoc], length_bigEndian 4 _, ?_⟩
  obtain ⟨form, boxType, payload, htype, hfits⟩ := b
  cases form with
  | compact =>
      have hsize := ofBigEndian_bigEndian (w := 4) (n := 8 + payload.length) hfits
      have hext : Extent (bigEndian 4 (8 + payload.length)) (payload ++ rest) _ :=
        .compact (by omega) (by rw [hsize, List.length_append]; omega)
      rw [hsize] at hext
      exact hext
  | large =>
      have hsize := ofBigEndian_bigEndian (w := 8) (n := 16 + payload.length) hfits
      have hext : Extent (bigEndian 4 1)
          (bigEndian 8 (16 + payload.length) ++ (payload ++ rest)) _ :=
        .large (ofBigEndian_bigEndian (by decide)) rfl (length_bigEndian 8 _) (by omega)
          (by rw [hsize, List.length_append, List.length_append, length_bigEndian]; omega)
      rw [hsize] at hext
      exact hext
  | toEnd =>
      obtain rfl := hlast rfl
      have hext : Extent (bigEndian 4 0) (payload ++ []) _ :=
        .toEnd (ofBigEndian_bigEndian (by decide))
      rw [List.append_nil] at hext ⊢
      exact hext

theorem Extent.begins (h : Extent size tail n) (hsize : size.length = 4)
    (htype : boxType.length = 4) :
    ∃ b rest, TopBox.Begins b (size ++ (boxType ++ tail)) rest := by
  have hcode : ∀ k, ofBigEndian size = k → bigEndian 4 k = size := by
    rintro k rfl
    rw [← hsize]
    exact bigEndian_ofBigEndian size
  cases h with
  | compact h8 hle =>
      have hlt := ofBigEndian_lt size
      have hpayload : 8 + (tail.take (ofBigEndian size - 8)).length = ofBigEndian size := by
        rw [List.length_take]
        omega
      rw [hsize] at hlt
      refine ⟨⟨.compact, boxType, tail.take (ofBigEndian size - 8), htype, ?_⟩,
        tail.drop (ofBigEndian size - 8), ?_, nofun⟩
      · exact hpayload.trans_lt hlt
      · simp only [TopBox.bytes, TopBox.size, SizeForm.size32, SizeForm.headerSize,
          SizeForm.size64, hpayload, hcode _ rfl, List.append_nil, List.append_assoc,
          List.take_append_drop]
  | @large size64 payload hone htail hlength h16 hle =>
      have hlt := ofBigEndian_lt size64
      have hpayload : 16 + (payload.take (ofBigEndian size64 - 16)).length =
          ofBigEndian size64 := by
        rw [htail, List.length_append] at hle
        rw [List.length_take]
        omega
      have hcode64 : bigEndian 8 (ofBigEndian size64) = size64 := by
        rw [← hlength]
        exact bigEndian_ofBigEndian size64
      rw [hlength] at hlt
      refine ⟨⟨.large, boxType, payload.take (ofBigEndian size64 - 16), htype, ?_⟩,
        payload.drop (ofBigEndian size64 - 16), ?_, nofun⟩
      · exact hpayload.trans_lt hlt
      · simp only [TopBox.bytes, TopBox.size, SizeForm.size32, SizeForm.headerSize,
          SizeForm.size64, hpayload, hcode _ hone, hcode64, htail, List.append_assoc,
          List.take_append_drop]
  | toEnd hzero =>
      refine ⟨⟨.toEnd, boxType, tail, htype, trivial⟩, [], ?_, fun _ => rfl⟩
      simp only [TopBox.bytes, SizeForm.size32, SizeForm.size64, hcode _ hzero,
        List.append_nil, List.append_assoc]

end OneBox

end VideoStorage.Media
