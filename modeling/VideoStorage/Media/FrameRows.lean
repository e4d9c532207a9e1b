import VideoStorage.Foundation.Pieces
import VideoStorage.Foundation.Usize

/-!
# The rows of a frame

`copy_rgb24_frame_data` takes the pixels out of a frame whose rows are `stride` bytes
apart. It checks its products and sums against `usize::MAX`, but the vector that it
makes room in may not be longer than `isize::MAX`, and has to be granted.
-/

namespace VideoStorage.Media

open Foundation

variable {t : Target}

/-! ## The copy -/

/-- An `anyhow::Error`: its contexts, the outermost first. -/
abbrev PHashError : Type := List String

/-- The row `y`, put behind those before it. -/
def copyRow (alloc : Allocator t) (data : Slice t) (stride rowBytes : ℕ)
    (imgData : ByteVec t) (y : ℕ) : Except (Stop PHashError) (ByteVec t) := do
  let rowStart ← okOr (t.checkedMul y stride) (.error ["RGB24 row offset overflow"])
  let rowEnd ← okOr (t.checkedAdd rowStart rowBytes) (.error ["RGB24 row end overflow"])
  failIf (¬ rowEnd ≤ data.len) ["RGB24 frame data too short for row " ++ toString y ++
    ": need " ++ toString rowEnd ++ " bytes, have " ++ toString data.len]
  let row ← data.range rowStart rowEnd
  imgData.extend alloc row

def copyRgb24FrameData (alloc : Allocator t) (data : Slice t) (stride : t.Usize)
    (width height : UInt32) : Except (Stop PHashError) (ByteVec t) := do
  let rowBytes ← okOr (t.checkedMul width.toNat 3)
    (.error ["RGB24 row byte count overflow"])
  failIf (¬ stride.val ≥ rowBytes) ["RGB24 stride " ++ toString stride.val ++
    " is shorter than row width " ++ toString rowBytes]
  let capacity ← okOr (t.checkedMul rowBytes height.toNat)
    (.error ["RGB24 image byte count overflow"])
  let imgData ← ByteVec.withCapacity alloc capacity
  (List.range height.toNat).foldlM (copyRow alloc data stride.val rowBytes) imgData

/-! ## The rows -/

def rowOf (data : Slice t) (stride rowBytes y : ℕ) : List UInt8 :=
  (data.bytes.drop (y * stride)).take rowBytes

section Rows

variable {alloc : Allocator t} {data : Slice t} {imgData : ByteVec t}
  {stride rowBytes y n : ℕ}

theorem copyRow_ok (h : y * stride + rowBytes ≤ data.len)
    (hfits : (imgData.bytes ++ rowOf data stride rowBytes y).length ≤
      imgData.capacity) :
    copyRow alloc data stride rowBytes imgData y =
      .ok ⟨imgData.bytes ++ rowOf data stride rowBytes y, imgData.capacity, hfits,
        imgData.fits⟩ := by
  have hmax := data.len_le
  have hroom : y * stride + rowBytes ≤ t.usizeMax := by
    unfold Target.usizeMax
    omega
  have hrange : (data.range (y * stride) (y * stride + rowBytes) :
      Except (Stop PHashError) _) = .ok (rowOf data stride rowBytes y) := by
    rw [Slice.range_of_le (Nat.le_add_right _ _) h, Nat.add_sub_cancel_left]
    rfl
  rw [copyRow, t.checkedMul_of_le (by omega), okOr_some, ok_bind,
    t.checkedAdd_of_le hroom, okOr_some, ok_bind, failIf_neg (not_not.mpr h), ok_bind,
    hrange, ok_bind, ByteVec.extend_of_le hfits]

theorem copyRow_error (imgData : ByteVec t)
    (h : ¬ y * stride + rowBytes ≤ data.len) :
    ∃ e, copyRow alloc data stride rowBytes imgData y = .error (.error e) := by
  by_cases hmul : y * stride ≤ t.usizeMax
  · by_cases hadd : y * stride + rowBytes ≤ t.usizeMax
    · rw [copyRow, t.checkedMul_of_le hmul, okOr_some, ok_bind, t.checkedAdd_of_le hadd,
        okOr_some, ok_bind, failIf_pos h, error_bind]
      exact ⟨_, rfl⟩
    · rw [copyRow, t.checkedMul_of_le hmul, okOr_some, ok_bind,
        t.checkedAdd_of_lt (Nat.lt_of_not_le hadd), okOr_none, error_bind]
      exact ⟨_, rfl⟩
  · rw [copyRow, t.checkedMul_of_lt (Nat.lt_of_not_le hmul), okOr_none, error_bind]
    exact ⟨_, rfl⟩

theorem length_rowOf (h : y * stride + rowBytes ≤ data.len) :
    (rowOf data stride rowBytes y).length = rowBytes := by
  have hlen : data.len = data.bytes.length := rfl
  rw [rowOf, List.length_take, List.length_drop]
  omega

theorem rowOf_getElem? {x : ℕ} (hx : x < rowBytes) :
    (rowOf data stride rowBytes y)[x]? = data.bytes[y * stride + x]? := by
  rw [rowOf, List.getElem?_take_of_lt hx, List.getElem?_drop]

theorem uniform_rowOf (h : ∀ y < n, y * stride + rowBytes ≤ data.len) :
    Uniform (rowOf data stride rowBytes) n rowBytes :=
  fun y hy => length_rowOf (h y hy)

/-- **All rows** are there, and the image is what they are. -/
theorem copyRows_ok (imgData : ByteVec t)
    (h : ∀ y < n, y * stride + rowBytes ≤ data.len)
    (hfits : n * rowBytes ≤ imgData.capacity) (hempty : imgData.bytes = []) :
    ∃ img, (List.range n).foldlM (copyRow alloc data stride rowBytes) imgData =
        .ok img ∧ img.bytes = joined (rowOf data stride rowBytes) n ∧
      img.capacity = imgData.capacity := by
  induction n with
  | zero => exact ⟨imgData, rfl, hempty, rfl⟩
  | succ n ih =>
      have hrows : ∀ y < n, y * stride + rowBytes ≤ data.len :=
        fun y hy => h y (Nat.lt_succ_of_lt hy)
      rw [Nat.succ_mul] at hfits
      obtain ⟨img, himg, hbytes, hcapacity⟩ := ih hrows (by omega)
      have hlast := h n (Nat.lt_succ_self n)
      have hroom : (img.bytes ++ rowOf data stride rowBytes n).length ≤
          img.capacity := by
        rw [List.length_append, hbytes, length_joined (uniform_rowOf hrows),
          length_rowOf hlast, hcapacity]
        exact hfits
      refine ⟨⟨_, img.capacity, hroom, img.fits⟩, ?_, ?_, hcapacity⟩
      · rw [List.range_succ, List.foldlM_append, himg, ok_bind, List.foldlM_cons,
          copyRow_ok hlast hroom, ok_bind]
        rfl
      · rw [joined_succ, ← hbytes]

/-- The first row that is not there is an error. -/
theorem copyRows_error (imgData : ByteVec t)
    (h : ¬ ∀ y < n, y * stride + rowBytes ≤ data.len)
    (hfits : n * rowBytes ≤ imgData.capacity) (hempty : imgData.bytes = []) :
    ∃ e, (List.range n).foldlM (copyRow alloc data stride rowBytes) imgData =
      .error (.error e) := by
  induction n with
  | zero => exact absurd (fun y hy => absurd hy (Nat.not_lt_zero y)) h
  | succ n ih =>
      rw [Nat.succ_mul] at hfits
      rw [List.range_succ, List.foldlM_append]
      by_cases hrows : ∀ y < n, y * stride + rowBytes ≤ data.len
      · obtain ⟨img, himg, -, -⟩ := copyRows_ok imgData hrows (by omega) hempty
        have hlast : ¬ n * stride + rowBytes ≤ data.len := by
          intro hlast
          refine h fun y hy => ?_
          obtain hlt | rfl := Nat.lt_succ_iff_lt_or_eq.mp hy
          · exact hrows y hlt
          · exact hlast
        obtain ⟨e, he⟩ := copyRow_error img hlast
        rw [himg, ok_bind, List.foldlM_cons, he, error_bind]
        exact ⟨e, rfl⟩
      · obtain ⟨e, he⟩ := ih hrows (by omega)
        rw [he, error_bind]
        exact ⟨e, rfl⟩

end Rows

/-! ## The contract -/

/-- The arguments describe a frame that lies in the data. -/
structure InFrame (data : Slice t) (stride : t.Usize) (width height : UInt32) : Prop where
  width_le : 3 * width.toNat ≤ stride.val
  size_le : 3 * width.toNat * height.toNat ≤ t.usizeMax
  rows_le : ∀ y < height.toNat, y * stride.val + 3 * width.toNat ≤ data.len

/-- The image has the pixels of every row, one row after the other. -/
structure Pixels (data : Slice t) (stride width height : ℕ) (img : ByteVec t) :
    Prop where
  length : img.len = 3 * width * height
  pixel : ∀ y < height, ∀ x < 3 * width,
    ∃ v, img.bytes[y * (3 * width) + x]? = some v ∧ data.bytes[y * stride + x]? = some v

/-- The copy comes back, with the pixels if and only if the frame lies in the data. -/
def Copies (alloc : Allocator t) (data : Slice t) (stride : t.Usize)
    (width height : UInt32) : Prop :=
  ∃ r, Returns (copyRgb24FrameData alloc data stride width height) r ∧
    ((∃ img, r = .ok img) ↔ InFrame data stride width height) ∧
    ∀ img, r = .ok img → Pixels data stride.val width.toNat height.toNat img

section Contract

variable {alloc : Allocator t} {data : Slice t} {stride : t.Usize}
  {width height : UInt32}

theorem copies_of_error
    (h : ∃ e, copyRgb24FrameData alloc data stride width height = .error (.error e))
    (hframe : ¬ InFrame data stride width height) :
    Copies alloc data stride width height := by
  obtain ⟨e, h⟩ := h
  refine ⟨.error e, by rw [h]; rfl, ?_, fun img himg => by cases himg⟩
  constructor
  · rintro ⟨img, himg⟩
    cases himg
  · exact fun hin => absurd hin hframe

/-- As far as the vector. -/
theorem copyRgb24FrameData_eq (hstride : 3 * width.toNat ≤ stride.val)
    (hsize : 3 * width.toNat * height.toNat ≤ t.usizeMax) :
    copyRgb24FrameData alloc data stride width height =
      (ByteVec.withCapacity alloc (3 * width.toNat * height.toNat) >>= fun imgData =>
        (List.range height.toNat).foldlM
          (copyRow alloc data stride.val (3 * width.toNat)) imgData) := by
  rw [Nat.mul_comm 3] at *
  rw [copyRgb24FrameData, t.checkedMul_of_le (hstride.trans stride.property), okOr_some,
    ok_bind, failIf_neg (not_not.mpr hstride), ok_bind, t.checkedMul_of_le hsize, okOr_some,
    ok_bind]

/-- Without memory for the image the call does not come back. -/
theorem not_copies_of_refused (hstride : 3 * width.toNat ≤ stride.val)
    (hsize : 3 * width.toNat * height.toNat ≤ t.usizeMax)
    (hgrant : ¬ alloc.grants (3 * width.toNat * height.toNat) = true) :
    ¬ Copies alloc data stride width height := by
  rintro ⟨r, hr, -⟩
  rw [copyRgb24FrameData_eq hstride hsize] at hr
  rcases ByteVec.withCapacity_refused (ε := PHashError) hgrant with h | h
  · rw [h, error_bind] at hr
    exact not_returns_panic hr
  · rw [h, error_bind] at hr
    exact not_returns_abort hr

/-- With memory for it, the image is there if the rows are. -/
theorem copies_of_granted (hstride : 3 * width.toNat ≤ stride.val)
    (hgrant : alloc.grants (3 * width.toNat * height.toNat) = true) :
    Copies alloc data stride width height := by
  have hcapacity := alloc.bounded _ hgrant
  have hsize : 3 * width.toNat * height.toNat ≤ t.usizeMax := by
    unfold Target.usizeMax
    omega
  have hrun : copyRgb24FrameData alloc data stride width height = _ :=
    copyRgb24FrameData_eq hstride hsize
  rw [ByteVec.withCapacity_granted hgrant, ok_bind] at hrun
  have hfits : height.toNat * (3 * width.toNat) ≤ 3 * width.toNat * height.toNat :=
    (Nat.mul_comm _ _).le
  by_cases hrows : ∀ y < height.toNat, y * stride.val + 3 * width.toNat ≤ data.len
  · obtain ⟨img, himg, hbytes, -⟩ := copyRows_ok ⟨[], _, Nat.zero_le _, hcapacity⟩
      hrows hfits rfl
    have huniform := uniform_rowOf hrows
    refine ⟨.ok img, by rw [hrun, himg]; rfl, ?_, ?_⟩
    · exact ⟨fun _ => ⟨hstride, hsize, hrows⟩, fun _ => ⟨img, rfl⟩⟩
    · rintro _ ⟨⟩
      refine ⟨?_, fun y hy x hx => ?_⟩
      · rw [ByteVec.len, hbytes, length_joined huniform, Nat.mul_comm]
      · have hin : y * stride.val + x < data.bytes.length := by
          have hrow := hrows y hy
          unfold Slice.len at hrow
          omega
        refine ⟨data.bytes[y * stride.val + x], ?_, List.getElem?_eq_getElem hin⟩
        rw [hbytes, getElem?_joined huniform hy hx, rowOf_getElem? hx]
        exact List.getElem?_eq_getElem hin
  · obtain ⟨e, he⟩ := copyRows_error ⟨[], _, Nat.zero_le _, hcapacity⟩ hrows hfits rfl
    exact copies_of_error ⟨e, hrun.trans he⟩ fun hin => hrows hin.rows_le

/-- **The rows are copied right** unless the image, which is no longer than a size
may be, is a vector that is not granted. -/
theorem copies_iff (alloc : Allocator t) (data : Slice t) (stride : t.Usize)
    (width height : UInt32) :
    Copies alloc data stride width height ↔ ¬ (3 * width.toNat ≤ stride.val ∧
      3 * width.toNat * height.toNat ≤ t.usizeMax ∧
      alloc.grants (3 * width.toNat * height.toNat) = false) := by
  constructor
  · rintro hcopies ⟨hstride, hsize, hgrant⟩
    exact not_copies_of_refused hstride hsize (Bool.eq_false_iff.mp hgrant) hcopies
  · intro hroom
    by_cases hstride : 3 * width.toNat ≤ stride.val
    · by_cases hsize : 3 * width.toNat * height.toNat ≤ t.usizeMax
      · refine copies_of_granted hstride ?_
        by_contra hgrant
        exact hroom ⟨hstride, hsize, Bool.eq_false_iff.mpr hgrant⟩
      · refine copies_of_error ?_ fun hin => hsize hin.size_le
        rw [Nat.mul_comm 3] at *
        rw [copyRgb24FrameData, t.checkedMul_of_le (hstride.trans stride.property),
          okOr_some, ok_bind, failIf_neg (not_not.mpr hstride), ok_bind,
          t.checkedMul_of_lt (Nat.lt_of_not_le hsize), okOr_none, error_bind]
        exact ⟨_, rfl⟩
    · refine copies_of_error ?_ fun hin => hstride hin.width_le
      rw [Nat.mul_comm 3] at hstride
      by_cases hwidth : width.toNat * 3 ≤ t.usizeMax
      · rw [copyRgb24FrameData, t.checkedMul_of_le hwidth, okOr_some, ok_bind,
          failIf_pos hstride, error_bind]
        exact ⟨_, rfl⟩
      · rw [copyRgb24FrameData, t.checkedMul_of_lt (Nat.lt_of_not_le hwidth), okOr_none,
          error_bind]
        exact ⟨_, rfl⟩

/-- 2³² − 1 by 2³⁰ pixels and no data: a panic, also with all the memory that there
may be. -/
theorem copies_fails_huge :
    ¬ Copies (.plenty .bits64) ⟨[], Nat.zero_le _⟩ ⟨3 * (2 ^ 32 - 1), by decide⟩
      (UInt32.ofNat (2 ^ 32 - 1)) (UInt32.ofNat (2 ^ 30)) :=
  not_copies_of_refused (by decide) (by decide) (by decide)

end Contract

end VideoStorage.Media
