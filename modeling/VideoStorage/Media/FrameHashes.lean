import Mathlib.Data.Nat.Bitwise
import VideoStorage.Foundation.Pieces
import VideoStorage.Media.FrameRows

/-!
# The hash of a video

`hash_video_with_metadata` writes the hashes of up to ten frames in zeros and ones,
repeats them until there are ten and joins them. Decoding a file and hashing one
image are the work of libraries (`Imaging`).
-/

namespace VideoStorage.Media

open Foundation

/-! ## The hasher -/

def hashKind : String := "phash"

def hashVersion : String := "offchain_binary_10x8_v1"

def expectedBinaryHashLen : ℕ := 640

/-- A hash of so many bits, packed in bytes. -/
structure ImageHash (width height : ℕ) where
  bytes : List UInt8
  length_eq : bytes.length = (width * height + 7) / 8

structure PHasher where
  numFrames : ℕ
  hashSize : ℕ
  deriving DecidableEq, Repr

def PHasher.new : PHasher := ⟨10, 8⟩

/-- What decodes a file and what hashes one image, turned to gray. -/
structure Imaging (Frame Metadata : Type) where
  extractFramesWithMetadata : PHasher → String → Except PHashError (List Frame × Metadata)
  hashImage (hashSize : ℕ) (img : Frame) : ImageHash hashSize hashSize

structure VideoHashResult (Metadata : Type) where
  hash : String
  metadata : Metadata
  hashKind : String
  hashVersion : String
  deriving DecidableEq, Repr

section Hasher

variable {width height : ℕ} {Frame Metadata : Type}

/-- One round of `for i in (0..8).rev()`. -/
def pushBit (byte : UInt8) (binary : String) (i : ℕ) : String :=
  binary.push (if (byte >>> UInt8.ofNat i) &&& 1 = 1 then '1' else '0')

def pushByte (binary : String) (byte : UInt8) : String :=
  (List.range 8).reverse.foldl (pushBit byte) binary

def hashToBinaryString (hash : ImageHash width height) : String :=
  hash.bytes.foldl pushByte ""

def computeImageHash (im : Imaging Frame Metadata) (self : PHasher) (img : Frame) :
    Except (Stop PHashError) (ImageHash self.hashSize self.hashSize) :=
  .ok (im.hashImage self.hashSize img)

def hashVideoWithMetadata (im : Imaging Frame Metadata) (self : PHasher) (path : String) :
    Except (Stop PHashError) (VideoHashResult Metadata) := do
  let (frames, metadata) ← (im.extractFramesWithMetadata self path).mapError
    fun chain => .error ("Failed to extract frames" :: chain)
  failIf (frames.length = 0) ["No frames extracted from video"]
  let frameHashes ← frames.mapM fun frame => do
    let hash ← computeImageHash im self frame
    return hashToBinaryString hash
  -- an index out of bounds panics, and so does a remainder by zero
  let hashes ← (List.range self.numFrames).mapM fun i =>
    okOr frameHashes[i % frameHashes.length]? .panic
  return ⟨String.join hashes, metadata, Media.hashKind, Media.hashVersion⟩

end Hasher

/-! ## Zeros and ones -/

/-- The bits of a byte, the most significant first. -/
def bits (byte : UInt8) : List Char :=
  (List.range 8).map fun j => if byte.toNat.testBit (7 - j) then '1' else '0'

def binaryForm (bytes : List UInt8) : List Char := bytes.flatMap bits

section Bits

variable {byte byte' : UInt8} {bytes bytes' : List UInt8} {width height : ℕ}
  {hash hash' : ImageHash width height}

theorem shiftRight_and_one {i : ℕ} (hi : i < 8) :
    (byte >>> UInt8.ofNat i) &&& 1 = 1 ↔ byte.toNat.testBit i = true := by
  have hsize : i < UInt8.size := hi.trans (by decide)
  rw [← UInt8.toNat_inj, UInt8.toNat_and, UInt8.toNat_shiftRight,
    UInt8.toNat_ofNat_of_lt' hsize, Nat.mod_eq_of_lt hi, Nat.testBit, Nat.land_comm,
    UInt8.toNat_one]
  simp [Nat.one_and_eq_mod_two]

theorem toList_pushBits {is : List ℕ} (h : ∀ i ∈ is, i < 8) (binary : String) :
    (is.foldl (pushBit byte) binary).toList =
      binary.toList ++ is.map fun i => if byte.toNat.testBit i then '1' else '0' := by
  induction is generalizing binary with
  | nil => simp
  | cons i is ih =>
      have hi := h i List.mem_cons_self
      rw [List.foldl_cons, ih (fun i hi => h i (List.mem_cons_of_mem _ hi)), pushBit,
        String.toList_push, List.append_assoc, List.map_cons, List.singleton_append]
      simp only [shiftRight_and_one hi]

theorem toList_pushByte (binary : String) (byte : UInt8) :
    (pushByte binary byte).toList = binary.toList ++ bits byte := by
  have hrange : (List.range 8).reverse = (List.range 8).map fun j => 7 - j := by decide
  have hlt : ∀ i ∈ (List.range 8).reverse, i < 8 := by decide
  rw [pushByte, toList_pushBits hlt, hrange, List.map_map]
  rfl

theorem toList_hashToBinaryString (hash : ImageHash width height) :
    (hashToBinaryString hash).toList = binaryForm hash.bytes := by
  have hfold : ∀ (bytes : List UInt8) (binary : String),
      (bytes.foldl pushByte binary).toList = binary.toList ++ binaryForm bytes := by
    intro bytes
    induction bytes with
    | nil => simp [binaryForm]
    | cons byte bytes ih =>
        intro binary
        rw [List.foldl_cons, ih, toList_pushByte, binaryForm, binaryForm,
          List.flatMap_cons, List.append_assoc]
  exact hfold hash.bytes ""

theorem length_bits (byte : UInt8) : (bits byte).length = 8 := by
  rw [bits, List.length_map, List.length_range]

theorem bits_injective (h : bits byte = bits byte') : byte = byte' := by
  have hbit : ∀ j < 8, byte.toNat.testBit (7 - j) = byte'.toNat.testBit (7 - j) := by
    intro j hj
    have hchar := List.map_inj_left.mp h j (List.mem_range.mpr hj)
    cases hb : byte.toNat.testBit (7 - j) <;> cases hb' : byte'.toNat.testBit (7 - j) <;>
      simp_all
  refine UInt8.toNat_inj.mp (Nat.eq_of_testBit_eq fun i => ?_)
  by_cases hi : i < 8
  · have hij := hbit (7 - i) (by omega)
    rwa [show 7 - (7 - i) = i by omega] at hij
  · have hpow : 2 ^ 8 ≤ 2 ^ i := Nat.pow_le_pow_right (by decide) (by omega)
    rw [Nat.testBit_eq_false_of_lt (byte.toNat_lt.trans_le hpow),
      Nat.testBit_eq_false_of_lt (byte'.toNat_lt.trans_le hpow)]

theorem length_binaryForm (bytes : List UInt8) :
    (binaryForm bytes).length = bytes.length * 8 := by
  induction bytes with
  | nil => rfl
  | cons byte bytes ih =>
      rw [binaryForm] at ih
      rw [binaryForm, List.flatMap_cons, List.length_append, length_bits, ih,
        List.length_cons, Nat.succ_mul, Nat.add_comm]

theorem binaryForm_injective (h : binaryForm bytes = binaryForm bytes') :
    bytes = bytes' := by
  have hlen := congrArg List.length h
  rw [length_binaryForm, length_binaryForm] at hlen
  induction bytes generalizing bytes' with
  | nil =>
      rw [List.length_nil] at hlen
      exact (List.eq_nil_of_length_eq_zero (by omega)).symm
  | cons byte bytes ih =>
      cases bytes' with
      | nil =>
          rw [List.length_cons, List.length_nil] at hlen
          omega
      | cons byte' bytes' =>
          rw [binaryForm, binaryForm, List.flatMap_cons, List.flatMap_cons] at h
          obtain ⟨hbyte, hrest⟩ :=
            List.append_inj h ((length_bits byte).trans (length_bits byte').symm)
          rw [List.length_cons, List.length_cons] at hlen
          rw [bits_injective hbyte, ih hrest (by omega)]

theorem mem_binaryForm {c : Char} (h : c ∈ binaryForm bytes) : c = '0' ∨ c = '1' := by
  obtain ⟨byte, -, hc⟩ := List.mem_flatMap.mp h
  obtain ⟨j, -, rfl⟩ := List.mem_map.mp hc
  split
  · exact .inr rfl
  · exact .inl rfl

theorem ImageHash.eq_of_bytes (h : hash.bytes = hash'.bytes) : hash = hash' := by
  cases hash
  cases hash'
  obtain rfl : _ = _ := h
  rfl

end Bits

/-! ## Ten hashes -/

/-- The first ten of the hashes repeated for ever. -/
def cyclicExtension {α : Type} (hashes : List α) : List (Option α) :=
  (List.range 10).map fun i => hashes[i % hashes.length]?

section Slots

variable {hashes hashes' : List (ImageHash 8 8)}

/-- The zeros and ones at the place `i` of ten. -/
def slot (hashes : List (ImageHash 8 8)) (i : ℕ) : List Char :=
  (hashes[i % hashes.length]?).elim [] fun hash => binaryForm hash.bytes

theorem slot_hash (h : hashes ≠ []) (i : ℕ) :
    ∃ hash, hashes[i % hashes.length]? = some hash ∧
      slot hashes i = binaryForm hash.bytes := by
  have hlt : i % hashes.length < hashes.length := Nat.mod_lt i (List.length_pos_iff.mpr h)
  refine ⟨hashes[i % hashes.length], List.getElem?_eq_getElem hlt, ?_⟩
  rw [slot, List.getElem?_eq_getElem hlt]
  rfl

theorem uniform_slot (h : hashes ≠ []) : Uniform (slot hashes) 10 64 := by
  intro i _
  obtain ⟨hash, -, hslot⟩ := slot_hash h i
  rw [hslot, length_binaryForm, hash.length_eq]

theorem slot_eq_iff (h : hashes ≠ []) (h' : hashes' ≠ []) {i : ℕ} :
    slot hashes i = slot hashes' i ↔
      hashes[i % hashes.length]? = hashes'[i % hashes'.length]? := by
  obtain ⟨hash, hget, hslot⟩ := slot_hash h i
  obtain ⟨hash', hget', hslot'⟩ := slot_hash h' i
  rw [hslot, hslot', hget, hget', Option.some.injEq]
  constructor
  · exact fun heq => ImageHash.eq_of_bytes (binaryForm_injective heq)
  · rintro rfl
    rfl

/-- **Equal texts** are equal hashes, one by one. -/
theorem joined_slot_eq_iff (h : hashes ≠ []) (h' : hashes' ≠ []) :
    joined (slot hashes) 10 = joined (slot hashes') 10 ↔
      cyclicExtension hashes = cyclicExtension hashes' := by
  rw [joined_eq_iff (uniform_slot h) (uniform_slot h'), cyclicExtension, cyclicExtension,
    List.map_inj_left]
  simp only [List.mem_range, slot_eq_iff h h']

theorem mem_joined_slot {c : Char} (h : hashes ≠ []) (hc : c ∈ joined (slot hashes) 10) :
    c = '0' ∨ c = '1' := by
  obtain ⟨i, -, hc⟩ := List.mem_flatMap.mp hc
  obtain ⟨hash, -, hslot⟩ := slot_hash h i
  exact mem_binaryForm (hslot ▸ hc)

end Slots

section Assembly

variable {Frame Metadata : Type} {im : Imaging Frame Metadata} {path : String}
  {frames : List Frame} {metadata : Metadata}

/-- **The assembly** of the hashes of the frames. -/
theorem hashVideoWithMetadata_ok (h : frames ≠ [])
    (hframes : im.extractFramesWithMetadata .new path = .ok (frames, metadata)) :
    ∃ hash : String, hash.toList = joined (slot (frames.map (im.hashImage 8))) 10 ∧
      hashVideoWithMetadata im .new path =
        .ok ⟨hash, metadata, Media.hashKind, Media.hashVersion⟩ := by
  have hpos : frames.length ≠ 0 := fun h0 => h (List.eq_nil_of_length_eq_zero h0)
  have hne : frames.map (im.hashImage 8) ≠ [] := fun h0 => h (List.map_eq_nil_iff.mp h0)
  have hstrings : frames.mapM (fun frame => do
      let hash ← computeImageHash im .new frame
      return hashToBinaryString hash) =
      .ok ((frames.map (im.hashImage 8)).map hashToBinaryString) := by
    rw [List.map_map]
    exact mapM_ok fun _ _ => rfl
  -- every place has a string
  let text (i : ℕ) : String :=
    ((frames.map (im.hashImage 8))[i % frames.length]?).elim "" hashToBinaryString
  have htext : ∀ i, (text i).toList = slot (frames.map (im.hashImage 8)) i := by
    intro i
    obtain ⟨hash, hget, hslot⟩ := slot_hash hne i
    rw [List.length_map] at hget
    rw [hslot]
    simp only [text, hget, Option.elim, toList_hashToBinaryString]
  refine ⟨String.join ((List.range 10).map text), ?_, ?_⟩
  · rw [String.toList_join, List.flatMap_map]
    exact List.flatMap_congr fun i _ => htext i
  · have hplaces : (List.range 10).mapM (fun i =>
        okOr (((frames.map (im.hashImage 8)).map hashToBinaryString)[i %
          ((frames.map (im.hashImage 8)).map hashToBinaryString).length]?)
          (Stop.panic : Stop PHashError)) = .ok ((List.range 10).map text) := by
      refine mapM_ok fun i _ => ?_
      obtain ⟨hash, hget, -⟩ := slot_hash hne i
      rw [List.length_map] at hget
      rw [List.length_map, List.length_map, List.getElem?_map, hget]
      simp only [text, hget]
      rfl
    rw [hashVideoWithMetadata, hframes]
    show (do
      failIf (frames.length = 0) ["No frames extracted from video"]
      _) = _
    rw [failIf_neg hpos, ok_bind, hstrings, ok_bind]
    exact hplaces ▸ rfl

/-- **Ten hashes in zeros and ones.** The text has the length that is expected, its
blocks are the hashes of the frames in turn, and equal texts are equal hashes. -/
theorem hash_assembly (h : frames ≠ [])
    (hframes : im.extractFramesWithMetadata .new path = .ok (frames, metadata)) :
    ∃ result, hashVideoWithMetadata im .new path = .ok result ∧
      result.hash.length = expectedBinaryHashLen ∧
      (∀ c ∈ result.hash.toList, c = '0' ∨ c = '1') ∧
      (∀ i < 10, ∃ frame, frames[i % frames.length]? = some frame ∧
        (result.hash.toList.drop (i * 64)).take 64 =
          binaryForm (im.hashImage 8 frame).bytes) ∧
      ∀ path' frames' metadata' result', frames' ≠ [] →
        im.extractFramesWithMetadata .new path' = .ok (frames', metadata') →
        hashVideoWithMetadata im .new path' = .ok result' →
        (result.hash = result'.hash ↔
          cyclicExtension (frames.map (im.hashImage 8)) =
            cyclicExtension (frames'.map (im.hashImage 8))) := by
  have hne : frames.map (im.hashImage 8) ≠ [] := fun h0 => h (List.map_eq_nil_iff.mp h0)
  obtain ⟨hash, hchars, hrun⟩ := hashVideoWithMetadata_ok h hframes
  refine ⟨_, hrun, ?_, ?_, ?_, ?_⟩
  · show hash.length = 640
    rw [← String.length_toList, hchars, length_joined (uniform_slot hne)]
  · intro c hc
    exact mem_joined_slot hne (hchars ▸ hc)
  · intro i hi
    have hlt : i % frames.length < frames.length := Nat.mod_lt i (List.length_pos_iff.mpr h)
    obtain ⟨found, hget, hslot⟩ := slot_hash hne i
    rw [List.length_map, List.getElem?_map, List.getElem?_eq_getElem hlt] at hget
    refine ⟨frames[i % frames.length], List.getElem?_eq_getElem hlt, ?_⟩
    rw [hchars, drop_joined (uniform_slot hne) hi, hslot, ← Option.some.inj hget]
  · intro path' frames' metadata' result' h' hframes' hrun'
    have hne' : frames'.map (im.hashImage 8) ≠ [] :=
      fun h0 => h' (List.map_eq_nil_iff.mp h0)
    obtain ⟨hash', hchars', hrun''⟩ := hashVideoWithMetadata_ok h' hframes'
    cases hrun''.symm.trans hrun'
    rw [← joined_slot_eq_iff hne hne', ← hchars, ← hchars', String.toList_inj]

end Assembly

def sampleHash : ImageHash 8 8 := ⟨[1, 2, 3, 4, 5, 6, 7, 8], rfl⟩

/-- Videos of one frame and of the frame twice, the images being their hashes. -/
def twoVideos : Imaging (ImageHash 8 8) Unit where
  extractFramesWithMetadata _ path :=
    if path = "once" then .ok ([sampleHash], ()) else .ok ([sampleHash, sampleHash], ())
  hashImage hashSize img :=
    if h : hashSize = 8 then h ▸ img
    else ⟨List.replicate ((hashSize * hashSize + 7) / 8) 0, List.length_replicate⟩

theorem hash_assembly_twoVideos :
    ∃ result result', hashVideoWithMetadata twoVideos .new "once" = .ok result ∧
      hashVideoWithMetadata twoVideos .new "twice" = .ok result' ∧
      result.hash.length = expectedBinaryHashLen ∧ result.hash = result'.hash := by
  have honce : twoVideos.extractFramesWithMetadata .new "once" = .ok ([sampleHash], ()) := rfl
  have htwice : twoVideos.extractFramesWithMetadata .new "twice" =
      .ok ([sampleHash, sampleHash], ()) := rfl
  obtain ⟨result', hresult', -⟩ := hash_assembly (List.cons_ne_nil _ _) htwice
  obtain ⟨result, hresult, hlength, -, -, hsame⟩ :=
    hash_assembly (List.cons_ne_nil _ _) honce
  refine ⟨result, result', hresult, hresult', hlength, ?_⟩
  exact (hsame _ _ _ _ (List.cons_ne_nil _ _) htwice hresult').mpr rfl

end VideoStorage.Media
