import Mathlib.Data.List.TakeDrop

/-!
# A file with writes in the background

An asynchronous file that writes as `tokio::fs::File` does: a write hands a buffer to
a background operation and returns, and how that operation ended is only found out by
the next operation on the file. `Holds` is what one may say of such a file while it is
written to from its beginning: all but the last buffer is there, and the last one may
not be.
-/

namespace VideoStorage.Foundation

structure IoError where
  kind : String
  text : String
  deriving DecidableEq, Repr

/-- An error of which the kind alone was kept. -/
def IoError.ofKind (kind : String) : IoError := ⟨kind, kind⟩

/-- How a write in the background ends. -/
inductive WriteOutcome
  | done
  | failed (written : ℕ) (e : IoError)
  deriving DecidableEq, Repr

/-- A write whose end nobody has asked for yet. -/
structure Inflight where
  buf : List UInt8
  outcome : WriteOutcome
  deriving DecidableEq, Repr

structure AsyncFile where
  content : List UInt8 := []
  pos : ℕ := 0
  inflight : Option Inflight := none
  lastWriteErr : Option String := none
  /-- How many writes have been begun. -/
  started : ℕ := 0
  deriving DecidableEq, Repr

/-- The largest buffer that one background operation takes. -/
def maxBufSize : ℕ := 2 * 1024 * 1024

/-- `buf` in the place of what is at `pos`; a hole reads as zeros. -/
def writeAt (content : List UInt8) (pos : ℕ) (buf : List UInt8) : List UInt8 :=
  content.take pos ++ List.replicate (pos - content.length) 0 ++ buf ++
    content.drop (pos + buf.length)

@[simp] theorem writeAt_end (content buf : List UInt8) :
    writeAt content content.length buf = content ++ buf := by
  simp [writeAt]

namespace Inflight

/-- The bytes that are in the file when the write has ended. -/
def written (w : Inflight) : List UInt8 :=
  match w.outcome with
  | .done => w.buf
  | .failed n _ => w.buf.take n

def error (w : Inflight) : Option IoError :=
  match w.outcome with
  | .done => none
  | .failed _ e => some e

theorem error_eq_none {w : Inflight} : w.error = none ↔ w.outcome = .done := by
  unfold error
  cases w.outcome <;> simp

theorem written_of_done {w : Inflight} (h : w.outcome = .done) :
    w.written = w.buf := by
  simp [written, h]

end Inflight

namespace AsyncFile

/-- Wait for the write that is under way. -/
def complete (f : AsyncFile) : Option IoError × AsyncFile :=
  match f.inflight with
  | none => (none, f)
  | some w => (w.error, { f with
      content := writeAt f.content f.pos w.written
      pos := f.pos + w.written.length
      inflight := none })

/-- The same, with an error kept for later. -/
def settle (f : AsyncFile) : AsyncFile :=
  match f.complete with
  | (none, f) => f
  | (some e, f) => { f with lastWriteErr := some e.kind }

/-- Hand over as much of `src` as fits in a buffer. An error is that of a write
before. -/
def write (outcomes : ℕ → WriteOutcome) (src : List UInt8) (f : AsyncFile) :
    Except IoError ℕ × AsyncFile :=
  match f.lastWriteErr with
  | some kind => (.error (.ofKind kind), { f with lastWriteErr := none })
  | none =>
      match f.complete with
      | (some e, f) => (.error e, f)
      | (none, f) => (.ok (min src.length maxBufSize), { f with
          inflight := some ⟨src.take maxBufSize, outcomes f.started⟩
          started := f.started + 1 })

/-- One write after the other until nothing is left, `fuel` at most. -/
def writeLoop (outcomes : ℕ → WriteOutcome) :
    ℕ → List UInt8 → AsyncFile → Except IoError Unit × AsyncFile
  | 0, _, f => (.ok (), f)
  | fuel + 1, src, f =>
      if src = [] then (.ok (), f)
      else
        match f.write outcomes src with
        | (.error e, f) => (.error e, f)
        | (.ok n, f) => writeLoop outcomes fuel (src.drop n) f

/-- Every write takes a byte at least. -/
def writeAll (outcomes : ℕ → WriteOutcome) (src : List UInt8) (f : AsyncFile) :
    Except IoError Unit × AsyncFile :=
  writeLoop outcomes src.length src f

/-- `answer` is what the operating system says. -/
def seek (answer : Except IoError Unit) (pos : ℕ) (f : AsyncFile) :
    Except IoError Unit × AsyncFile :=
  match answer with
  | .ok () => (.ok (), { f.settle with pos := pos })
  | .error e => (.error e, f.settle)

def setLen (answer : Except IoError Unit) (size : ℕ) (f : AsyncFile) :
    Except IoError Unit × AsyncFile :=
  match answer with
  | .ok () => (.ok (), { f.settle with
      content := f.settle.content.take size ++
        List.replicate (size - f.settle.content.length) 0 })
  | .error e => (.error e, f.settle)

/-- What another handle reads when `landed` bytes of the write under way are there. -/
def seen (landed : ℕ) (f : AsyncFile) : List UInt8 :=
  match f.inflight with
  | none => f.content
  | some w => writeAt f.content f.pos (w.written.take landed)

/-! ## Writing from the beginning -/

/-- Nothing is in the file and nothing is under way. -/
structure Clean (f : AsyncFile) : Prop where
  content : f.content = []
  pos : f.pos = 0
  inflight : f.inflight = none

/-- Since its write number `first`, `bytes` have been handed to a clean file. All
but the last write is known to have ended well. -/
inductive Holds (outcomes : ℕ → WriteOutcome) (first : ℕ) (bytes : List UInt8)
    (f : AsyncFile) : Prop
  | clean (h : f.Clean) (hbytes : bytes = []) (hfirst : f.started = first)
  | pending (w : Inflight) (h : f.inflight = some w)
      (hbytes : bytes = f.content ++ w.buf) (hbuf : w.buf ≠ [])
      (hpos : f.pos = f.content.length) (hstarted : first < f.started)
      (houtcome : w.outcome = outcomes (f.started - 1))
      (hdone : ∀ j, first ≤ j → j + 1 < f.started → outcomes j = .done)

variable {outcomes : ℕ → WriteOutcome} {first n fuel landed : ℕ}
  {bytes src : List UInt8} {f f' : AsyncFile}

theorem complete_inflight : f.complete.2.inflight = none := by
  unfold complete
  cases h : f.inflight with
  | none => exact h
  | some w => rfl

theorem settle_of_idle (h : f.inflight = none) : f.settle = f := by
  simp [settle, complete, h]

theorem complete_of_pending {w : Inflight} (h : f.inflight = some w)
    (hdone : w.outcome = .done) (hpos : f.pos = f.content.length) :
    f.complete = (none, { f with
      content := f.content ++ w.buf
      pos := (f.content ++ w.buf).length
      inflight := none }) := by
  simp [complete, h, hpos, Inflight.written_of_done hdone,
    Inflight.error_eq_none.mpr hdone]

theorem settle_inflight : f.settle.inflight = none := by
  have hidle := complete_inflight (f := f)
  unfold settle
  split
  · rename_i h
    rwa [h] at hidle
  · rename_i h
    rwa [h] at hidle

/-- Back to the beginning and cut off: nothing of what was written is left. -/
theorem seek_setLen_clean {answer answer' : Except IoError Unit}
    (hseek : f.seek answer 0 = (.ok (), f'))
    (hset : (f'.setLen answer' 0).1 = .ok ()) :
    (f'.setLen answer' 0).2.Clean := by
  unfold seek at hseek
  split at hseek
  · cases hseek
    unfold setLen at hset ⊢
    split at hset
    · rw [settle_of_idle (f := { f.settle with pos := 0 }) settle_inflight]
      exact ⟨by simp, rfl, settle_inflight⟩
    · cases hset
  · cases hseek

/-- **One write** puts the buffer before in the file and hands over another. -/
theorem Holds.write (h : Holds outcomes first bytes f) (hsrc : src ≠ [])
    (hwrite : f.write outcomes src = (.ok n, f')) :
    0 < n ∧ Holds outcomes first (bytes ++ src.take n) f' := by
  have hbuf : src.take maxBufSize ≠ [] := by
    simp [hsrc, maxBufSize]
  have htake : src.take (min src.length maxBufSize) = src.take maxBufSize := by
    rw [List.take_eq_take_iff]
    omega
  have hpos : 0 < min src.length maxBufSize :=
    Nat.lt_min.mpr ⟨List.length_pos_iff.mpr hsrc, by decide⟩
  unfold AsyncFile.write at hwrite
  split at hwrite
  · cases hwrite
  · split at hwrite
    · cases hwrite
    · rename_i g hcomplete
      cases hwrite
      refine ⟨hpos, ?_⟩
      rw [htake]
      cases h with
      | clean hclean hbytes hfirst =>
          obtain rfl : g = f := by
            simpa [complete, hclean.inflight, eq_comm] using hcomplete
          refine .pending _ rfl ?_ hbuf ?_ ?_ rfl ?_
          · simp [hbytes, hclean.content]
          · simp [hclean.content, hclean.pos]
          · simp [hfirst]
          · intro j hj hlt
            dsimp only at hlt
            omega
      | pending w hw hbytes hne hend hstarted houtcome hdone =>
          -- the write before has ended well, or there would be an error
          have hwdone : w.outcome = .done := by
            rw [← Inflight.error_eq_none]
            simpa [complete, hw] using congrArg Prod.fst hcomplete
          rw [complete_of_pending hw hwdone hend] at hcomplete
          cases hcomplete
          refine .pending _ rfl ?_ hbuf rfl ?_ rfl ?_
          · rw [hbytes]
          · exact Nat.lt_succ_of_lt hstarted
          · intro j hj hlt
            by_cases hlast : j + 1 < f.started
            · exact hdone j hj hlast
            · obtain rfl : j = f.started - 1 := by
                dsimp only at hlt
                omega
              exact houtcome.symm.trans hwdone

theorem Holds.writeLoop (h : Holds outcomes first bytes f) (hfuel : src.length ≤ fuel)
    (hloop : writeLoop outcomes fuel src f = (.ok (), f')) :
    Holds outcomes first (bytes ++ src) f' := by
  induction fuel generalizing bytes src f with
  | zero =>
      obtain rfl := List.eq_nil_of_length_eq_zero (Nat.le_zero.mp hfuel)
      cases hloop
      simpa using h
  | succ fuel ih =>
      rw [AsyncFile.writeLoop] at hloop
      split_ifs at hloop with hsrc
      · cases hloop
        simpa [hsrc] using h
      · split at hloop
        · cases hloop
        · rename_i n g hwrite
          obtain ⟨hpos, hg⟩ := h.write hsrc hwrite
          have hrest := ih hg (by rw [List.length_drop]; omega) hloop
          rwa [List.append_assoc, List.take_append_drop] at hrest

/-- **A chunk is written** piece by piece. -/
theorem Holds.writeAll (h : Holds outcomes first bytes f)
    (hall : f.writeAll outcomes src = (.ok (), f')) :
    Holds outcomes first (bytes ++ src) f' :=
  h.writeLoop (Nat.le_refl _) hall

/-- What another handle reads is all of it exactly if the write under way has ended
well and is there. -/
theorem Holds.seen_iff (h : Holds outcomes first bytes f) :
    (f.seen landed = bytes ∧
        ∀ j, first ≤ j → j < f.started → outcomes j = .done) ↔
      ∀ w ∈ f.inflight, w.outcome = .done ∧ w.buf.length ≤ landed := by
  cases h with
  | clean hclean hbytes hfirst =>
      simp only [seen, hclean.inflight, hclean.content, hbytes]
      simp
      omega
  | pending w hw hbytes hne hend hstarted houtcome hdone =>
      simp only [seen, hw, hend, writeAt_end, hbytes, List.append_cancel_left_eq,
        Option.mem_def, Option.some.injEq, forall_eq']
      constructor
      · rintro ⟨hseen, hall⟩
        have hwdone : w.outcome = .done := by
          rw [houtcome]
          exact hall _ (by omega) (by omega)
        rw [Inflight.written_of_done hwdone, List.take_eq_self_iff] at hseen
        exact ⟨hwdone, hseen⟩
      · rintro ⟨hwdone, hlanded⟩
        constructor
        · rw [Inflight.written_of_done hwdone]
          exact List.take_of_length_le hlanded
        · intro j hj hlt
          by_cases hlast : j + 1 < f.started
          · exact hdone j hj hlast
          · obtain rfl : j = f.started - 1 := by omega
            exact houtcome.symm.trans hwdone

/-- A write is under way unless there was nothing to write. -/
theorem Holds.inflight_iff (h : Holds outcomes first bytes f) :
    f.inflight = none ↔ bytes = [] := by
  cases h with
  | clean hclean hbytes _ => simp [hclean.inflight, hbytes]
  | pending w hw hbytes hne _ _ _ _ => simp [hw, hbytes, hne]

end AsyncFile

end VideoStorage.Foundation
