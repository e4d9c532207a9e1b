import VideoStorage.Foundation.Program
import VideoStorage.Media.MoovPosition

/-!
# A front index for every video

`ensure_faststart_mp4` leaves a video alone whose `moov` comes before its `mdat` and
has `ffmpeg` write another one where it does not. What comes out has been read by
the parser of top-level boxes, which no data makes panic.
-/

namespace VideoStorage.Media

open Foundation Prog

variable {t : Target}

/-! ## The remuxing -/

inductive FaststartOutcome
  | alreadyFaststart
  | remuxed
  deriving DecidableEq, Repr

structure FaststartResult (t : Target) where
  data : Slice t
  outcome : FaststartOutcome

/-- What a command leaves, its error output read with `from_utf8_lossy`. -/
structure CommandOutput where
  success : Bool
  stderr : String
  deriving DecidableEq, Repr

inductive FaststartCall (t : Target)
  | tempdir
  | write (path : String) (data : Slice t)
  /-- `spawn` and `wait_with_output`. -/
  | run (program : String) (args : List String)
  | read (path : String)
  /-- The directory goes with its `TempDir`. -/
  | dropTempDir (path : String)

@[reducible] def FaststartCall.Reply : FaststartCall t → Type
  | .tempdir => Except IoError String
  | .write _ _ => Except IoError Unit
  | .run _ _ => Except IoError CommandOutput
  | .read _ => Except IoError (Slice t)
  | .dropTempDir _ => Unit

abbrev Faststart (t : Target) : Type → Type :=
  Prog (FaststartCall t) FaststartCall.Reply

def runFfmpegFaststart (input output : String) : Faststart t (Except IoError Unit) := do
  match ← issue (FaststartCall.run "ffmpeg" ["-y", "-v", "error", "-i", input, "-c",
      "copy", "-movflags", "+faststart", output]) with
  | .error e => pure (.error e)
  | .ok outputProc =>
      if outputProc.success then pure (.ok ())
      else pure (.error ⟨"Other", "ffmpeg faststart remux failed: " ++ outputProc.stderr⟩)

/-- The last look at what `ffmpeg` wrote. -/
def remuxed (outputData : Slice t) : Except (Stop IoError) (FaststartResult t) := do
  match ← mp4MoovPosition outputData with
  | .beforeMdat => .ok ⟨outputData, .remuxed⟩
  | .afterMdat =>
      .error (.error (invalidData "ffmpeg faststart output still has moov after mdat"))

def remuxIn (tempDir : String) (videoData : Slice t) :
    Faststart t (Except (Stop IoError) (FaststartResult t)) := do
  match ← issue (FaststartCall.write (tempDir ++ "/input.mp4") videoData) with
  | .error e => pure (.error (.error e))
  | .ok () => do
      match ← runFfmpegFaststart (tempDir ++ "/input.mp4") (tempDir ++ "/output.mp4") with
      | .error e => pure (.error (.error e))
      | .ok () => do
          match ← issue (FaststartCall.read (tempDir ++ "/output.mp4")) with
          | .error e => pure (.error (.error e))
          | .ok outputData => pure (remuxed outputData)

def remuxFaststart (videoData : Slice t) :
    Faststart t (Except (Stop IoError) (FaststartResult t)) := do
  match ← issue FaststartCall.tempdir with
  | .error e => pure (.error (.error e))
  | .ok tempDir => do
      let result ← remuxIn tempDir videoData
      let () ← issue (FaststartCall.dropTempDir tempDir)
      pure result

def ensureFaststartMp4 (videoData : Slice t) :
    Faststart t (Except (Stop IoError) (FaststartResult t)) :=
  match caught (mp4MoovPosition videoData) with
  | .ok (.ok .beforeMdat) => pure (.ok ⟨videoData, .alreadyFaststart⟩)
  | .ok _ => remuxFaststart videoData
  | .error stop => pure (.error stop)

/-! ## What comes out -/

section Outcome

variable {videoData : Slice t} {result : FaststartResult t} {tempDir : String}
  {tr : List (Exchange (FaststartCall t) FaststartCall.Reply)}

theorem remuxed_beforeMdat {outputData : Slice t} (h : remuxed outputData = .ok result) :
    mp4MoovPosition result.data = .ok .beforeMdat := by
  simp only [remuxed, bind_eq_ok] at h
  obtain ⟨p, hp, h⟩ := h
  cases p with
  | beforeMdat =>
      cases h
      exact hp
  | afterMdat => cases h

theorem remuxIn_beforeMdat (h : Runs (remuxIn tempDir videoData) tr (.ok result)) :
    mp4MoovPosition result.data = .ok .beforeMdat := by
  simp only [remuxIn, bind_eq, issue_bind, runs_call] at h
  obtain ⟨wrote, tr, -, h⟩ := h
  cases wrote with
  | error e => exact absurd h not_runs_error
  | ok _ =>
      obtain ⟨ran, tr₁, tr₂, -, -, h⟩ := runs_bind.mp h
      cases ran with
      | error e => exact absurd h not_runs_error
      | ok _ =>
          obtain ⟨read, tr₃, -, h⟩ := runs_call.mp h
          cases read with
          | error e => exact absurd h not_runs_error
          | ok outputData => exact remuxed_beforeMdat (runs_ret.mp h).2.symm

theorem remuxFaststart_beforeMdat (h : Runs (remuxFaststart videoData) tr (.ok result)) :
    mp4MoovPosition result.data = .ok .beforeMdat := by
  simp only [remuxFaststart, bind_eq, issue_bind, runs_call] at h
  obtain ⟨made, tr, -, h⟩ := h
  cases made with
  | error e => exact absurd h not_runs_error
  | ok tempDir =>
      obtain ⟨inner, tr₁, tr₂, -, hinner, h⟩ := runs_bind.mp h
      obtain ⟨_, tr₃, -, h⟩ := runs_call.mp h
      obtain rfl := (runs_ret.mp h).2
      exact remuxIn_beforeMdat hinner

/-- **Every result has a front index.** -/
theorem ensureFaststartMp4_beforeMdat
    (h : Runs (ensureFaststartMp4 videoData) tr (.ok result)) :
    mp4MoovPosition result.data = .ok .beforeMdat := by
  unfold ensureFaststartMp4 at h
  split at h
  · rename_i hcaught
    cases (runs_ret.mp h).2
    exact caught_eq_ok.mp hcaught
  · exact remuxFaststart_beforeMdat h
  · exact absurd h not_runs_error

end Outcome

/-! ## The contract -/

section Contract

variable {boxType : List UInt8} {boxes : List TopBox}
  {answer : Except (Stop IoError) MoovPosition}

theorem occurs_of_firstStart {start : ℕ} (h : firstStart boxType boxes = some start) :
    Occurs boxType boxes := by
  by_contra hocc
  rw [firstStart, if_neg hocc] at h
  cases h

theorem Answer.of_starts {m d : ℕ} (h : Answer boxes answer)
    (hm : firstStart moov boxes = some m) (hd : firstStart mdat boxes = some d) :
    (m < d ∧ answer = .ok .beforeMdat) ∨ (d < m ∧ answer = .ok .afterMdat) := by
  cases h with
  | before hmoov hmdat hlt =>
      obtain rfl := Option.some.inj (hmoov.symm.trans hm)
      obtain rfl := Option.some.inj (hmdat.symm.trans hd)
      exact .inl ⟨hlt, rfl⟩
  | after hmoov hmdat hlt =>
      obtain rfl := Option.some.inj (hmoov.symm.trans hm)
      obtain rfl := Option.some.inj (hmdat.symm.trans hd)
      exact .inr ⟨hlt, rfl⟩
  | missing hmissing e =>
      exact absurd ⟨occurs_of_firstStart hm, occurs_of_firstStart hd⟩ hmissing

theorem Answer.beforeMdat_iff (h : Answer boxes answer) : answer = .ok .beforeMdat ↔
    ∃ m d, firstStart moov boxes = some m ∧ firstStart mdat boxes = some d ∧ m < d := by
  constructor
  · rintro rfl
    cases h with
    | before hmoov hmdat hlt => exact ⟨_, _, hmoov, hmdat, hlt⟩
  · rintro ⟨m, d, hm, hd, hlt⟩
    rcases h.of_starts hm hd with ⟨-, hanswer⟩ | ⟨hgt, -⟩
    · exact hanswer
    · omega

theorem Answer.afterMdat_iff (h : Answer boxes answer) : answer = .ok .afterMdat ↔
    ∃ m d, firstStart moov boxes = some m ∧ firstStart mdat boxes = some d ∧ d < m := by
  constructor
  · rintro rfl
    cases h with
    | after hmoov hmdat hlt => exact ⟨_, _, hmoov, hmdat, hlt⟩
  · rintro ⟨m, d, hm, hd, hlt⟩
    rcases h.of_starts hm hd with ⟨hgt, -⟩ | ⟨-, hanswer⟩
    · omega
    · exact hanswer

theorem Answer.error_iff (h : Answer boxes answer) :
    (∃ e, answer = .error (.error e)) ↔ ¬ Occurs moov boxes ∨ ¬ Occurs mdat boxes := by
  rw [← not_and_or]
  cases h with
  | before hmoov hmdat _ =>
      have hboth := And.intro (occurs_of_firstStart hmoov) (occurs_of_firstStart hmdat)
      simp [hboth]
  | after hmoov hmdat _ =>
      have hboth := And.intro (occurs_of_firstStart hmoov) (occurs_of_firstStart hmdat)
      simp [hboth]
  | missing hmissing e => simp [hmissing]

theorem Answer.returns (h : Answer boxes answer) : ∃ r, Returns answer r := by
  cases h with
  | before _ _ _ => exact ⟨_, returns_ok.mpr rfl⟩
  | after _ _ _ => exact ⟨_, returns_ok.mpr rfl⟩
  | missing _ e => exact ⟨_, returns_error.mpr rfl⟩

/-- **The top-level boxes are read right.** The parser comes back on all data; on a
sequence of boxes it tells which type starts first; what begins no box before both
types have been seen is an error; and what `ensure_faststart_mp4` gives has its
index in front. -/
theorem faststart_contract (data : Slice t) :
    (∃ r, Returns (mp4MoovPosition data) r) ∧
    (∀ boxes, Sequence data.bytes boxes [] →
      (mp4MoovPosition data = .ok .beforeMdat ↔ ∃ m d, firstStart moov boxes = some m ∧
        firstStart mdat boxes = some d ∧ m < d) ∧
      (mp4MoovPosition data = .ok .afterMdat ↔ ∃ m d, firstStart moov boxes = some m ∧
        firstStart mdat boxes = some d ∧ d < m) ∧
      ((∃ e, mp4MoovPosition data = .error (.error e)) ↔
        ¬ Occurs moov boxes ∨ ¬ Occurs mdat boxes)) ∧
    (∀ boxes rest, Sequence data.bytes boxes rest → Stuck rest →
      ¬ (Occurs moov boxes ∧ Occurs mdat boxes) →
      ∃ e, mp4MoovPosition data = .error (.error e)) ∧
    ∀ tr result, Runs (ensureFaststartMp4 data) tr (.ok result) →
      mp4MoovPosition result.data = .ok .beforeMdat := by
  refine ⟨?_, ?_, ?_, fun tr result h => ensureFaststartMp4_beforeMdat h⟩
  · obtain ⟨boxes, rest, hseq, hrest⟩ := exists_sequence data.bytes
    exact (moovPosition_answer hseq hrest).returns
  · intro boxes hseq
    have hanswer := moovPosition_answer hseq stuck_nil
    exact ⟨hanswer.beforeMdat_iff, hanswer.afterMdat_iff, hanswer.error_iff⟩
  · intro boxes rest hseq hrest hmissing
    exact (moovPosition_answer hseq hrest).error_iff.mpr (not_and_or.mp hmissing)

end Contract

/-- A box without a payload, as the tests build them. -/
def fakeBox (boxType : List UInt8) (h : boxType.length = 4) : TopBox :=
  ⟨.compact, boxType, [], h, by decide⟩

def frontIndex : Slice .bits64 where
  bytes := [0, 0, 0, 8, 0x66, 0x74, 0x79, 0x70, 0, 0, 0, 8, 0x6d, 0x6f, 0x6f, 0x76,
    0, 0, 0, 8, 0x6d, 0x64, 0x61, 0x74]
  fits := by decide

/-- The length of the second box is `u64::MAX`. -/
def overflowing : Slice .bits64 where
  bytes := [0, 0, 0, 8, 0x66, 0x74, 0x79, 0x70, 0, 0, 0, 1, 0x66, 0x72, 0x65, 0x65,
    0xff, 0xff, 0xff, 0xff, 0xff, 0xff, 0xff, 0xff]
  fits := by decide

theorem frontIndex_sequence : Sequence frontIndex.bytes
    [fakeBox [0x66, 0x74, 0x79, 0x70] rfl, fakeBox moov rfl, fakeBox mdat rfl] [] :=
  .cons ⟨rfl, nofun⟩ (.cons ⟨rfl, nofun⟩ (.cons ⟨rfl, nofun⟩ (.nil [])))

theorem overflowing_sequence : Sequence overflowing.bytes
    [fakeBox [0x66, 0x74, 0x79, 0x70] rfl] (overflowing.bytes.drop 8) :=
  .cons ⟨rfl, nofun⟩ (.nil _)

theorem overflowing_stuck : Stuck (overflowing.bytes.drop 8) := by
  rintro ⟨b, rest, h⟩
  have herr : nextBox overflowing 8 =
      .error (.error (invalidData "MP4 box offset overflow")) := by rfl
  cases herr.symm.trans (nextBox_begins h)

theorem faststart_contract_fixtures :
    mp4MoovPosition frontIndex = .ok .beforeMdat ∧
      (∃ e, mp4MoovPosition overflowing = .error (.error e)) ∧
      ∀ tr result, Runs (ensureFaststartMp4 frontIndex) tr (.ok result) →
        mp4MoovPosition result.data = .ok .beforeMdat := by
  refine ⟨?_, ?_, (faststart_contract frontIndex).2.2.2⟩
  · exact ((faststart_contract frontIndex).2.1 _ frontIndex_sequence).1.mpr
      ⟨8, 16, rfl, rfl, by decide⟩
  · exact (faststart_contract overflowing).2.2.1 _ _ overflowing_sequence
      overflowing_stuck (by decide)

end VideoStorage.Media
