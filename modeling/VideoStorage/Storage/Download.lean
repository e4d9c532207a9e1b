import VideoStorage.Foundation.AsyncFile
import VideoStorage.Storage.Objects

/-!
# Downloads to a file

`download_to_file`: attempts that stream an object into a file, each but the first
after the file was rewound and cut off. What earlier attempts left never shows; but
the call returns with the last buffer still on its way to the file
(`download_intact_iff`), and its callers read the file by its path at once.
-/

namespace VideoStorage.Storage.Download

open Foundation
open Videogen (Bytes)

/-- How everything that the download asks for turns out. -/
structure DownloadWorld where
  /-- The response to each attempt, and its body chunk by chunk. -/
  getObject : String → ℕ → Except String (List (Except String Bytes))
  seek : ℕ → Except IoError Unit
  setLen : ℕ → Except IoError Unit
  writes : ℕ → WriteOutcome

def maxRetries : ℕ := 3

structure Downloaded where
  result : Except String Unit
  file : AsyncFile
  /-- How many writes had been begun when the last attempt started. -/
  before : ℕ

variable (world : DownloadWorld) (key : String)

def writeBody : List (Except String Bytes) → AsyncFile →
    Except String Unit × AsyncFile
  | [], f => (.ok (), f)
  | .error e :: _, f => (.error e, f)
  | .ok bytes :: rest, f =>
      match f.writeAll world.writes bytes with
      | (.error e, f) => (.error e.text, f)
      | (.ok (), f) => writeBody rest f

def attemptDownload (attempt : ℕ) (f : AsyncFile) : Except String Unit × AsyncFile :=
  match world.getObject key attempt with
  | .error e => (.error e, f)
  | .ok body => writeBody world body f

/-- What an attempt does with the file first; the first one takes it as it is. -/
def rewind (attempt : ℕ) (f : AsyncFile) : Except IoError Unit × AsyncFile :=
  if 0 < attempt then
    match f.seek (world.seek attempt) 0 with
    | (.error e, f) => (.error e, f)
    | (.ok (), f) => f.setLen (world.setLen attempt) 0
  else (.ok (), f)

/-- `for attempt in …`, with `left` attempts to come. -/
def attemptsFrom : ℕ → ℕ → AsyncFile → String → Downloaded
  | 0, _, f, lastErr => ⟨.error lastErr, f, f.started⟩
  | left + 1, attempt, f, _ =>
      match rewind world attempt f with
      | (.error e, f) => ⟨.error e.text, f, f.started⟩
      | (.ok (), f) =>
          match attemptDownload world key attempt f with
          | (.ok (), f') => ⟨.ok (), f', f.started⟩
          | (.error e, f') =>
              if attempt = maxRetries then ⟨.error e, f', f.started⟩
              else attemptsFrom left (attempt + 1) f' e

def downloadToFile (f : AsyncFile) : Downloaded :=
  attemptsFrom world key (maxRetries + 1) 0 f ""

/-! ## What an attempt leaves -/

variable {world key} {f f' : AsyncFile} {body : List (Except String Bytes)}
  {first left attempt : ℕ} {lastErr : String} {bytes object : Bytes}

theorem writeBody_holds (h : f.Holds world.writes first bytes)
    (hok : writeBody world body f = (.ok (), f')) :
    ∃ chunks : List Bytes, body = chunks.map .ok ∧
      f'.Holds world.writes first (bytes ++ chunks.flatten) := by
  induction body generalizing bytes f with
  | nil =>
      cases hok
      exact ⟨[], rfl, by simpa using h⟩
  | cons item rest ih =>
      cases item with
      | error e => cases hok
      | ok chunk =>
          rw [writeBody] at hok
          split at hok
          · cases hok
          · rename_i g hwrite
            obtain ⟨chunks, rfl, hrest⟩ := ih (h.writeAll hwrite) hok
            exact ⟨chunk :: chunks, rfl, by simpa using hrest⟩

theorem rewind_clean (hattempt : attempt = 0 → f.Clean)
    (hok : rewind world attempt f = (.ok (), f')) : f'.Clean := by
  unfold rewind at hok
  split_ifs at hok with hpos
  · split at hok
    · cases hok
    · rename_i g hseek
      have hclean := @AsyncFile.seek_setLen_clean _ _ _ (world.setLen attempt) hseek
        (by rw [hok])
      rwa [hok] at hclean
  · cases hok
    exact hattempt (by omega)

/-- **The attempt that succeeds** found a clean file, whatever was tried before. -/
theorem attemptsFrom_ok (hattempt : attempt = 0 → f.Clean)
    (hok : (attemptsFrom world key left attempt f lastErr).result = .ok ()) :
    ∃ i g, g.Clean ∧
      g.started = (attemptsFrom world key left attempt f lastErr).before ∧
      attemptDownload world key i g
        = (.ok (), (attemptsFrom world key left attempt f lastErr).file) := by
  induction left generalizing attempt f lastErr with
  | zero => cases hok
  | succ left ih =>
      rcases hrewind : rewind world attempt f with ⟨e | ⟨⟩, g⟩
      · simp only [attemptsFrom, hrewind] at hok
        cases hok
      · have hclean := rewind_clean hattempt hrewind
        rcases hdone : attemptDownload world key attempt g with ⟨e | ⟨⟩, f'⟩
        · simp only [attemptsFrom, hrewind, hdone] at hok ⊢
          split_ifs at hok ⊢ with hlast
          exact ih (fun h => by omega) hok
        · simp only [attemptsFrom, hrewind, hdone]
          exact ⟨attempt, g, hclean, rfl, hdone⟩

/-! ## What the caller finds -/

/-- The body of a response that does not break off is the object, in chunks. -/
def Serves (world : DownloadWorld) (key : String) (object : Bytes) : Prop :=
  ∀ attempt (chunks : List Bytes),
    world.getObject key attempt = .ok (chunks.map .ok) → chunks.flatten = object

/-- The file, looked at from elsewhere, is the object, and no write of the last
attempt failed. -/
structure Intact (world : DownloadWorld) (object : Bytes) (landed : ℕ)
    (d : Downloaded) : Prop where
  seen : d.file.seen landed = object
  wrote : ∀ j, d.before ≤ j → j < d.file.started → world.writes j = .done

/-- The write under way, if there is one, has ended well, and all its bytes are
among the `landed` that are in the file. -/
def Settled (landed : ℕ) (f : AsyncFile) : Prop :=
  ∀ w ∈ f.inflight, w.outcome = .done ∧ w.buf.length ≤ landed

theorem download_holds (hserves : Serves world key object)
    (hok : (downloadToFile world key {}).result = .ok ()) :
    (downloadToFile world key {}).file.Holds world.writes
      (downloadToFile world key {}).before object := by
  unfold downloadToFile at hok ⊢
  obtain ⟨i, g, hclean, hbefore, hdone⟩ :=
    attemptsFrom_ok (fun _ => ⟨rfl, rfl, rfl⟩) hok
  unfold attemptDownload at hdone
  split at hdone
  · cases hdone
  · rename_i body hbody
    obtain ⟨chunks, rfl, hholds⟩ := writeBody_holds (.clean hclean rfl hbefore) hdone
    rwa [List.nil_append, hserves i chunks hbody] at hholds

/-- **When a download is intact.** Where it says that it is done, the file is the
object for those who look at it from elsewhere, and nothing failed to be written,
exactly if the write that it left under way ends well before they look; it leaves
one unless the object is empty. -/
theorem download_intact_iff {landed : ℕ} (hserves : Serves world key object)
    (hok : (downloadToFile world key {}).result = .ok ()) :
    (Intact world object landed (downloadToFile world key {}) ↔
        Settled landed (downloadToFile world key {}).file) ∧
      ((downloadToFile world key {}).file.inflight = none ↔ object = []) := by
  have hholds := download_holds hserves hok
  constructor
  · rw [Settled, ← hholds.seen_iff]
    constructor
    · rintro ⟨hseen, hwrote⟩
      exact ⟨hseen, hwrote⟩
    · rintro ⟨hseen, hwrote⟩
      exact ⟨hseen, hwrote⟩
  · exact hholds.inflight_iff

/-! ## A download of two bytes -/

/-- The first body breaks off behind a chunk that the disk took in part; the
second comes in two chunks. -/
def brokenOff : DownloadWorld where
  getObject
    | _, 0 => .ok [.ok [0x68, 0x69], .error "connection reset"]
    | _, _ => .ok [.ok [0x68], .ok [0x69]]
  seek _ := .ok ()
  setLen _ := .ok ()
  writes
    | 0 => .failed 1 ⟨"Interrupted", "interrupted"⟩
    | _ => .done

theorem serves_brokenOff : Serves brokenOff "a/b.mp4" [0x68, 0x69] := by
  intro attempt chunks h
  cases attempt with
  | zero =>
      obtain _ | ⟨chunk, _ | ⟨chunk', chunks⟩⟩ := chunks <;> cases h
  | succ attempt =>
      obtain _ | ⟨chunk, _ | ⟨chunk', _ | ⟨chunk'', chunks⟩⟩⟩ := chunks <;>
        cases h
      rfl

theorem download_intact_iff_two : Intact brokenOff [0x68, 0x69] 1
    (downloadToFile brokenOff "a/b.mp4" {}) := by
  have hiff := (@download_intact_iff _ _ _ 1 serves_brokenOff (by decide)).1
  refine hiff.mpr ?_
  intro w hw
  cases hw
  decide

/-- The object comes in one chunk, and its only write turns out as `outcome` says. -/
def twoBytes (outcome : WriteOutcome) : DownloadWorld where
  getObject _ _ := .ok [.ok [0x68, 0x69]]
  seek _ := .ok ()
  setLen _ := .ok ()
  writes _ := outcome

/-- It is looked at too early, or the disk is full: in both cases the download says
that it is done, and the file is empty. -/
theorem download_not_intact :
    (downloadToFile (twoBytes .done) "a/b.mp4" {}).result = .ok () ∧
      ¬ Intact (twoBytes .done) [0x68, 0x69] 0
        (downloadToFile (twoBytes .done) "a/b.mp4" {}) ∧
      (downloadToFile (twoBytes (.failed 0 ⟨"StorageFull", "no space left"⟩))
        "a/b.mp4" {}).result = .ok () ∧
      ¬ Intact (twoBytes (.failed 0 ⟨"StorageFull", "no space left"⟩)) [0x68, 0x69] 2
        (downloadToFile (twoBytes (.failed 0 ⟨"StorageFull", "no space left"⟩))
          "a/b.mp4" {}) := by
  refine ⟨by decide, ?_, by decide, ?_⟩
  · intro h
    exact absurd h.seen (by decide)
  · intro h
    exact absurd h.seen (by decide)

end VideoStorage.Storage.Download
