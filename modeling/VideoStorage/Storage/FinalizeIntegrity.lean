import VideoStorage.Foundation.Text
import VideoStorage.Storage.Finalize

/-!
# Integrity of finalized uploads

A finalized video is to be what Storj returned to the same request. The files
that carry it are shared: one that an earlier request left behind passes for a
download that failed, and another request may write between a download and the
read. `finalize_integrity` excludes these two steps.
-/

namespace VideoStorage.Storage

open Foundation Prog
open Videogen (Bytes)

variable {resolve : String → String} {request : RawFinalizeRequest}
  {params : RawFinalizeParams} {object : TempObject}
  {done tr : List FinalizeExchange}

/-! ## Integrity -/

/-- Storj returned these bytes for the object. -/
def Returned (params : RawFinalizeParams) (object : TempObject)
    (done : List FinalizeExchange) (data : Bytes) : Prop :=
  ⟨.uplinkCp (.of params.isNsfw) (object.sourceKey params)
    (object.tempFile params), .ok data⟩ ∈ done

/-- What was uploaded is what Storj returned in the same request. -/
structure Intact (request : RawFinalizeRequest) (done : List FinalizeExchange) :
    Prop where
  uploaded : ∃ uploads, ⟨.tryJoin uploads, .ok ()⟩ ∈ done
  returned : ∀ uploads r, ⟨.tryJoin uploads, r⟩ ∈ done →
    ∃ fileData thumbnailData,
      Returned request.params .video done fileData ∧
      Returned request.params .thumbnail done thumbnailData ∧
      uploads = finalUploads request fileData thumbnailData

/-- Every request that was answered with success is intact. -/
def Integrity (s : FinalizePool) : Prop :=
  ∀ t task out, s.tasks t = some task → task.rest = .ret (.ok out) →
    Intact task.request task.done

/-- The request has read the object's file. -/
def ReadBack (params : RawFinalizeParams) (object : TempObject)
    (done : List FinalizeExchange) : Prop :=
  ∃ r, ⟨.readFile (object.tempFile params), r⟩ ∈ done

/-- The request has downloaded the object to the file and not read it yet. -/
structure InUse (resolve : String → String) (params : RawFinalizeParams)
    (object : TempObject) (done : List FinalizeExchange) (file : String) :
    Prop where
  downloaded : ∃ data, Returned params object done data
  unread : ¬ ReadBack params object done
  file : resolve (object.tempFile params) = file

/-- No request whose own downloads all failed finds a file in their place, and
no download changes a file in use. -/
structure Undisturbed (resolve : String → String) (a : FinalizePool)
    (e : FinalizeEvent) : Prop where
  noStale : ∀ t task object r,
    e = .call t ⟨.tryExists (object.tempFile task.request.params), r⟩ →
    a.tasks t = some task →
    (¬ ∃ data, Returned task.request.params object task.done data) →
    a.world (resolve (object.tempFile task.request.params)) = none
  sameBytes : ∀ t bucket key path data,
    e = .call t ⟨.uplinkCp bucket key path, .ok data⟩ →
    ∀ u task object, a.tasks u = some task →
      InUse resolve task.request.params object task.done (resolve path) →
      Returned task.request.params object task.done data

/-- The steps that meet the condition. -/
def UndisturbedStep (resolve : String → String) (a : FinalizePool)
    (e : FinalizeEvent) (b : FinalizePool) : Prop :=
  Pool.Step (finalizeSystem resolve) a e b ∧ Undisturbed resolve a e

/-! ## The files of one request -/

/-- The two files of a request end differently. -/
theorem tempFile_injective {o o' : TempObject}
    (h : o.tempFile params = o'.tempFile params) : o = o' := by
  have hvideo : (TempObject.video.tempFile params).toList.getLast? = some '4' :=
    getLast?_toList_append (by decide)
  have hthumbnail :
      (TempObject.thumbnail.tempFile params).toList.getLast? = some 'g' :=
    getLast?_toList_append (by decide)
  cases o <;> cases o'
  · rfl
  · rw [h, hthumbnail] at hvideo
    cases hvideo
  · rw [h, hvideo] at hthumbnail
    cases hthumbnail
  · rfl

/-! ## The order of the calls -/

/-- A read of a file follows a look that found it and no other read, and what is
uploaded has been read. -/
def InOrder (request : RawFinalizeRequest) (h : List FinalizeExchange) :
    FinalizeCall → Prop
  | .readFile path => ∃ object : TempObject,
      path = object.tempFile request.params ∧
      ⟨.tryExists path, true⟩ ∈ h ∧ ¬ ReadBack request.params object h
  | .tryExists path => ∃ object : TempObject,
      path = object.tempFile request.params
  | .tryJoin uploads => ∃ fileData thumbnailData,
      ⟨.readFile (TempObject.video.tempFile request.params), .ok fileData⟩ ∈ h ∧
      ⟨.readFile (TempObject.thumbnail.tempFile request.params),
        .ok thumbnailData⟩ ∈ h ∧
      uploads = finalUploads request fileData thumbnailData
  | _ => True

/-- The calls that fetch an object. -/
def FinalizeCall.Fetches (params : RawFinalizeParams) (object : TempObject) :
    FinalizeCall → Prop
  | .uplinkCp _ _ _ => True
  | .tryExists path => path = object.tempFile params
  | _ => False

theorem downloadAttempts_only {bucket : StorjBucket} {key path : String} (n : ℕ) :
    ∀ lastError, (downloadAttempts bucket key path n lastError).Only
      (FinalizeCall.Fetches params object) := by
  induction n with
  | zero => exact fun lastError => only_ret _
  | succ n ih =>
      intro lastError
      simp only [downloadAttempts, bind_eq, issue_bind, pure_eq]
      refine ⟨trivial, fun r => ?_⟩
      rcases r with (e | stderr) | data
      · exact only_ret _
      · exact ih stderr
      · exact only_ret _

theorem fetch_only :
    (fetch params object).Only (FinalizeCall.Fetches params object) := by
  unfold fetch
  refine (downloadAttempts_only maxRetries "").bind fun r => ?_
  rcases r with e | lastError
  · exact only_ret _
  · simp only [bind_eq, issue_bind, pure_eq]
    refine ⟨rfl, fun found => ?_⟩
    cases found <;> exact only_ret _

/-- An object that was fetched was found. -/
theorem fetch_ok (h : Runs (fetch params object) tr (.ok ())) :
    ⟨.tryExists (object.tempFile params), true⟩ ∈ tr := by
  unfold fetch at h
  rw [bind_eq, runs_bind] at h
  obtain ⟨r, tr₁, tr₂, rfl, -, h⟩ := h
  rcases r with e | lastError
  · exact absurd h not_runs_error
  · simp only [bind_eq, issue_bind, pure_eq, runs_call] at h
    obtain ⟨found, tr₃, rfl, h⟩ := h
    cases found with
    | false => exact absurd h not_runs_error
    | true => exact List.mem_append_right _ List.mem_cons_self

theorem not_readBack_fetch {r : Except StorageError Unit} {o : TempObject}
    (h : Runs (fetch params object) tr r) : ¬ ReadBack params o tr := by
  rintro ⟨_, hmem⟩
  exact fetch_only.runs h _ hmem

theorem ReadBack.of_append {o : TempObject} {h h' : List FinalizeExchange}
    (hread : ReadBack params o (h ++ h')) :
    ReadBack params o h ∨ ReadBack params o h' := by
  obtain ⟨r, hmem⟩ := hread
  rcases List.mem_append.mp hmem with hmem | hmem
  · exact .inl ⟨r, hmem⟩
  · exact .inr ⟨r, hmem⟩

/-- Both objects found and none read, the rest keeps the order. -/
theorem reupload_obeys {h : List FinalizeExchange}
    (hfound : ∀ object : TempObject,
      ⟨.tryExists (object.tempFile request.params), true⟩ ∈ h)
    (hunread : ∀ object, ¬ ReadBack request.params object h) :
    (reupload request).Obeys (InOrder request) h := by
  simp only [reupload, bind_eq, issue_bind, pure_eq]
  refine ⟨⟨.video, rfl, hfound .video, hunread .video⟩, fun r => ?_⟩
  rcases r with e | fileData
  · trivial
  · have hunread' : ¬ ReadBack request.params .thumbnail (h ++ [⟨.readFile
        (TempObject.video.tempFile request.params), .ok fileData⟩]) := by
      intro hread
      rcases hread.of_append with hread | ⟨r, hmem⟩
      · exact hunread .thumbnail hread
      · -- the file just read is the video's
        injection List.mem_singleton.mp hmem with hcall
        injection hcall with hpath
        cases tempFile_injective hpath
    refine ⟨⟨.thumbnail, rfl, List.mem_append_left _ (hfound .thumbnail),
      hunread'⟩, fun r => ?_⟩
    rcases r with e | thumbnailData
    · trivial
    · refine ⟨⟨fileData, thumbnailData, ?_, ?_, rfl⟩, fun r => ?_⟩
      · simp
      · simp
      · rcases r with e | ⟨⟩
        · trivial
        · exact ⟨trivial, fun _ => ⟨trivial, fun _ => trivial⟩⟩

theorem handlerRawFinalize_obeys :
    (handlerRawFinalize request).Obeys (InOrder request) [] := by
  have hfetches : ∀ (object : TempObject) (h : List FinalizeExchange)
      (e : FinalizeCall), e.Fetches request.params object →
      InOrder request h e := by
    intro object h e he
    cases e with
    | tryExists path => exact ⟨object, he⟩
    | uplinkCp bucket key path => trivial
    | readFile path => exact he.elim
    | tryJoin uploads => exact he.elim
    | removeFile path => exact he.elim
  unfold handlerRawFinalize
  refine Obeys.bind (.of_only fetch_only (hfetches .video)) fun tr₁ r₁ hrun₁ => ?_
  rcases r₁ with e | ⟨⟩
  · trivial
  refine Obeys.bind (.of_only fetch_only (hfetches .thumbnail))
    fun tr₂ r₂ hrun₂ => ?_
  rcases r₂ with e | ⟨⟩
  · trivial
  refine reupload_obeys ?_ ?_
  · intro object
    cases object with
    | video => exact List.mem_append_left _ (fetch_ok hrun₁)
    | thumbnail => exact List.mem_append_right _ (fetch_ok hrun₂)
  · intro object hread
    rcases hread.of_append with hread | hread
    · exact not_readBack_fetch hrun₁ hread
    · exact not_readBack_fetch hrun₂ hread

theorem reupload_ok {out : FinalizeResponse}
    (h : Runs (reupload request) tr (.ok out)) :
    ∃ uploads, ⟨.tryJoin uploads, .ok ()⟩ ∈ tr := by
  simp only [reupload, bind_eq, issue_bind, pure_eq, runs_call] at h
  obtain ⟨r, tr₁, rfl, h⟩ := h
  rcases r with e | fileData
  · exact absurd h not_runs_error
  rw [runs_call] at h
  obtain ⟨r, tr₂, rfl, h⟩ := h
  rcases r with e | thumbnailData
  · exact absurd h not_runs_error
  rw [runs_call] at h
  obtain ⟨r, tr₃, rfl, h⟩ := h
  rcases r with e | ⟨⟩
  · exact absurd h not_runs_error
  · exact ⟨finalUploads request fileData thumbnailData, by simp⟩

/-- A request answered with success has uploaded. -/
theorem handlerRawFinalize_ok {out : FinalizeResponse}
    (h : Runs (handlerRawFinalize request) tr (.ok out)) :
    ∃ uploads, ⟨.tryJoin uploads, .ok ()⟩ ∈ tr := by
  unfold handlerRawFinalize at h
  rw [bind_eq, runs_bind] at h
  obtain ⟨r₁, tr₁, tr₂, rfl, -, h⟩ := h
  rcases r₁ with e | ⟨⟩
  · exact absurd h not_runs_error
  rw [bind_eq, runs_bind] at h
  obtain ⟨r₂, tr₃, tr₄, rfl, -, h⟩ := h
  rcases r₂ with e | ⟨⟩
  · exact absurd h not_runs_error
  obtain ⟨uploads, hmem⟩ := reupload_ok h
  exact ⟨uploads, List.mem_append_right _ (List.mem_append_right _ hmem)⟩

/-! ## What the requests and the files agree on -/

/-- The part of one request in the invariant. -/
structure TaskSound (resolve : String → String) (files : Files)
    (request : RawFinalizeRequest) (done : List FinalizeExchange) : Prop where
  held : ∀ object file, InUse resolve request.params object done file →
    ∀ data, files file = some data → Returned request.params object done data
  found : ∀ object : TempObject,
    ⟨.tryExists (object.tempFile request.params), true⟩ ∈ done →
    ∃ data, Returned request.params object done data
  read : ∀ (object : TempObject) data,
    ⟨.readFile (object.tempFile request.params), .ok data⟩ ∈ done →
    Returned request.params object done data
  joined : ∀ uploads r, ⟨.tryJoin uploads, r⟩ ∈ done →
    ∃ fileData thumbnailData,
      Returned request.params .video done fileData ∧
      Returned request.params .thumbnail done thumbnailData ∧
      uploads = finalUploads request fileData thumbnailData

/-- Every task has done the beginning of its program, and is sound. -/
structure Sound (resolve : String → String) (s : FinalizePool) : Prop where
  faithful : Pool.Faithful (finalizeSystem resolve) s
  tasks : ∀ t task, s.tasks t = some task →
    TaskSound resolve s.world task.request task.done

variable {files files' : Files} {x : FinalizeExchange}

theorem Returned.append {data : Bytes} (h : Returned params object done data) :
    Returned params object (done ++ tr) data :=
  List.mem_append_left _ h

/-- What is in a file after a call was there before, or is what the call
downloaded to it. -/
theorem acts_file {file : String} {data : Bytes}
    (hacts : x.1.Acts resolve files files' x.2) (h : files' file = some data) :
    files file = some data ∨ ∃ bucket key path,
      x = ⟨.uplinkCp bucket key path, .ok data⟩ ∧ resolve path = file := by
  obtain ⟨e, r⟩ := x
  cases e with
  | uplinkCp bucket key path =>
      rcases r with e | data'
      · obtain rfl : files' = files := hacts
        exact .inl h
      · obtain rfl : files' = Function.update files (resolve path) (some data') :=
          hacts
        -- a download writes one file
        by_cases hfile : file = resolve path
        · subst hfile
          rw [Function.update_self] at h
          obtain rfl := Option.some.inj h
          exact .inr ⟨bucket, key, path, rfl, rfl⟩
        · rw [Function.update_of_ne hfile] at h
          exact .inl h
  | tryExists path =>
      obtain ⟨rfl, -⟩ := hacts
      exact .inl h
  | readFile path =>
      rcases r with e | data'
      · obtain rfl : files' = files := hacts
        exact .inl h
      · obtain ⟨rfl, -⟩ := hacts
        exact .inl h
  | tryJoin uploads =>
      obtain rfl : files' = files := hacts
      exact .inl h
  | removeFile path =>
      rcases hacts with rfl | rfl
      · exact .inl h
      · by_cases hfile : file = resolve path
        · subst hfile
          rw [Function.update_self] at h
          cases h
        · rw [Function.update_of_ne hfile] at h
          exact .inl h

/-- A file in use holds what was returned, whatever is called next. -/
theorem TaskSound.held_after (hs : TaskSound resolve files request done)
    (hacts : x.1.Acts resolve files files' x.2)
    (hsame : ∀ bucket key path data, x = ⟨.uplinkCp bucket key path, .ok data⟩ →
      ∀ object, InUse resolve request.params object done (resolve path) →
      Returned request.params object done data)
    {file : String} (huse : InUse resolve request.params object done file)
    {data : Bytes} (h : files' file = some data) :
    Returned request.params object done data := by
  rcases acts_file hacts h with h | ⟨bucket, key, path, hx, rfl⟩
  · exact hs.held object file huse data h
  · exact hsame bucket key path data hx object huse

/-- The request that calls stays sound. -/
theorem TaskSound.call (hs : TaskSound resolve files request done)
    (hacts : x.1.Acts resolve files files' x.2)
    (hsame : ∀ bucket key path data, x = ⟨.uplinkCp bucket key path, .ok data⟩ →
      ∀ object, InUse resolve request.params object done (resolve path) →
      Returned request.params object done data)
    (hstale : ∀ (object : TempObject) r,
      x = ⟨.tryExists (object.tempFile request.params), r⟩ →
      (¬ ∃ data, Returned request.params object done data) →
      files (resolve (object.tempFile request.params)) = none)
    (horder : InOrder request done x.1) :
    TaskSound resolve files' request (done ++ [x]) where
  held object file huse data h := by
    obtain ⟨⟨data₀, hdownloaded⟩, hunread, hfile⟩ := huse
    rcases List.mem_append.mp hdownloaded with hmem | hmem
    · have huse : InUse resolve request.params object done file :=
        ⟨⟨data₀, hmem⟩, fun ⟨r, hr⟩ => hunread ⟨r, List.mem_append_left _ hr⟩,
          hfile⟩
      exact (hs.held_after hacts hsame huse h).append
    · -- the file was written just now
      obtain rfl := List.mem_singleton.mp hmem
      obtain rfl : files' = Function.update files
        (resolve (object.tempFile request.params)) (some data₀) := hacts
      subst hfile
      rw [Function.update_self] at h
      obtain rfl := Option.some.inj h
      exact hdownloaded
  found object hmem := by
    rcases List.mem_append.mp hmem with hmem | hmem
    · obtain ⟨data, hdata⟩ := hs.found object hmem
      exact ⟨data, hdata.append⟩
    · obtain rfl := List.mem_singleton.mp hmem
      -- found without a download: `hstale` says that there was no file
      by_cases hreturned : ∃ data, Returned request.params object done data
      · obtain ⟨data, hdata⟩ := hreturned
        exact ⟨data, hdata.append⟩
      · have hnone := hstale object true rfl hreturned
        exact absurd hnone (hacts.2 rfl)
  read object data hmem := by
    rcases List.mem_append.mp hmem with hmem | hmem
    · exact (hs.read object data hmem).append
    · obtain rfl := List.mem_singleton.mp hmem
      obtain ⟨object', hpath, hfound, hunread⟩ := horder
      obtain rfl := tempFile_injective hpath
      have huse : InUse resolve request.params object done
          (resolve (object.tempFile request.params)) :=
        ⟨hs.found object hfound, hunread, rfl⟩
      exact (hs.held object _ huse data hacts.2).append
  joined uploads r hmem := by
    rcases List.mem_append.mp hmem with hmem | hmem
    · obtain ⟨fileData, thumbnailData, hvideo, hthumbnail, huploads⟩ :=
        hs.joined uploads r hmem
      exact ⟨fileData, thumbnailData, hvideo.append, hthumbnail.append, huploads⟩
    · obtain rfl := List.mem_singleton.mp hmem
      obtain ⟨fileData, thumbnailData, hvideo, hthumbnail, huploads⟩ := horder
      exact ⟨fileData, thumbnailData, (hs.read .video _ hvideo).append,
        (hs.read .thumbnail _ hthumbnail).append, huploads⟩

/-- A request that has not begun is sound. -/
theorem TaskSound.nil : TaskSound resolve files request [] where
  held _ _ huse := absurd huse.downloaded.choose_spec List.not_mem_nil
  found _ h := absurd h List.not_mem_nil
  read _ _ h := absurd h List.not_mem_nil
  joined _ _ h := absurd h List.not_mem_nil

variable {a b s s' : FinalizePool} {e : FinalizeEvent}

theorem Sound.step (ha : Sound resolve a)
    (h : UndisturbedStep resolve a e b) : Sound resolve b := by
  obtain ⟨hstep, hundisturbed⟩ := h
  refine ⟨ha.faithful.step hstep, ?_⟩
  cases hstep with
  | outside l hmove => exact hmove.elim
  | start t request hfree =>
      intro u task hu
      rcases Pool.tasks_update hu with ⟨-, rfl⟩ | ⟨-, hu⟩
      · exact .nil
      · exact ha.tasks u task hu
  | call t task call k r htask hrest hact =>
      intro u task' hu
      rcases Pool.tasks_update hu with ⟨-, rfl⟩ | ⟨-, hu⟩
      · have hafter := ha.faithful t task htask
        rw [hrest] at hafter
        have horder := (hafter.obeys handlerRawFinalize_obeys).1
        refine (ha.tasks t task htask).call hact ?_ ?_ horder
        · rintro bucket key path data hx object huse
          exact hundisturbed.sameBytes t bucket key path data (by rw [hx]) t task
            object htask huse
        · rintro object r hx hreturned
          exact hundisturbed.noStale t task object r (by rw [hx]) htask hreturned
      · have htask' := ha.tasks u task' hu
        refine ⟨?_, htask'.found, htask'.read, htask'.joined⟩
        intro object file huse data hdata
        refine htask'.held_after hact ?_ huse hdata
        rintro bucket key path data hx object huse
        exact hundisturbed.sameBytes t bucket key path data (by rw [hx]) u task'
          object hu huse

theorem Sound.of_idle (h : s.tasks = fun _ => none) : Sound resolve s := by
  refine ⟨.of_idle h, fun t task ht => ?_⟩
  rw [h] at ht
  cases ht

theorem Sound.integrity (hs : Sound resolve s) : Integrity s := by
  intro t task out htask hrest
  have hafter := hs.faithful t task htask
  rw [hrest] at hafter
  exact ⟨handlerRawFinalize_ok hafter.ret, (hs.tasks t task htask).joined⟩

/-- **Finalized is what was uploaded** after every undisturbed run, whatever
files lay about when it began. -/
theorem finalize_integrity (resolve : String → String) (s s' : FinalizePool)
    (hidle : s.tasks = fun _ => none) {es : List FinalizeEvent}
    (hrun : Trace (UndisturbedStep resolve) s es s') : Integrity s' := by
  have hsound : Sound resolve s' := hrun.invariant (Sound resolve)
    (fun _ _ _ ha hab => ha.step hab) (.of_idle hidle)
  exact hsound.integrity

/-! ## A request that succeeds, and one that finds a stale file -/

section Runs

def alice : RawFinalizeRequest where
  params := ⟨"alice", "v1", false⟩

/-- The pool before any request, with nothing under `/tmp`. -/
def emptyPool : FinalizePool := ⟨fun _ => none, fun _ => none⟩

abbrev cp (object : TempObject) (r : Except UplinkError Bytes) : FinalizeExchange :=
  ⟨.uplinkCp .sfw (object.sourceKey alice.params) (object.tempFile alice.params),
    r⟩

abbrev looked (object : TempObject) (found : Bool) : FinalizeExchange :=
  ⟨.tryExists (object.tempFile alice.params), found⟩

def reuploaded (fileData thumbnailData : Bytes) : List FinalizeExchange := [
  ⟨.readFile (TempObject.video.tempFile alice.params), .ok fileData⟩,
  ⟨.readFile (TempObject.thumbnail.tempFile alice.params), .ok thumbnailData⟩,
  ⟨.tryJoin (finalUploads alice fileData thumbnailData), .ok ()⟩,
  ⟨.removeFile (TempObject.video.tempFile alice.params), ()⟩,
  ⟨.removeFile (TempObject.thumbnail.tempFile alice.params), ()⟩]

def succeeded : List FinalizeExchange :=
  cp .video (.ok [1]) :: looked .video true ::
    cp .thumbnail (.ok [2]) :: looked .thumbnail true :: reuploaded [1] [2]

theorem succeeded_runs :
    Runs (handlerRawFinalize alice) succeeded (.ok finalizeResponse) :=
  .call (.call (.call (.call (.call (.call (.call (.call (.call (.ret _)))))))))

/-- What lies in the two files of the request, and nothing else. -/
def tmp (held : TempObject → Option Bytes) : Files := fun file =>
  if file = TempObject.video.tempFile alice.params then held .video
  else if file = TempObject.thumbnail.tempFile alice.params then held .thumbnail
  else none

theorem tmp_tempFile (held : TempObject → Option Bytes) (o : TempObject) :
    tmp held (o.tempFile alice.params) = held o := by
  unfold tmp
  cases o with
  | video => rw [if_pos rfl]
  | thumbnail =>
      have hne : TempObject.thumbnail.tempFile alice.params ≠
          TempObject.video.tempFile alice.params :=
        fun h => nomatch tempFile_injective h
      rw [if_neg hne, if_pos rfl]

theorem tmp_update (held : TempObject → Option Bytes) (o : TempObject)
    (data : Option Bytes) :
    Function.update (tmp held) (o.tempFile alice.params) data =
      tmp (Function.update held o data) := by
  funext file
  by_cases hfile : ∃ o' : TempObject, file = o'.tempFile alice.params
  · obtain ⟨o', rfl⟩ := hfile
    rw [tmp_tempFile]
    by_cases ho : o' = o
    · subst ho
      rw [Function.update_self, Function.update_self]
    · rw [Function.update_of_ne fun h => ho (tempFile_injective h),
        Function.update_of_ne ho, tmp_tempFile]
  · have hne : ∀ o' : TempObject, file ≠ o'.tempFile alice.params :=
      fun o' h => hfile ⟨o', h⟩
    rw [Function.update_of_ne (hne o)]
    unfold tmp
    rw [if_neg (hne .video), if_neg (hne .thumbnail), if_neg (hne .video),
      if_neg (hne .thumbnail)]

theorem cp_acts (held : TempObject → Option Bytes) (o : TempObject)
    (data : Bytes) : (finalizeSystem id).acts (tmp held) (cp o (.ok data))
      (tmp (Function.update held o (some data))) :=
  (tmp_update held o (some data)).symm

theorem looked_acts {held : TempObject → Option Bytes} {o : TempObject}
    (h : held o ≠ none) :
    (finalizeSystem id).acts (tmp held) (looked o true) (tmp held) :=
  ⟨rfl, fun _ => (tmp_tempFile held o).symm ▸ h⟩

theorem reuploaded_acts (held : TempObject → Option Bytes)
    {fileData thumbnailData : Bytes} (hvideo : held .video = some fileData)
    (hthumbnail : held .thumbnail = some thumbnailData) :
    ∃ files, Trace (finalizeSystem id).acts (tmp held)
      (reuploaded fileData thumbnailData) files := by
  refine ⟨_, .cons ⟨rfl, ?_⟩ (.cons ⟨rfl, ?_⟩ (.cons rfl (.cons (.inr rfl)
    (.cons (.inr rfl) (.nil _)))))⟩
  · exact (tmp_tempFile held .video).trans hvideo
  · exact (tmp_tempFile held .thumbnail).trans hthumbnail

theorem succeeded_acts (held : TempObject → Option Bytes) : ∃ files,
    Trace (finalizeSystem id).acts (tmp held) succeeded files := by
  obtain ⟨files, hfiles⟩ := reuploaded_acts (Function.update
    (Function.update held .video (some [1])) .thumbnail (some [2])) rfl rfl
  exact ⟨files, .cons (cp_acts _ _ _) (.cons (looked_acts nofun)
    (.cons (cp_acts _ _ _) (.cons (looked_acts nofun) hfiles)))⟩

theorem looked_object {t u : ℕ} {o o' : TempObject} {found r : Bool}
    (h : (.call u (looked o found) : FinalizeEvent) =
      .call t ⟨.tryExists (o'.tempFile alice.params), r⟩) : o = o' := by
  injection h with _ h
  injection h with h
  injection h with h
  exact tempFile_injective h

/-- Served alone, whatever lies under `/tmp`, the request disturbs nothing. -/
theorem succeeded_undisturbed {pre post : List FinalizeExchange}
    {x : FinalizeExchange} {files : Files}
    {q : Finalize (Except StorageError FinalizeResponse)}
    (hsplit : succeeded = pre ++ x :: post) :
    Undisturbed id ⟨files, Function.update emptyPool.tasks 0
      (some ⟨alice, pre, q⟩)⟩ (.call 0 x) := by
  have htask : ∀ t task, Function.update emptyPool.tasks 0
      (some ⟨alice, pre, q⟩) t = some task → task = ⟨alice, pre, q⟩ := by
    intro t task h
    rcases Pool.tasks_update h with ⟨-, rfl⟩ | ⟨-, h⟩
    · rfl
    · cases h
  rcases List.cons_eq_append_iff.mp hsplit with ⟨rfl, hx⟩ | ⟨pre₁, rfl, h₁⟩
  · -- the first download, with nothing in use
    obtain ⟨rfl, -⟩ := List.cons.inj hx
    constructor
    · intro t task object r he
      cases he
    · intro t bucket key path data he u task object hu huse
      obtain rfl := htask u task hu
      obtain ⟨_, hmem⟩ := huse.downloaded
      cases hmem
  rcases List.cons_eq_append_iff.mp h₁ with ⟨rfl, hx⟩ | ⟨pre₂, rfl, h₂⟩
  · obtain ⟨rfl, -⟩ := List.cons.inj hx
    constructor
    · intro t task object r he ht hreturned
      obtain rfl := htask t task ht
      obtain rfl := looked_object he
      exact absurd ⟨[1], List.mem_cons_self⟩ hreturned
    · intro t bucket key path data he
      cases he
  rcases List.cons_eq_append_iff.mp h₂ with ⟨rfl, hx⟩ | ⟨pre₃, rfl, h₃⟩
  · -- the second download goes to a file of its own
    obtain ⟨rfl, -⟩ := List.cons.inj hx
    constructor
    · intro t task object r he
      cases he
    · intro t bucket key path data he u task object hu huse
      obtain rfl := htask u task hu
      cases he
      obtain rfl := tempFile_injective huse.file
      obtain ⟨_, hmem⟩ := huse.downloaded
      rcases List.mem_pair.mp hmem with h | h
      · injection h with h
        injection h with _ _ h
        cases tempFile_injective h
      · cases h
  rcases List.cons_eq_append_iff.mp h₃ with ⟨rfl, hx⟩ | ⟨pre₄, rfl, h₄⟩
  · obtain ⟨rfl, -⟩ := List.cons.inj hx
    constructor
    · intro t task object r he ht hreturned
      obtain rfl := htask t task ht
      obtain rfl := looked_object he
      exact absurd ⟨[2], .tail _ (.tail _ (.head _))⟩ hreturned
    · intro t bucket key path data he
      cases he
  · -- what is left neither downloads nor looks
    have hx : x ∈ reuploaded [1] [2] :=
      h₄ ▸ List.mem_append_right _ List.mem_cons_self
    constructor
    · rintro t task object r ⟨⟩
      simp [reuploaded] at hx
    · rintro t bucket key path data ⟨⟩
      simp [reuploaded] at hx

/-- The video of an earlier request lies under `/tmp`. -/
def leftover : TempObject → Option Bytes
  | .video => some [9]
  | .thumbnail => none

/-- The request that comes next downloads over it, and uploads its own bytes. -/
theorem finalize_integrity_leftover : ∃ s' : FinalizePool, Integrity s' ∧
    ∃ task, s'.tasks 0 = some task ∧ task.rest = .ret (.ok finalizeResponse) ∧
      ⟨.tryJoin (finalUploads alice [1] [2]), .ok ()⟩ ∈ task.done := by
  obtain ⟨files, hacts⟩ := succeeded_acts leftover
  have hrun := Pool.solo_start (S := finalizeSystem id) (Undisturbed id)
    (t := 0) (s := ⟨tmp leftover, fun _ => none⟩) succeeded_runs rfl hacts
    ⟨nofun, nofun⟩ fun pre x post w q hsplit _ => succeeded_undisturbed hsplit
  refine ⟨_, finalize_integrity id _ _ rfl hrun, _, rfl, rfl, ?_⟩
  simp [succeeded, reuploaded]

/-- The video is fetched, the thumbnail is not: the first request fails and
leaves the video's file behind. -/
def failed : List FinalizeExchange :=
  cp .video (.ok [1]) :: looked .video true ::
    cp .thumbnail (.error (.status "")) :: cp .thumbnail (.error (.status "")) ::
    cp .thumbnail (.error (.status "")) :: [looked .thumbnail false]

/-- All downloads of the video fail, and the second request goes on. -/
def stale : List FinalizeExchange :=
  cp .video (.error (.status "")) :: cp .video (.error (.status "")) ::
    cp .video (.error (.status "")) :: looked .video true ::
    cp .thumbnail (.ok [2]) :: looked .thumbnail true :: reuploaded [1] [2]

theorem failed_runs : ∃ e, Runs (handlerRawFinalize alice) failed (.error e) :=
  ⟨_, .call (.call (.call (.call (.call (.call (.ret _))))))⟩

theorem stale_runs :
    Runs (handlerRawFinalize alice) stale (.ok finalizeResponse) :=
  .call (.call (.call (.call (.call (.call (.call (.call (.call (.call (.call
    (.ret _)))))))))))

theorem emptyPool_world : emptyPool.world = tmp fun _ => none := by
  funext file
  unfold tmp
  split
  · rfl
  · split <;> rfl

theorem stale_acts : ∃ files files',
    Trace (finalizeSystem id).acts emptyPool.world failed files ∧
    Trace (finalizeSystem id).acts files stale files' := by
  rw [emptyPool_world]
  obtain ⟨files, hfiles⟩ := reuploaded_acts (Function.update
    (Function.update (fun _ => none) .video (some [1])) .thumbnail (some [2]))
    rfl rfl
  refine ⟨_, files, .cons (cp_acts _ _ _) (.cons (looked_acts nofun)
    (.cons rfl (.cons rfl (.cons rfl (.cons ⟨rfl, nofun⟩ (.nil _)))))), ?_⟩
  exact .cons rfl (.cons rfl (.cons rfl (.cons (looked_acts nofun)
    (.cons (cp_acts _ _ _) (.cons (looked_acts nofun) hfiles)))))

/-- A file that a failed request left behind is uploaded by the next one,
although Storj returned nothing to it. -/
theorem finalize_uploads_stale : ¬ ∀ (es : List FinalizeEvent) s',
    Trace (Pool.Step (finalizeSystem id)) emptyPool es s' → Integrity s' := by
  intro h
  obtain ⟨files, files', hfailed, hstale⟩ := stale_acts
  obtain ⟨e, hrun⟩ := failed_runs
  have hfirst := Pool.solo_start (S := finalizeSystem id) (fun _ _ => True)
    (t := 0) hrun rfl hfailed trivial fun _ _ _ _ _ _ _ => trivial
  have hsecond := Pool.solo_start (S := finalizeSystem id) (fun _ _ => True)
    (t := 1) (s := ⟨files, Function.update emptyPool.tasks 0
      (some ⟨alice, failed, .ret (.error e)⟩)⟩) stale_runs rfl hstale trivial
    fun _ _ _ _ _ _ _ => trivial
  have hintact := h _ _ ((hfirst.append hsecond).mono fun _ _ _ hab => hab.1) 1
    _ finalizeResponse rfl rfl
  obtain ⟨fileData, thumbnailData, hreturned, -⟩ :=
    hintact.returned (finalUploads alice [1] [2]) (.ok ())
      (by simp [stale, reuploaded])
  -- the one download that succeeded is the thumbnail's
  have hsame : TempObject.video.tempFile alice.params =
      TempObject.thumbnail.tempFile alice.params := by
    simp [Returned, stale, reuploaded] at hreturned
    exact hreturned.1.2.2
  cases tempFile_injective hsame

end Runs

end VideoStorage.Storage
