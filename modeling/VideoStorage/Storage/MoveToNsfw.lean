import VideoStorage.Foundation.Program
import VideoStorage.Foundation.Text
import VideoStorage.Foundation.Trace
import VideoStorage.Storage.Objects

/-!
# Moving a video to the NSFW bucket

The handler of `/move-to-nsfw` takes the video and its thumbnail from S3, stores
them in the NSFW bucket and deletes them from S3. `MoveRun` lists its traces by
the way they end; a store of objects answers it.
-/

namespace VideoStorage.Storage

open Foundation Prog
open Videogen (Bytes)

/-! ## The handler -/

/-- `storj_interface::move2nsfw::Args`. -/
structure MoveArgs where
  publisherUserId : String
  videoId : String
  deriving DecidableEq, Repr

namespace MoveArgs

def videoKey (args : MoveArgs) : String :=
  Storage.videoKey args.publisherUserId args.videoId

def thumbnailKey (args : MoveArgs) : String :=
  Storage.thumbnailKey args.publisherUserId args.videoId

def thumbnailDashKey (args : MoveArgs) : String :=
  Storage.thumbnailDashKey args.publisherUserId args.videoId

end MoveArgs

/-- An upload is an `uplink cp` to the NSFW bucket. Its error is that the
command cannot be run or written to, its reply whether it succeeded. -/
inductive MoveCall
  | downloadVideo (key : String)
  | downloadThumbnail (key : String)
  | uploadVideoNsfw (key : String) (data : Bytes)
  | uploadThumbnailNsfw (key : String) (data : Bytes)
  | deleteVideo (key : String)
  | deleteThumbnail (key : String)

@[reducible] def MoveCall.Reply : MoveCall → Type
  | .downloadVideo _ => Except String Bytes
  | .downloadThumbnail _ => Except String Bytes
  | .uploadVideoNsfw _ _ => Except String Bool
  | .uploadThumbnailNsfw _ _ => Except String Bool
  | .deleteVideo _ => Except String Unit
  | .deleteThumbnail _ => Except String Unit

abbrev Move : Type → Type := Prog MoveCall MoveCall.Reply

abbrev MoveExchange : Type := Prog.Exchange MoveCall MoveCall.Reply

structure MoveResponse where
  status : ℕ
  message : String
  deriving DecidableEq, Repr

def moved : MoveResponse := ⟨200, "moved"⟩

def uploadFailed : MoveResponse :=
  ⟨500, "Failed to upload video to Storj NSFW bucket. Check server logs."⟩

abbrev MoveResult : Type := Except StorageError MoveResponse

/-- An upload that is refused is logged. -/
def uploadThumbnails (data : Bytes) :
    List String → Move (Except StorageError Unit)
  | [] => pure (.ok ())
  | key :: keys => do
      match ← Prog.issue (MoveCall.uploadThumbnailNsfw key data) with
      | .error e => pure (.error (.io e))
      | .ok _ => uploadThumbnails data keys

/-- Under both names, if there is a thumbnail. -/
def moveThumbnails (args : MoveArgs) :
    Option Bytes → Move (Except StorageError Unit)
  | none => pure (.ok ())
  | some data => uploadThumbnails data [args.thumbnailKey, args.thumbnailDashKey]

/-- Under one name; an error is logged. -/
def deleteThumbnail (args : MoveArgs) : Option Bytes → Move Unit
  | none => pure ()
  | some _ => do
      let _ ← Prog.issue (MoveCall.deleteThumbnail args.thumbnailKey)
      pure ()

/-- Once the video is in the NSFW bucket. -/
def moveRest (args : MoveArgs) (thumbnailData : Option Bytes) :
    Move MoveResult := do
  match ← moveThumbnails args thumbnailData with
  | .error e => pure (.error e)
  | .ok () => do
      match ← Prog.issue (MoveCall.deleteVideo args.videoKey) with
      | .error e => pure (.error (.s3 e))
      | .ok () => do
          deleteThumbnail args thumbnailData
          pure (.ok moved)

/-- `handler`. -/
def moveToNsfw (args : MoveArgs) : Move MoveResult := do
  match ← Prog.issue (MoveCall.downloadVideo args.videoKey) with
  | .error e => pure (.error (.s3 e))
  | .ok videoData => do
      let thumbnail ← Prog.issue (MoveCall.downloadThumbnail args.thumbnailKey)
      match ← Prog.issue (MoveCall.uploadVideoNsfw args.videoKey videoData) with
      | .error e => pure (.error (.io e))
      | .ok false => pure (.ok uploadFailed)
      | .ok true => moveRest args thumbnail.toOption

/-! ## The objects -/

abbrev ObjectStore : Type := Location → Option Bytes

/-- The one place that a call may change. -/
def MoveCall.touches : MoveCall → Option Location
  | .downloadVideo _ | .downloadThumbnail _ => none
  | .uploadVideoNsfw key _ | .uploadThumbnailNsfw key _ =>
      some (.storj .nsfw key)
  | .deleteVideo key | .deleteThumbnail key => some (.s3 key)

/-- What a call that succeeds has done. One that fails may have done anything to
the place it touches. -/
def MoveCall.Achieves (store store' : ObjectStore) : (e : MoveCall) → e.Reply → Prop
  | .downloadVideo key, .ok data => store (.s3 key) = some data
  | .downloadThumbnail key, .ok data => store (.s3 key) = some data
  | .uploadVideoNsfw key data, .ok true => store' (.storj .nsfw key) = some data
  | .uploadThumbnailNsfw key data, .ok true =>
      store' (.storj .nsfw key) = some data
  | .deleteVideo key, .ok () => store' (.s3 key) = none
  | .deleteThumbnail key, .ok () => store' (.s3 key) = none
  | _, _ => True

structure MoveCall.Acts (store : ObjectStore) (x : MoveExchange)
    (store' : ObjectStore) : Prop where
  frame : ∀ l, x.1.touches ≠ some l → store' l = store l
  achieves : x.1.Achieves store store' x.2

/-- A place that no call of the run touches stays as it is. -/
theorem acts_frame {store store' : ObjectStore} {tr : List MoveExchange}
    (h : Trace MoveCall.Acts store tr store') {l : Location}
    (hl : ∀ x ∈ tr, x.1.touches ≠ some l) : store' l = store l := by
  induction h with
  | nil store => rfl
  | cons hact _ ih =>
      have hrest := ih fun x hx => hl x (List.mem_cons_of_mem _ hx)
      exact hrest.trans (hact.frame l (hl _ List.mem_cons_self))

/-! ## Runs -/

/-- The exchanges up to the upload of the video. -/
def uploading (args : MoveArgs) (videoData : Bytes)
    (thumbnail : Except String Bytes) (r : Except String Bool) :
    List MoveExchange := [
  ⟨.downloadVideo args.videoKey, .ok videoData⟩,
  ⟨.downloadThumbnail args.thumbnailKey, thumbnail⟩,
  ⟨.uploadVideoNsfw args.videoKey videoData, r⟩]

/-- The traces of the handler, by the way it ends. -/
inductive MoveRun (args : MoveArgs) : List MoveExchange → MoveResult → Prop
  | noVideo (e : String) :
      MoveRun args [⟨.downloadVideo args.videoKey, .error e⟩] (.error (.s3 e))
  | noUpload (videoData : Bytes) (thumbnail : Except String Bytes) (e : String) :
      MoveRun args (uploading args videoData thumbnail (.error e))
        (.error (.io e))
  | refused (videoData : Bytes) (thumbnail : Except String Bytes) :
      MoveRun args (uploading args videoData thumbnail (.ok false))
        (.ok uploadFailed)
  | noThumbnails (videoData : Bytes) (thumbnail : Except String Bytes)
      (thumbnails : List MoveExchange) (e : StorageError)
      (h : Runs (moveThumbnails args thumbnail.toOption) thumbnails (.error e)) :
      MoveRun args (uploading args videoData thumbnail (.ok true) ++ thumbnails)
        (.error e)
  | notDeleted (videoData : Bytes) (thumbnail : Except String Bytes)
      (thumbnails : List MoveExchange)
      (h : Runs (moveThumbnails args thumbnail.toOption) thumbnails (.ok ()))
      (e : String) :
      MoveRun args (uploading args videoData thumbnail (.ok true) ++ (thumbnails ++
        [⟨.deleteVideo args.videoKey, .error e⟩])) (.error (.s3 e))
  | moved (videoData : Bytes) (thumbnail : Except String Bytes)
      (thumbnails deleted : List MoveExchange)
      (h : Runs (moveThumbnails args thumbnail.toOption) thumbnails (.ok ()))
      (hdeleted : Runs (deleteThumbnail args thumbnail.toOption) deleted ()) :
      MoveRun args (uploading args videoData thumbnail (.ok true) ++ (thumbnails ++
        ⟨.deleteVideo args.videoKey, .ok ()⟩ :: deleted)) (.ok moved)

variable {args : MoveArgs} {tr : List MoveExchange} {out : MoveResult}

/-- **What the handler does.** -/
theorem moveToNsfw_runs (h : Runs (moveToNsfw args) tr out) :
    MoveRun args tr out := by
  simp only [moveToNsfw, bind_eq, issue_bind, pure_eq, runs_call] at h
  obtain ⟨r, tr₁, rfl, h⟩ := h
  rcases r with e | videoData
  · obtain ⟨rfl, rfl⟩ := runs_ret.mp h
    exact .noVideo e
  simp only [runs_call] at h
  obtain ⟨thumbnail, tr₂, rfl, r, tr₃, rfl, h⟩ := h
  rcases r with e | (_ | _)
  · obtain ⟨rfl, rfl⟩ := runs_ret.mp h
    exact .noUpload videoData thumbnail e
  · obtain ⟨rfl, rfl⟩ := runs_ret.mp h
    exact .refused videoData thumbnail
  dsimp only at h
  unfold moveRest at h
  rw [bind_eq, runs_bind] at h
  obtain ⟨r, thumbnails, tr₄, rfl, hthumbnails, h⟩ := h
  rcases r with e | ⟨⟩
  · obtain ⟨rfl, rfl⟩ := runs_ret.mp h
    rw [List.append_nil]
    exact .noThumbnails videoData thumbnail thumbnails e hthumbnails
  simp only [bind_eq, issue_bind, pure_eq, runs_call] at h
  obtain ⟨r, tr₅, rfl, h⟩ := h
  rcases r with e | ⟨⟩
  · obtain ⟨rfl, rfl⟩ := runs_ret.mp h
    exact .notDeleted videoData thumbnail thumbnails hthumbnails e
  · obtain ⟨⟨⟩, deleted, _, rfl, hdeleted, h⟩ := runs_bind.mp h
    obtain ⟨rfl, rfl⟩ := runs_ret.mp h
    rw [List.append_nil]
    exact .moved videoData thumbnail thumbnails deleted hthumbnails hdeleted

theorem uploadThumbnails_only (data : Bytes) (keys : List String) :
    (uploadThumbnails data keys).Only
      fun e => ∃ key ∈ keys, e = .uploadThumbnailNsfw key data := by
  induction keys with
  | nil => exact only_ret _
  | cons key keys ih =>
      simp only [uploadThumbnails, bind_eq, issue_bind, pure_eq]
      refine ⟨⟨key, List.mem_cons_self, rfl⟩, fun r => ?_⟩
      rcases r with e | ok
      · exact only_ret _
      · exact ih.mono fun e ⟨k, hk, he⟩ => ⟨k, List.mem_cons_of_mem _ hk, he⟩

/-- The thumbnails are uploaded, and under their own names. -/
theorem moveThumbnails_calls {thumbnail : Option Bytes}
    {r : Except StorageError Unit}
    (h : Runs (moveThumbnails args thumbnail) tr r) {x : MoveExchange}
    (hx : x ∈ tr) : ∃ data, x.1 = .uploadThumbnailNsfw args.thumbnailKey data ∨
      x.1 = .uploadThumbnailNsfw args.thumbnailDashKey data := by
  cases thumbnail with
  | none =>
      obtain ⟨rfl, -⟩ := runs_ret.mp h
      cases hx
  | some data =>
      obtain ⟨key, hkey, he⟩ := (uploadThumbnails_only data _).runs h x hx
      rcases List.mem_pair.mp hkey with rfl | rfl
      · exact ⟨data, .inl he⟩
      · exact ⟨data, .inr he⟩

theorem deleteThumbnail_calls {thumbnail : Option Bytes}
    (h : Runs (deleteThumbnail args thumbnail) tr ()) {x : MoveExchange}
    (hx : x ∈ tr) : x.1 = .deleteThumbnail args.thumbnailKey := by
  cases thumbnail with
  | none =>
      obtain ⟨rfl, -⟩ := runs_ret.mp h
      cases hx
  | some data =>
      simp only [deleteThumbnail, bind_eq, issue_bind, pure_eq, runs_call,
        runs_ret] at h
      obtain ⟨r, _, rfl, rfl, -⟩ := h
      exact congrArg Sigma.fst (List.mem_singleton.mp hx)

end VideoStorage.Storage
