import VideoStorage.Foundation.Pool
import VideoStorage.Storage.Objects

/-!
# Finalizing an upload

`handler_raw_finalize` fetches the pending video and its thumbnail from Storj
into files under `/tmp`, reads them back and uploads them for good. The files'
names depend on the publisher and the video alone, so requests share them, and
whether a download has succeeded is told from the file being there.
-/

namespace VideoStorage.Storage

open Foundation Prog
open Videogen (Bytes)

/-! ## The request -/

structure RawFinalizeParams where
  publisherUserId : String
  videoId : String
  isNsfw : Bool
  deriving DecidableEq, Repr

structure RawFinalizeRequest where
  params : RawFinalizeParams
  metadata : Metadata := []
  deriving DecidableEq, Repr

/-- What is fetched into a file of its own. -/
inductive TempObject
  | video
  | thumbnail
  deriving DecidableEq, Repr

namespace TempObject

/-- The word of the error message. -/
def name : TempObject → String
  | .video => "video"
  | .thumbnail => "thumbnail"

/-- The object that `src_video_path` or `src_thumbnail_path` names. -/
def sourceKey (params : RawFinalizeParams) : TempObject → String
  | .video => videoKey params.publisherUserId params.videoId
  | .thumbnail => thumbnailKey params.publisherUserId params.videoId

/-- `temp_video_file` and `temp_thumbnail_file`. -/
def tempFile (params : RawFinalizeParams) : TempObject → String
  | .video => "/tmp/storj-finalize-" ++ params.publisherUserId ++ "-" ++
      params.videoId ++ ".mp4"
  | .thumbnail => "/tmp/storj-finalize-" ++ params.publisherUserId ++ "-" ++
      params.videoId ++ "_thumbnail.png"

end TempObject

/-! ## The surroundings -/

inductive UplinkError
  /-- The command did not start or could not be waited for. -/
  | io (message : String)
  | status (stderr : String)
  deriving DecidableEq, Repr

inductive FinalizeCall
  /-- `uplink cp` from Storj to a file; it succeeds with the object's bytes. -/
  | uplinkCp (bucket : StorjBucket) (key path : String)
  /-- With `unwrap_or(false)`. -/
  | tryExists (path : String)
  | readFile (path : String)
  /-- `try_join!`: the uploads side by side, up to the first error. -/
  | tryJoin (uploads : List Upload)
  | removeFile (path : String)

@[reducible] def FinalizeCall.Reply : FinalizeCall → Type
  | .uplinkCp _ _ _ => Except UplinkError Bytes
  | .tryExists _ => Bool
  | .readFile _ => Except String Bytes
  | .tryJoin _ => Except StorageError Unit
  | .removeFile _ => Unit

abbrev Finalize : Type → Type := Prog FinalizeCall FinalizeCall.Reply

abbrev FinalizeExchange : Type := Prog.Exchange FinalizeCall FinalizeCall.Reply

/-! ## The handler -/

def maxRetries : ℕ := 3

/-- The attempts that are left; the last error text if all of them fail. -/
def downloadAttempts (bucket : StorjBucket) (key path : String) :
    ℕ → String → Finalize (Except StorageError String)
  | 0, lastError => pure (.ok lastError)
  | n + 1, lastError => do
      match ← Prog.issue (FinalizeCall.uplinkCp bucket key path) with
      | .ok _ => pure (.ok lastError)
      | .error (.io e) => pure (.error (.io e))
      | .error (.status stderr) => downloadAttempts bucket key path n stderr

/-- The download, then the look whether the file is there. -/
def fetch (params : RawFinalizeParams) (object : TempObject) :
    Finalize (Except StorageError Unit) := do
  match ← downloadAttempts (.of params.isNsfw) (object.sourceKey params)
      (object.tempFile params) maxRetries "" with
  | .error e => pure (.error e)
  | .ok lastError => do
      match ← Prog.issue (FinalizeCall.tryExists (object.tempFile params)) with
      | true => pure (.ok ())
      | false => pure (.error (.io ("Failed to download " ++ object.name ++
          " from Storj after " ++ toString maxRetries ++
          " retries. Last error: " ++ lastError)))

/-- NSFW videos are not kept on S3. -/
def finalUploads (request : RawFinalizeRequest)
    (fileData thumbnailData : Bytes) : List Upload :=
  let p := request.params.publisherUserId
  let v := request.params.videoId
  if request.params.isNsfw then
    [.uploadToStorj p v request.metadata fileData true,
      .uploadThumbnailToStorj p v thumbnailData true]
  else
    [.uploadToStorj p v request.metadata fileData false,
      .uploadThumbnailToStorj p v thumbnailData false,
      .uploadToS3 p v request.metadata fileData,
      .uploadThumbnailToS3 p v thumbnailData]

structure FinalizeResponse where
  status : String
  message : String
  deriving DecidableEq, Repr

def finalizeResponse : FinalizeResponse where
  status := "completed"
  message := "Video finalized successfully with metadata."

/-- Both files read and uploaded; then they are removed, if that succeeds. -/
def reupload (request : RawFinalizeRequest) :
    Finalize (Except StorageError FinalizeResponse) := do
  let videoFile := TempObject.video.tempFile request.params
  let thumbnailFile := TempObject.thumbnail.tempFile request.params
  match ← Prog.issue (FinalizeCall.readFile videoFile) with
  | .error e => pure (.error (.io e))
  | .ok fileData => do
      match ← Prog.issue (FinalizeCall.readFile thumbnailFile) with
      | .error e => pure (.error (.io e))
      | .ok thumbnailData => do
          match ← Prog.issue (FinalizeCall.tryJoin
              (finalUploads request fileData thumbnailData)) with
          | .error e => pure (.error e)
          | .ok () => do
              Prog.issue (FinalizeCall.removeFile videoFile)
              Prog.issue (FinalizeCall.removeFile thumbnailFile)
              pure (.ok finalizeResponse)

def handlerRawFinalize (request : RawFinalizeRequest) :
    Finalize (Except StorageError FinalizeResponse) := do
  match ← fetch request.params .video with
  | .error e => pure (.error e)
  | .ok () => do
      match ← fetch request.params .thumbnail with
      | .error e => pure (.error e)
      | .ok () => reupload request

/-! ## The files -/

/-- What lies under `/tmp`, by file. -/
abbrev Files : Type := String → Option Bytes

/-- What a call does to the files; `resolve` is the file that a path leads to.
A download that fails leaves its file as it was. -/
def FinalizeCall.Acts (resolve : String → String) (files files' : Files) :
    (e : FinalizeCall) → e.Reply → Prop
  | .uplinkCp _ _ path, .ok data =>
      files' = Function.update files (resolve path) (some data)
  | .uplinkCp _ _ _, .error _ => files' = files
  | .tryExists path, found =>
      files' = files ∧ (found = true → files (resolve path) ≠ none)
  | .readFile path, .ok data => files' = files ∧ files (resolve path) = some data
  | .readFile _, .error _ => files' = files
  | .tryJoin _, _ => files' = files
  | .removeFile path, () =>
      files' = files ∨ files' = Function.update files (resolve path) none

/-- The requests side by side; nothing else touches their files. -/
def finalizeSystem (resolve : String → String) :
    PoolSystem FinalizeCall FinalizeCall.Reply
      (Except StorageError FinalizeResponse) RawFinalizeRequest Files Empty where
  body := handlerRawFinalize
  acts files x files' := x.1.Acts resolve files files' x.2
  moves _ _ _ := False

abbrev FinalizePool : Type :=
  Pool FinalizeCall FinalizeCall.Reply (Except StorageError FinalizeResponse)
    RawFinalizeRequest Files

abbrev FinalizeEvent : Type :=
  PoolEvent FinalizeCall FinalizeCall.Reply RawFinalizeRequest Empty

end VideoStorage.Storage
