import VideoStorage.Videogen.Types

/-!
# Stored objects

A video is stored as an mp4 and its thumbnail under two names. SFW videos are
kept in the Storj SFW bucket and on Hetzner S3, NSFW videos in the Storj NSFW
bucket alone.
-/

namespace VideoStorage.Storage

open Videogen (Bytes)

inductive StorjBucket
  /-- `STORJ_SFW_BUCKET`, reached with `MIRROR_ACCESS_GRANT`. -/
  | sfw
  /-- `YRAL_NSFW_VIDEOS`, reached with `ACCESS_GRANT_NSFW`. -/
  | nsfw
  deriving DecidableEq, Repr

/-- The bucket of an upload. -/
def StorjBucket.of (isNsfw : Bool) : StorjBucket := if isNsfw then .nsfw else .sfw

inductive Location
  | storj (bucket : StorjBucket) (key : String)
  | s3 (key : String)
  deriving DecidableEq, Repr

def videoKey (publisherUserId videoId : String) : String :=
  publisherUserId ++ "/" ++ videoId ++ ".mp4"

def thumbnailKey (publisherUserId videoId : String) : String :=
  publisherUserId ++ "/" ++ videoId ++ "_thumbnail.png"

def thumbnailDashKey (publisherUserId videoId : String) : String :=
  publisherUserId ++ "/" ++ videoId ++ "-thumbnail.png"

/-- A `BTreeMap` of texts, by its entries. -/
abbrev Metadata : Type := List (String × String)

inductive Upload
  | uploadToStorj (publisherUserId videoId : String) (metadata : Metadata)
      (videoData : Bytes) (isNsfw : Bool)
  | uploadThumbnailToStorj (publisherUserId videoId : String)
      (thumbnailData : Bytes) (isNsfw : Bool)
  | uploadToS3 (publisherUserId videoId : String) (metadata : Metadata)
      (videoData : Bytes)
  | uploadThumbnailToS3 (publisherUserId videoId : String)
      (thumbnailData : Bytes)
  deriving DecidableEq, Repr

namespace Upload

/-- Where an upload that succeeds puts its data. -/
def locations : Upload → List Location
  | .uploadToStorj p v _ _ isNsfw => [.storj (.of isNsfw) (videoKey p v)]
  | .uploadThumbnailToStorj p v _ isNsfw =>
      [.storj (.of isNsfw) (thumbnailKey p v),
        .storj (.of isNsfw) (thumbnailDashKey p v)]
  | .uploadToS3 p v _ _ => [.s3 (videoKey p v)]
  | .uploadThumbnailToS3 p v _ =>
      [.s3 (thumbnailKey p v), .s3 (thumbnailDashKey p v)]

def data : Upload → Bytes
  | .uploadToStorj _ _ _ videoData _ => videoData
  | .uploadThumbnailToStorj _ _ thumbnailData _ => thumbnailData
  | .uploadToS3 _ _ _ videoData => videoData
  | .uploadThumbnailToS3 _ _ thumbnailData => thumbnailData

end Upload

/-- `Error` of either handler. -/
inductive StorageError
  | io (message : String)
  | s3 (message : String)
  deriving DecidableEq, Repr

/-- The body that `into_response` sends with a 500. -/
def StorageError.message : StorageError → String
  | .io _ => "Internal server error. Check server logs."
  | .s3 _ => "S3 storage operation failed. Check server logs."

end VideoStorage.Storage
