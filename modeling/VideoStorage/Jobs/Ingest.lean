import VideoStorage.MediaIndex.Repo

/-!
# The completion registration

`resolve_source` reads a storage triple off the download URL of a finished
video; `register_master_row` upserts the master row for it and commits. It
appends nothing to the feed.
-/

namespace VideoStorage.Jobs.Ingest

open Foundation MediaIndex

variable {O : OtherWork}

structure VideoSource where
  storageProvider : String
  bucket : String
  objectKey : String
  deriving DecidableEq

inductive ResolveError
  | unknownSource (bucketUrl : String)
  deriving DecidableEq

/-- `split_once`, after the first occurrence of the marker. -/
def splitOnce (marker : List Char) : List Char → Option (List Char × List Char)
  | [] => if marker = [] then some ([], []) else none
  | c :: cs =>
      if marker.isPrefixOf (c :: cs) then
        some ([], (c :: cs).drop marker.length)
      else (splitOnce marker cs).map fun parts => (c :: parts.1, parts.2)

/-- `trim_matches('/')`. -/
def trimSlashes (s : List Char) : List Char :=
  ((s.dropWhile (· = '/')).reverse.dropWhile (· = '/')).reverse

def resolveSource (bucketUrl : String) : Except ResolveError VideoSource :=
  match splitOnce "/yral-sfw/".toList bucketUrl.toList with
  | none => .error (.unknownSource bucketUrl)
  | some (_, tail) =>
      let key := trimSlashes (tail.takeWhile fun c => c != '?' && c != '#')
      if key.isEmpty then .error (.unknownSource bucketUrl)
      else .ok ⟨"storj", "yral-sfw", .ofList key⟩

/-- What `register_master_row` upserts. -/
def masterInput (videoId : String) (src : VideoSource) : ServableVideoInput where
  videoId := videoId
  publisherUserId := none
  postId := none
  sourceKind := "videogen"
  sourceRef := some videoId
  servableStatus := "servable"
  nsfwState := none
  storageProvider := some src.storageProvider
  bucket := some src.bucket
  objectKey := some src.objectKey
  canonicalUrl := none
  thumbnailKey := none
  durationMs := none
  width := none
  height := none
  fps := none
  container := none
  videoCodec := none
  audioCodec := none
  moovAtomFront := none
  canonicalEncodingVersion := none
  discoveredFrom := "videogen_completion"

/-- The transaction of `register_master_row`, which drops what the upsert
answers. -/
def registerMasterTxn (videoId : String) (src : VideoSource) :
    MediaTxn O ServableVideoUpsertOutcome :=
  upsertServableVideoTxn (masterInput videoId src)

/-- A share link resolves to the key after the bucket, without its query. -/
example : resolveSource "https://link/raw/t/yral-sfw/u/v.mp4?wrap=0"
    = .ok ⟨"storj", "yral-sfw", "u/v.mp4"⟩ := by decide

end VideoStorage.Jobs.Ingest
