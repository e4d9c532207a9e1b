import VideoStorage.Foundation.ObjectStore
import VideoStorage.Foundation.Program
import VideoStorage.Foundation.Text
import VideoStorage.Storage.Objects

/-!
# Profile images

The image of a user is an object under a key with the time of the upload in it, and
the URL of that object is in the profile that the canister keeps. An upload deletes
the user's images before it puts the new one, and a deletion deletes them before it
clears the URL.
-/

namespace VideoStorage.Storage.ProfileImages

open Foundation
open Videogen (Bytes)

/-- `ProfileS3Config`, but for the names under which the bucket is reached. -/
structure ProfileS3Config where
  keyPrefix : String
  publicUrlBase : String
  deriving DecidableEq, Repr

namespace ProfileS3Config

/-- `from_env` where the environment says nothing else. -/
def fromEnv : ProfileS3Config where
  keyPrefix := "yral-profile/users/"
  publicUrlBase := "https://prakash-yral.hel1.your-objectstorage.com"

def objectKey (cfg : ProfileS3Config) (principal : String) (ts : ℕ) : String :=
  cfg.keyPrefix ++ principal ++ "/profile-" ++ toString ts ++ ".jpg"

def userPrefix (cfg : ProfileS3Config) (principal : String) : String :=
  cfg.keyPrefix ++ principal ++ "/profile-"

/-- The public URL of an object. -/
def urlOf (cfg : ProfileS3Config) (key : String) : String :=
  cfg.publicUrlBase ++ "/" ++ key

end ProfileS3Config

/-- What is computed with the help of crates. -/
structure ImageCrates where
  decodeBase64 : String → Except String Bytes
  /-- `process_image`. -/
  processImage : Bytes → Except String Bytes

/-- The part of a list response that is read, and whether more follows it. -/
structure ListPage where
  contents : List (Option String)
  nextContinuationToken : Option String
  deriving DecidableEq, Repr

inductive ProfileCall
  /-- The principal that the wire is verified to be of. -/
  | verifiedIdentity (wire : String)
  | createClient
  | listObjectsV2 (keyPrefix : String)
  | deleteObject (key : String)
  | putObject (key : String) (body : Bytes)
  /-- Seconds since the epoch. -/
  | systemTime
  | buildUserAgent
  /-- `update_profile_details` with this URL and nothing else: the agent may fail,
  and the canister may refuse. -/
  | updateProfileDetails (profilePictureUrl : Option String)
  deriving DecidableEq

@[reducible] def ProfileCall.Reply : ProfileCall → Type
  | .verifiedIdentity _ => Except String String
  | .createClient => Except String Unit
  | .listObjectsV2 _ => Except String ListPage
  | .deleteObject _ => Except String Unit
  | .putObject _ _ => Except String Unit
  | .systemTime => Except String ℕ
  | .buildUserAgent => Except String Unit
  | .updateProfileDetails _ => Except String (Except String Unit)

abbrev Prof : Type → Type := Prog ProfileCall ProfileCall.Reply

abbrev ProfileExchange : Type := Prog.Exchange ProfileCall ProfileCall.Reply

/-- A status code and a text. -/
structure HttpError where
  status : ℕ
  message : String
  deriving DecidableEq, Repr

/-! ## Storage -/

/-- The loop over the objects of the list; the first failure ends it. -/
def deleteListed : List (Option String) → Prof (Except String Unit)
  | [] => pure (.ok ())
  | none :: rest => deleteListed rest
  | some key :: rest => do
      match ← Prog.issue (ProfileCall.deleteObject key) with
      | .error e => pure (.error ("Failed to delete image from S3: " ++ e))
      | .ok () => deleteListed rest

def deleteProfileImages (cfg : ProfileS3Config) (principal : String) :
    Prof (Except String Unit) := do
  match ← Prog.issue (ProfileCall.listObjectsV2 (cfg.userPrefix principal)) with
  | .error e => pure (.error ("Failed to list objects from S3: " ++ e))
  | .ok page => deleteListed page.contents

/-- From the clock on, when the old images are gone. -/
def putProfileImage (cfg : ProfileS3Config) (processed : Bytes) (principal : String) :
    Prof (Except String String) := do
  match ← Prog.issue ProfileCall.systemTime with
  | .error e => pure (.error ("clock error: " ++ e))
  | .ok ts => do
      let key := cfg.objectKey principal ts
      match ← Prog.issue (ProfileCall.putObject key processed) with
      | .error e => pure (.error ("Failed to upload image to S3: " ++ e))
      | .ok () => pure (.ok (cfg.urlOf key))

/-- The images before are deleted first, and it does not matter if that fails. -/
def uploadProfileImage (crates : ImageCrates) (cfg : ProfileS3Config)
    (imageDataBase64 principal : String) : Prof (Except String String) :=
  match crates.decodeBase64 imageDataBase64 with
  | .error e => pure (.error ("Failed to decode base64 image: " ++ e))
  | .ok imageBytes =>
      match crates.processImage imageBytes with
      | .error e => pure (.error e)
      | .ok processed => do
          let _ ← deleteProfileImages cfg principal
          putProfileImage cfg processed principal

/-! ## The handlers -/

def maxBase64Size : ℕ := 7 * 1024 * 1024

/-- What follows the first comma. -/
def stripDataUrl (imageData : String) : String :=
  match imageData.toList.dropWhile (· ≠ ',') with
  | [] => imageData
  | _ :: rest => String.ofList rest

def validateBase64Len (crates : ImageCrates) (base64Data : String) :
    Except HttpError Unit :=
  if base64Data = "" then .error ⟨400, "Image data is empty"⟩
  else if maxBase64Size < base64Data.utf8ByteSize then
    .error ⟨400, "Image too large: " ++
      toString (base64Data.utf8ByteSize / (1024 * 1024)) ++
      "MB. Maximum allowed size is 5MB"⟩
  else
    match crates.decodeBase64 base64Data with
    | .error _ =>
        .error ⟨400, "Invalid image data format. Please upload a valid image"⟩
    | .ok _ => .ok ()

def setCanisterProfileUrl (profilePictureUrl : Option String) :
    Prof (Except HttpError Unit) := do
  match ← Prog.issue ProfileCall.buildUserAgent with
  | .error e => pure (.error ⟨500, "Failed to build user agent: " ++ e⟩)
  | .ok () => do
      match ← Prog.issue (ProfileCall.updateProfileDetails profilePictureUrl) with
      | .ok (.ok ()) => pure (.ok ())
      | .ok (.error e) =>
          if containsText "not authorized" e || containsText "Not authorized" e then
            pure (.error ⟨403, "Not authorized to update profile"⟩)
          else pure (.error ⟨500, "Failed to update profile in canister: " ++ e⟩)
      | .error e => pure (.error ⟨500, "Failed to update profile in canister: " ++ e⟩)

/-- What both handlers begin with: the principal of a verified identity. -/
def identified (wire : String) : Prof (Except HttpError String) := do
  match ← Prog.issue (ProfileCall.verifiedIdentity wire) with
  | .error e => pure (.error ⟨401, "Failed to get user info: " ++ e⟩)
  | .ok principal => pure (.ok principal)

def connected : Prof (Except HttpError Unit) := do
  match ← Prog.issue ProfileCall.createClient with
  | .error e => pure (.error ⟨500, e⟩)
  | .ok () => pure (.ok ())

def handleUploadProfileImage (crates : ImageCrates) (cfg : ProfileS3Config)
    (wire imageData : String) : Prof (Except HttpError String) := do
  match ← identified wire with
  | .error e => pure (.error e)
  | .ok principal =>
      match validateBase64Len crates (stripDataUrl imageData) with
      | .error e => pure (.error e)
      | .ok () => do
          match ← connected with
          | .error e => pure (.error e)
          | .ok () => do
              match ← uploadProfileImage crates cfg (stripDataUrl imageData)
                  principal with
              | .error e =>
                  pure (.error ⟨500, "Failed to upload profile image: " ++ e⟩)
              | .ok url => do
                  match ← setCanisterProfileUrl (some url) with
                  | .error e => pure (.error e)
                  | .ok () => pure (.ok url)

/-- The URL that stands for no picture is the empty one. -/
def handleDeleteProfileImage (cfg : ProfileS3Config) (wire : String) :
    Prof (Except HttpError Unit) := do
  match ← identified wire with
  | .error e => pure (.error e)
  | .ok principal => do
      match ← connected with
      | .error e => pure (.error e)
      | .ok () => do
          match ← deleteProfileImages cfg principal with
          | .error e =>
              pure (.error ⟨500, "Failed to delete profile image: " ++ e⟩)
          | .ok () => setCanisterProfileUrl (some "")

/-! ## What happens to the world -/

/-- An exchange, and whether the call was carried out: one that failed may have
been. -/
structure Happened where
  exchange : ProfileExchange
  applied : Bool

/-- The keys in the bucket and the URL in the canister's profile of the user. -/
structure ProfileWorld where
  objects : Finset String
  profilePictureUrl : Option String

namespace Happened

def event (x : Happened) : StoreEvent String :=
  match x.exchange with
  | ⟨.deleteObject key, _⟩ => if x.applied then .deleted key else .other
  | ⟨.putObject key _, _⟩ => if x.applied then .put key else .other
  | _ => .other

/-- The URL that the call wrote. -/
def wroteUrl (x : Happened) : Option String :=
  match x.exchange with
  | ⟨.updateProfileDetails url, _⟩ => if x.applied then url else none
  | _ => none

end Happened

namespace ProfileWorld

def apply (w : ProfileWorld) (x : Happened) : ProfileWorld where
  objects := x.event.apply w.objects
  profilePictureUrl := x.wroteUrl.or w.profilePictureUrl

def after (w : ProfileWorld) (xs : List Happened) : ProfileWorld :=
  xs.foldl apply w

end ProfileWorld

/-- One page of what is under a prefix: a thousand keys at most, and a token exactly
if that is not all. -/
structure ListPage.Lists (page : ListPage) (keyPrefix : String)
    (objects : Finset String) : Prop where
  keys : ∀ key, some key ∈ page.contents →
    key ∈ objects ∧ startsWith keyPrefix key = true
  length : page.contents.length ≤ 1000
  last : page.nextContinuationToken = none ↔
    ∀ key ∈ objects, startsWith keyPrefix key = true → some key ∈ page.contents

/-- The replies tell the truth about the world. -/
def Happened.Truthful (w : ProfileWorld) (x : Happened) : Prop :=
  match x.exchange with
  | ⟨.listObjectsV2 keyPrefix, .ok page⟩ => page.Lists keyPrefix w.objects
  | ⟨.deleteObject _, .ok ()⟩ => x.applied = true
  | ⟨.putObject _ _, .ok ()⟩ => x.applied = true
  | ⟨.updateProfileDetails _, .ok (.ok ())⟩ => x.applied = true
  | ⟨.updateProfileDetails _, .ok (.error _)⟩ => x.applied = false
  | _ => True

def Truthful : ProfileWorld → List Happened → Prop
  | _, [] => True
  | w, x :: xs => x.Truthful w ∧ Truthful (w.apply x) xs

/-! ## Reading a history -/

section History

variable {w : ProfileWorld} {x : Happened} {xs ys : List Happened}

theorem objects_after :
    (w.after xs).objects = StoreEvent.after w.objects (xs.map Happened.event) := by
  induction xs generalizing w with
  | nil => rfl
  | cons x xs ih => exact ih

/-- The URL is the one that was there or one that was written. -/
theorem url_after (w : ProfileWorld) (xs : List Happened) :
    (w.after xs).profilePictureUrl = w.profilePictureUrl ∨
      ∃ x ∈ xs, ∃ url, x.wroteUrl = some url ∧
        (w.after xs).profilePictureUrl = some url := by
  induction xs generalizing w with
  | nil => exact .inl rfl
  | cons x xs ih =>
      rcases ih (w.apply x) with hbefore | ⟨y, hy, url, hwrote, hafter⟩
      · cases hx : x.wroteUrl with
        | none =>
            refine .inl (hbefore.trans ?_)
            simp only [ProfileWorld.apply, hx, Option.none_or]
        | some url =>
            refine .inr ⟨x, List.mem_cons_self, url, hx, hbefore.trans ?_⟩
            simp only [ProfileWorld.apply, hx, Option.some_or]
      · exact .inr ⟨y, List.mem_cons_of_mem _ hy, url, hwrote, hafter⟩

theorem Truthful.mem (h : Truthful w xs) (hx : x ∈ xs) : ∃ w', x.Truthful w' := by
  induction xs generalizing w with
  | nil => cases hx
  | cons y xs ih =>
      rcases List.mem_cons.mp hx with rfl | hx
      · exact ⟨w, h.1⟩
      · exact ih h.2 hx

theorem event_eq_deleted {key : String} :
    x.event = .deleted key ↔
      (∃ r, x.exchange = ⟨.deleteObject key, r⟩) ∧ x.applied = true := by
  obtain ⟨⟨call, reply⟩, applied⟩ := x
  cases call <;> cases applied <;> simp [Happened.event]

theorem event_eq_put {key : String} :
    x.event = .put key ↔
      (∃ body r, x.exchange = ⟨.putObject key body, r⟩) ∧ x.applied = true := by
  obtain ⟨⟨call, reply⟩, applied⟩ := x
  cases call <;> cases applied <;> simp [Happened.event]

/-- Calls of a kind that excludes puts put nothing. -/
theorem put_notMem {P : ProfileCall → Prop} (hP : ∀ key body, ¬ P (.putObject key body))
    (h : ∀ y ∈ xs.map (·.exchange), P y.1) (key : String) :
    StoreEvent.put key ∉ xs.map Happened.event := by
  intro hput
  obtain ⟨x, hx, hevent⟩ := List.mem_map.mp hput
  obtain ⟨⟨body, r, hexchange⟩, -⟩ := event_eq_put.mp hevent
  have hcall := h _ (List.mem_map_of_mem hx)
  rw [hexchange] at hcall
  exact hP key body hcall

theorem deleted_notMem {P : ProfileCall → Prop} (hP : ∀ key, ¬ P (.deleteObject key))
    (h : ∀ y ∈ xs.map (·.exchange), P y.1) (key : String) :
    StoreEvent.deleted key ∉ xs.map Happened.event := by
  intro hdeleted
  obtain ⟨x, hx, hevent⟩ := List.mem_map.mp hdeleted
  obtain ⟨⟨r, hexchange⟩, -⟩ := event_eq_deleted.mp hevent
  have hcall := h _ (List.mem_map_of_mem hx)
  rw [hexchange] at hcall
  exact hP key hcall

/-- A deletion or a put that succeeded was carried out. -/
theorem Truthful.applied (h : Truthful w xs) (hx : x ∈ xs)
    (hok : (∃ key, x.exchange = ⟨.deleteObject key, .ok ()⟩) ∨
      ∃ key body, x.exchange = ⟨.putObject key body, .ok ()⟩) : x.applied = true := by
  obtain ⟨w', hw'⟩ := h.mem hx
  unfold Happened.Truthful at hw'
  rcases hok with ⟨key, hexchange⟩ | ⟨key, body, hexchange⟩
  · rw [hexchange] at hw'
    exact hw'
  · rw [hexchange] at hw'
    exact hw'

theorem Truthful.deleted {key : String} (h : Truthful w xs)
    (hmem : ⟨.deleteObject key, .ok ()⟩ ∈ xs.map (·.exchange)) :
    StoreEvent.deleted key ∈ xs.map Happened.event := by
  obtain ⟨x, hx, hexchange⟩ := List.mem_map.mp hmem
  have happlied := h.applied hx (.inl ⟨key, hexchange⟩)
  exact List.mem_map.mpr ⟨x, hx, event_eq_deleted.mpr ⟨⟨_, hexchange⟩, happlied⟩⟩

theorem Truthful.put {key : String} {body : Bytes} (h : Truthful w xs)
    (hmem : ⟨.putObject key body, .ok ()⟩ ∈ xs.map (·.exchange)) :
    StoreEvent.put key ∈ xs.map Happened.event := by
  obtain ⟨x, hx, hexchange⟩ := List.mem_map.mp hmem
  have happlied := h.applied hx (.inr ⟨key, body, hexchange⟩)
  exact List.mem_map.mpr ⟨x, hx, event_eq_put.mpr ⟨⟨_, _, hexchange⟩, happlied⟩⟩

end History

end VideoStorage.Storage.ProfileImages
