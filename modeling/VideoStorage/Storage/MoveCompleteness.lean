import VideoStorage.Storage.Finalize
import VideoStorage.Storage.MoveToNsfw

/-!
# What a move leaves behind

A finalized SFW video is six objects, in two stores and under three names. A
move that reports "moved" has stored the video in the NSFW bucket, but deletes
two of the six at most (`moved_residue`), so the move is complete only when it
fails (`move_complete_iff`).
-/

namespace VideoStorage.Storage

open Foundation Prog
open Videogen (Bytes)

variable {args : MoveArgs} {videoData : Bytes} {store store' : ObjectStore}
  {tr : List MoveExchange} {out : MoveResult}

/-! ## The six objects -/

/-- The names of a video in one store. -/
def MoveArgs.keys (args : MoveArgs) : List String :=
  [args.videoKey, args.thumbnailKey, args.thumbnailDashKey]

def sfwObjects (args : MoveArgs) : List Location :=
  args.keys.map (.storj .sfw) ++ args.keys.map .s3

/-- Everything that a successful SFW finalize uploads is there. -/
def FinalizedSfw (args : MoveArgs) (videoData : Bytes) (store : ObjectStore) :
    Prop :=
  ∃ metadata thumbnailData, ∀ upload ∈ finalUploads
    ⟨⟨args.publisherUserId, args.videoId, false⟩, metadata⟩ videoData
      thumbnailData,
    ∀ l ∈ upload.locations, store l = some upload.data

theorem FinalizedSfw.present (h : FinalizedSfw args videoData store)
    {l : Location} (hl : l ∈ sfwObjects args) : store l ≠ none := by
  obtain ⟨metadata, thumbnailData, h⟩ := h
  have hupload : ∃ upload ∈ finalUploads
      ⟨⟨args.publisherUserId, args.videoId, false⟩, metadata⟩ videoData
        thumbnailData, l ∈ upload.locations := by
    rcases List.mem_append.mp hl with hl | hl
    · obtain ⟨key, hkey, rfl⟩ := List.mem_map.mp hl
      rcases List.mem_cons.mp hkey with rfl | hkey
      · exact ⟨_, .head _, .head _⟩
      · exact ⟨_, .tail _ (.head _), List.mem_map_of_mem hkey⟩
    · obtain ⟨key, hkey, rfl⟩ := List.mem_map.mp hl
      rcases List.mem_cons.mp hkey with rfl | hkey
      · exact ⟨_, .tail _ (.tail _ (.head _)), .head _⟩
      · exact ⟨_, .tail _ (.tail _ (.tail _ (.head _))), List.mem_map_of_mem hkey⟩
  obtain ⟨upload, hmem, hl⟩ := hupload
  rw [h upload hmem l hl]
  exact Option.some_ne_none _

theorem FinalizedSfw.s3_video (h : FinalizedSfw args videoData store) :
    store (.s3 args.videoKey) = some videoData := by
  obtain ⟨metadata, thumbnailData, h⟩ := h
  exact h _ (.tail _ (.tail _ (.head _))) _ (.head _)

/-! ## The names -/

theorem thumbnailKey_ne_videoKey : args.thumbnailKey ≠ args.videoKey := by
  intro h
  have hpng : args.thumbnailKey.toList.getLast? = some 'g' :=
    getLast?_toList_append (by decide)
  have hmp4 : args.videoKey.toList.getLast? = some '4' :=
    getLast?_toList_append (by decide)
  rw [h, hmp4] at hpng
  cases hpng

theorem thumbnailDashKey_ne_videoKey :
    args.thumbnailDashKey ≠ args.videoKey := by
  intro h
  have hpng : args.thumbnailDashKey.toList.getLast? = some 'g' :=
    getLast?_toList_append (by decide)
  have hmp4 : args.videoKey.toList.getLast? = some '4' :=
    getLast?_toList_append (by decide)
  rw [h, hmp4] at hpng
  cases hpng

theorem thumbnailDashKey_ne_thumbnailKey :
    args.thumbnailDashKey ≠ args.thumbnailKey := by
  intro h
  have hsuffix : "-thumbnail.png".toList = "_thumbnail.png".toList := by
    have hlist := congrArg String.toList h
    simp only [MoveArgs.thumbnailDashKey, MoveArgs.thumbnailKey, thumbnailDashKey,
      thumbnailKey, String.toList_append] at hlist
    exact List.append_cancel_left hlist
  exact absurd hsuffix (by decide)

/-! ## What a run leaves -/

/-- The calls that come after the upload of the video. -/
theorem rest_touches {thumbnail : Option Bytes}
    {thumbnails deleted : List MoveExchange}
    (hthumbnails : Runs (moveThumbnails args thumbnail) thumbnails (.ok ()))
    (hdeleted : Runs (deleteThumbnail args thumbnail) deleted ())
    {x : MoveExchange}
    (hx : x ∈ thumbnails ++ ⟨.deleteVideo args.videoKey, .ok ()⟩ :: deleted) :
    x.1.touches ∈ [some (.storj .nsfw args.thumbnailKey),
      some (.storj .nsfw args.thumbnailDashKey), some (.s3 args.videoKey),
      some (.s3 args.thumbnailKey)] := by
  rcases List.mem_append.mp hx with hx | hx
  · obtain ⟨data, hcall | hcall⟩ := moveThumbnails_calls hthumbnails hx
    · rw [hcall]
      exact .head _
    · rw [hcall]
      exact .tail _ (.head _)
  · rcases List.mem_cons.mp hx with rfl | hx
    · exact .tail _ (.tail _ (.head _))
    · rw [deleteThumbnail_calls hdeleted hx]
      exact .tail _ (.tail _ (.tail _ (.head _)))

/-- The store once the video is uploaded: its bytes are those of S3. -/
theorem uploading_acts {data : Bytes} {thumbnail : Except String Bytes}
    {rest : List MoveExchange}
    (h : Trace MoveCall.Acts store
      (uploading args data thumbnail (.ok true) ++ rest) store') :
    store (.s3 args.videoKey) = some data ∧
    ∃ store₁, Trace MoveCall.Acts store₁ rest store' ∧
      store₁ (.storj .nsfw args.videoKey) = some data ∧
      ∀ l, l ≠ .storj .nsfw args.videoKey → store₁ l = store l := by
  obtain ⟨store₁, hupload, hrest⟩ := h.of_append
  have hframe : ∀ l, l ≠ .storj .nsfw args.videoKey → store₁ l = store l := by
    intro l hl
    refine acts_frame hupload fun x hx => ?_
    rcases List.mem_cons.mp hx with rfl | hx
    · exact nofun
    rcases List.mem_pair.mp hx with rfl | rfl
    · exact nofun
    · exact fun h => hl (Option.some.inj h).symm
  obtain ⟨⟩ | ⟨hvideo, hthumbnail⟩ := hupload
  obtain ⟨⟩ | ⟨hthumbnail, hupload⟩ := hthumbnail
  obtain ⟨⟩ | ⟨hupload, hnil⟩ := hupload
  cases hnil
  exact ⟨hvideo.achieves, store₁, hrest, hupload.achieves, hframe⟩

/-- What a move leaves where it was. -/
def leftBehind (args : MoveArgs) : List Location :=
  args.keys.map (.storj .sfw) ++ [.s3 args.thumbnailDashKey]

/-- **A move's residue**: the video is in the NSFW bucket and gone from S3, and
four of the six SFW objects are untouched. -/
theorem moved_residue (hfinal : FinalizedSfw args videoData store)
    (hrun : Runs (moveToNsfw args) tr (.ok moved))
    (hacts : Trace MoveCall.Acts store tr store') :
    store' (.storj .nsfw args.videoKey) = some videoData ∧
    store' (.s3 args.videoKey) = none ∧
    ∀ l ∈ leftBehind args, store' l = store l := by
  generalize hout : Except.ok moved = out at hrun
  cases moveToNsfw_runs hrun with
  | noVideo e => cases hout
  | noUpload data thumbnail e => cases hout
  | refused data thumbnail => exact absurd hout (by decide)
  | noThumbnails data thumbnail thumbnails e h => cases hout
  | notDeleted data thumbnail thumbnails h e => cases hout
  | moved data thumbnail thumbnails deleted h hdeleted =>
      obtain ⟨hs3, store₁, hrest, hnsfw, hframe⟩ := uploading_acts hacts
      obtain rfl := Option.some.inj (hfinal.s3_video.symm.trans hs3)
      -- behind the upload only thumbnails and the video in S3 are touched
      have htouches := fun x => rest_touches h hdeleted (x := x)
      have hne_thumbnail := @thumbnailKey_ne_videoKey args
      have hne_dash := @thumbnailDashKey_ne_videoKey args
      have hne := @thumbnailDashKey_ne_thumbnailKey args
      refine ⟨?_, ?_, ?_⟩
      · rw [← hnsfw]
        refine acts_frame hrest fun x hx htouch => ?_
        have hmem := htouches x hx
        simp [htouch, hne_thumbnail.symm, hne_dash.symm] at hmem
      -- the video is deleted, and nothing puts it back
      · obtain ⟨store₂, -, hdelete⟩ := hrest.of_append
        obtain ⟨⟩ | ⟨hvideo, hdelete⟩ := hdelete
        have hgone := hvideo.achieves
        refine (acts_frame hdelete fun x hx htouch => ?_).trans hgone
        rw [deleteThumbnail_calls hdeleted hx] at htouch
        exact hne_thumbnail (Location.s3.inj (Option.some.inj htouch))
      · intro l hl
        refine (acts_frame hrest fun x hx htouch => ?_).trans (hframe l ?_)
        · have hmem := htouches x hx
          rcases List.mem_append.mp hl with hl | hl
          · obtain ⟨key, -, rfl⟩ := List.mem_map.mp hl
            simp [htouch] at hmem
          · obtain rfl := List.mem_singleton.mp hl
            simp [htouch, hne, hne_dash] at hmem
        · rcases List.mem_append.mp hl with hl | hl
          · obtain ⟨key, -, rfl⟩ := List.mem_map.mp hl
            exact nofun
          · obtain rfl := List.mem_singleton.mp hl
            exact nofun

/-! ## Completeness -/

/-- The upload of the video to the NSFW bucket has succeeded. -/
def Uploaded (args : MoveArgs) (tr : List MoveExchange) : Prop :=
  ∃ data, ⟨.uploadVideoNsfw args.videoKey data, .ok true⟩ ∈ tr

/-- What a move is to do with a finalized video. -/
structure MoveComplete (args : MoveArgs) (videoData : Bytes)
    (store : ObjectStore) (tr : List MoveExchange) (out : MoveResult)
    (store' : ObjectStore) : Prop where
  gone : out = .ok moved → ∀ l ∈ sfwObjects args, store' l = none
  held : out = .ok moved → store' (.storj .nsfw args.videoKey) = some videoData
  /-- Nothing is deleted by a move that fails before the upload succeeded. -/
  kept : ¬ Uploaded args tr → ∀ l ∈ sfwObjects args, store' l = store l

/-- A reply that ends the move. -/
def Fatal : MoveExchange → Prop
  | ⟨.downloadVideo _, .error _⟩ => True
  | ⟨.uploadVideoNsfw _ _, r⟩ => r ≠ .ok true
  | ⟨.uploadThumbnailNsfw _ _, .error _⟩ => True
  | ⟨.deleteVideo _, .error _⟩ => True
  | _ => False

theorem uploadThumbnails_fatal {data : Bytes} {keys : List String}
    {r : Except StorageError Unit} (h : Runs (uploadThumbnails data keys) tr r) :
    r = .ok () ↔ ∀ x ∈ tr, ¬ Fatal x := by
  induction keys generalizing tr with
  | nil =>
      obtain ⟨rfl, rfl⟩ := runs_ret.mp h
      simp
  | cons key keys ih =>
      simp only [uploadThumbnails, bind_eq, issue_bind, pure_eq, runs_call] at h
      obtain ⟨reply, tr', rfl, h⟩ := h
      rcases reply with e | ok
      · obtain ⟨rfl, rfl⟩ := runs_ret.mp h
        constructor
        · intro hr
          cases hr
        · exact fun hx => absurd trivial (hx _ List.mem_cons_self)
      · rw [ih h, List.forall_mem_cons]
        exact ⟨fun hx => ⟨id, hx⟩, fun hx => hx.2⟩

theorem moveThumbnails_fatal {thumbnail : Option Bytes}
    {r : Except StorageError Unit}
    (h : Runs (moveThumbnails args thumbnail) tr r) :
    r = .ok () ↔ ∀ x ∈ tr, ¬ Fatal x := by
  cases thumbnail with
  | none =>
      obtain ⟨rfl, rfl⟩ := runs_ret.mp h
      simp
  | some data => exact uploadThumbnails_fatal h

/-- A move reports "moved" unless a reply ended it. -/
theorem moved_iff (h : MoveRun args tr out) :
    out = .ok moved ↔ ∀ x ∈ tr, ¬ Fatal x := by
  cases h with
  | noVideo e =>
      exact ⟨nofun, fun hx => absurd trivial (hx _ List.mem_cons_self)⟩
  | noUpload data thumbnail e =>
      refine ⟨nofun, fun hx => ?_⟩
      have hfatal := hx _ (.tail _ (.tail _ (.head _)))
      exact absurd nofun hfatal
  | refused data thumbnail =>
      refine ⟨fun h => absurd h (by decide), fun hx => ?_⟩
      have hfatal := hx _ (.tail _ (.tail _ (.head _)))
      exact absurd nofun hfatal
  | noThumbnails data thumbnail thumbnails e h =>
      refine ⟨nofun, fun hx => ?_⟩
      have hok := (moveThumbnails_fatal h).mpr fun x hmem =>
        hx x (List.mem_append_right _ hmem)
      cases hok
  | notDeleted data thumbnail thumbnails h e =>
      refine ⟨nofun, fun hx => ?_⟩
      have hlast := hx ⟨.deleteVideo args.videoKey, .error e⟩ (by simp)
      exact absurd trivial hlast
  -- of a run that moved, the failures left are ones it goes on from
  | moved data thumbnail thumbnails deleted h hdeleted =>
      refine ⟨fun _ x hx => ?_, fun _ => rfl⟩
      rcases List.mem_append.mp hx with hx | hx
      · rcases List.mem_cons.mp hx with rfl | hx
        · exact id
        rcases List.mem_pair.mp hx with rfl | rfl
        · cases thumbnail <;> exact id
        · exact fun hne => hne rfl
      rcases List.mem_append.mp hx with hx | hx
      · exact (moveThumbnails_fatal h).mp rfl x hx
      rcases List.mem_cons.mp hx with rfl | hx
      · exact id
      · obtain ⟨e, r⟩ := x
        obtain rfl : e = .deleteThumbnail args.thumbnailKey :=
          deleteThumbnail_calls hdeleted hx
        exact id

/-- Before the upload has succeeded no object of S3 or of the SFW bucket is
touched. -/
theorem MoveRun.kept (h : MoveRun args tr out) (hnot : ¬ Uploaded args tr)
    (hacts : Trace MoveCall.Acts store tr store') {l : Location}
    (hl : l ∈ sfwObjects args) : store' l = store l := by
  have hsfw : l ≠ .storj .nsfw args.videoKey := by
    rintro rfl
    simp [sfwObjects] at hl
  have hupload : ∀ (data : Bytes) thumbnail r, ∀ x ∈ uploading args data
      thumbnail r, x.1.touches ≠ some l := by
    intro data thumbnail r x hx
    rcases List.mem_cons.mp hx with rfl | hx
    · exact nofun
    rcases List.mem_pair.mp hx with rfl | rfl
    · exact nofun
    · exact fun h => hsfw (Option.some.inj h).symm
  have hsucceeds : ∀ (data : Bytes) thumbnail rest,
      Uploaded args (uploading args data thumbnail (.ok true) ++ rest) :=
    fun data thumbnail rest => ⟨data, .tail _ (.tail _ (.head _))⟩
  cases h with
  | noVideo e =>
      refine acts_frame hacts fun x hx => ?_
      obtain rfl := List.mem_singleton.mp hx
      exact nofun
  | noUpload data thumbnail e => exact acts_frame hacts (hupload _ _ _)
  | refused data thumbnail => exact acts_frame hacts (hupload _ _ _)
  | noThumbnails data thumbnail thumbnails e h =>
      exact absurd (hsucceeds _ _ _) hnot
  | notDeleted data thumbnail thumbnails h e =>
      exact absurd (hsucceeds _ _ _) hnot
  | moved data thumbnail thumbnails deleted h hdeleted =>
      exact absurd (hsucceeds _ _ _) hnot

/-- **The move is complete only if it fails**: a download, an upload or the
deletion of the video that does not succeed. -/
theorem move_complete_iff (args : MoveArgs) (videoData : Bytes)
    (store store' : ObjectStore) (hfinal : FinalizedSfw args videoData store)
    {tr : List MoveExchange} {out : MoveResult}
    (hrun : Runs (moveToNsfw args) tr out)
    (hacts : Trace MoveCall.Acts store tr store') :
    MoveComplete args videoData store tr out store' ↔ ∃ x ∈ tr, Fatal x := by
  have hmoved := moved_iff (moveToNsfw_runs hrun)
  constructor
  · intro hcomplete
    by_contra hnone
    obtain rfl := hmoved.mpr fun x hx hfatal => hnone ⟨x, hx, hfatal⟩
    -- the video of the SFW bucket is where it was
    have hmem : .storj .sfw args.videoKey ∈ leftBehind args := by
      simp [leftBehind, MoveArgs.keys]
    have hsfw : .storj .sfw args.videoKey ∈ sfwObjects args := by
      simp [sfwObjects, MoveArgs.keys]
    obtain ⟨-, -, hleft⟩ := moved_residue hfinal hrun hacts
    have hnone := hcomplete.gone rfl _ hsfw
    rw [hleft _ hmem] at hnone
    exact hfinal.present hsfw hnone
  · rintro ⟨x, hx, hfatal⟩
    have hnot : out ≠ .ok moved := fun h => hmoved.mp h x hx hfatal
    refine ⟨fun h => absurd h hnot, fun h => absurd h hnot, ?_⟩
    exact fun hupload l hl => (moveToNsfw_runs hrun).kept hupload hacts hl

/-! ## A move that fails and one that succeeds -/

def aliceV1 : MoveArgs := ⟨"alice", "v1"⟩

/-- The six objects, with a video of one byte. -/
def finalized : ObjectStore := fun l =>
  if l = .storj .sfw aliceV1.videoKey ∨ l = .s3 aliceV1.videoKey then some [1]
  else if l ∈ sfwObjects aliceV1 then some [2]
  else none

theorem finalized_sfw : FinalizedSfw aliceV1 [1] finalized := by
  refine ⟨[], [2], ?_⟩
  decide

/-- A call that touches one place, which then holds what it should. -/
theorem acts_update {x : MoveExchange} {l : Location} {data : Option Bytes}
    (hl : x.1.touches = some l)
    (h : x.1.Achieves store (Function.update store l data) x.2) :
    MoveCall.Acts store x (Function.update store l data) where
  frame l' hl' := Function.update_of_ne (fun h => hl' (by rw [hl, h])) _ _
  achieves := h

/-- The downloads succeed, the upload to the NSFW bucket does not. -/
def notUploadedTrace : List MoveExchange :=
  uploading aliceV1 [1] (.ok [2]) (.error "timed out")

/-- Everything is uploaded, the video is not deleted. -/
def notDeletedTrace : List MoveExchange :=
  uploading aliceV1 [1] (.ok [2]) (.ok true) ++ [
    ⟨.uploadThumbnailNsfw aliceV1.thumbnailKey [2], .ok true⟩,
    ⟨.uploadThumbnailNsfw aliceV1.thumbnailDashKey [2], .ok true⟩,
    ⟨.deleteVideo aliceV1.videoKey, .error "access denied"⟩]

theorem finalized_video : finalized (.s3 aliceV1.videoKey) = some [1] := by
  decide

theorem finalized_thumbnail :
    finalized (.s3 aliceV1.thumbnailKey) = some [2] := by
  decide

theorem notUploadedTrace_acts :
    Trace MoveCall.Acts finalized notUploadedTrace finalized :=
  .cons ⟨fun _ _ => rfl, finalized_video⟩
    (.cons ⟨fun _ _ => rfl, finalized_thumbnail⟩
    (.single ⟨fun _ _ => rfl, trivial⟩))

theorem notDeletedTrace_acts :
    ∃ store', Trace MoveCall.Acts finalized notDeletedTrace store' :=
  ⟨_, .cons ⟨fun _ _ => rfl, finalized_video⟩
    (.cons ⟨fun _ _ => rfl, finalized_thumbnail⟩
    (.cons (acts_update rfl (Function.update_self _ _ _))
    (.cons (acts_update rfl (Function.update_self _ _ _))
    (.cons (acts_update rfl (Function.update_self _ _ _))
    (.single ⟨fun _ _ => rfl, trivial⟩)))))⟩

theorem move_complete_failed :
    MoveComplete aliceV1 [1] finalized notUploadedTrace
        (.error (.io "timed out")) finalized ∧
      ∃ store', MoveComplete aliceV1 [1] finalized notDeletedTrace
        (.error (.s3 "access denied")) store' := by
  constructor
  · have hrun : Runs (moveToNsfw aliceV1) notUploadedTrace
        (.error (.io "timed out")) := .call (.call (.call (.ret _)))
    refine (move_complete_iff aliceV1 [1] finalized finalized finalized_sfw
      hrun notUploadedTrace_acts).mpr ?_
    exact ⟨⟨.uploadVideoNsfw aliceV1.videoKey [1], .error "timed out"⟩,
      by simp [notUploadedTrace, uploading], nofun⟩
  · obtain ⟨store', hacts⟩ := notDeletedTrace_acts
    have hrun : Runs (moveToNsfw aliceV1) notDeletedTrace
        (.error (.s3 "access denied")) :=
      .call (.call (.call (.call (.call (.call (.ret _))))))
    refine ⟨store', (move_complete_iff aliceV1 [1] finalized store'
      finalized_sfw hrun hacts).mpr ?_⟩
    exact ⟨⟨.deleteVideo aliceV1.videoKey, .error "access denied"⟩,
      by simp [notDeletedTrace], trivial⟩

def movedTrace : List MoveExchange :=
  uploading aliceV1 [1] (.ok [2]) (.ok true) ++ [
    ⟨.uploadThumbnailNsfw aliceV1.thumbnailKey [2], .ok true⟩,
    ⟨.uploadThumbnailNsfw aliceV1.thumbnailDashKey [2], .ok true⟩,
    ⟨.deleteVideo aliceV1.videoKey, .ok ()⟩,
    ⟨.deleteThumbnail aliceV1.thumbnailKey, .ok ()⟩]

theorem movedTrace_acts :
    ∃ store', Trace MoveCall.Acts finalized movedTrace store' :=
  ⟨_, .cons ⟨fun _ _ => rfl, finalized_video⟩
    (.cons ⟨fun _ _ => rfl, finalized_thumbnail⟩
    (.cons (acts_update rfl (Function.update_self _ _ _))
    (.cons (acts_update rfl (Function.update_self _ _ _))
    (.cons (acts_update rfl (Function.update_self _ _ _))
    (.cons (acts_update rfl (Function.update_self _ _ _))
    (.cons (acts_update rfl (Function.update_self _ _ _)) (.nil _)))))))⟩

/-- Every call succeeds, the move reports "moved", and the video is still in the
SFW bucket. -/
theorem move_leaves_sfw : ¬ ∀ tr out store',
    Runs (moveToNsfw aliceV1) tr out → Trace MoveCall.Acts finalized tr store' →
    MoveComplete aliceV1 [1] finalized tr out store' := by
  intro h
  obtain ⟨store', hacts⟩ := movedTrace_acts
  have hrun : Runs (moveToNsfw aliceV1) movedTrace (.ok moved) :=
    .call (.call (.call (.call (.call (.call (.call (.ret _)))))))
  have hgone := (h _ _ _ hrun hacts).gone rfl (.storj .sfw aliceV1.videoKey)
    (by decide)
  have hleft : store' (.storj .sfw aliceV1.videoKey) =
      finalized (.storj .sfw aliceV1.videoKey) := by
    refine acts_frame hacts fun x hx htouch => ?_
    simp [movedTrace, uploading] at hx
    rcases hx with rfl | rfl | rfl | rfl | rfl | rfl | rfl <;> cases htouch
  rw [hleft] at hgone
  exact absurd hgone (by decide)

end VideoStorage.Storage
