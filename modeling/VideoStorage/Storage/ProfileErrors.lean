import VideoStorage.Storage.ProfileDeletion

/-!
# What the profile shows after an error

Storage and canister are changed one after the other. Deletions come first, so the
picture that the profile shows may be gone when a later call fails; nothing else can
take it away (`picture_after`).
-/

namespace VideoStorage.Storage.ProfileImages

open Foundation
open Prog (Runs runs_bind runs_call runs_ret not_runs_error Phased only_ret)

/-! ## Deletions, then puts -/

variable {crates : ImageCrates} {cfg : ProfileS3Config}
  {wire imageData principal : String}

/-- What may come once the old images are gone. -/
def ProfileCall.Storing : ProfileCall → Prop
  | .deleteObject _ => False
  | _ => True

theorem identified_only : (identified wire).Only ProfileCall.Clearing := by
  refine ⟨trivial, ?_⟩
  rintro (_ | _) <;> trivial

theorem connected_only : connected.Only ProfileCall.Clearing := by
  refine ⟨trivial, ?_⟩
  rintro (_ | _) <;> trivial

theorem putProfileImage_only {P : ProfileCall → Prop} (processed : Videogen.Bytes)
    (hclock : P .systemTime) (hput : ∀ key body, P (.putObject key body)) :
    (putProfileImage cfg processed principal).Only P := by
  refine ⟨hclock, ?_⟩
  rintro (_ | ts)
  · trivial
  · refine ⟨hput _ _, ?_⟩
    rintro (_ | _) <;> trivial

theorem setCanisterProfileUrl_only {P : ProfileCall → Prop} {url : Option String}
    (hagent : P .buildUserAgent) (hupdate : P (.updateProfileDetails url)) :
    (setCanisterProfileUrl url).Only P := by
  refine ⟨hagent, ?_⟩
  rintro (_ | _)
  · trivial
  · refine ⟨hupdate, ?_⟩
    rintro (_ | _ | _)
    · trivial
    · show (if _ then _ else _ : Prof _).Only _
      split <;> trivial
    · trivial

theorem uploadProfileImage_phased (base64 : String) :
    (uploadProfileImage crates cfg base64 principal).Phased
      ProfileCall.Clearing ProfileCall.Storing := by
  unfold uploadProfileImage
  split
  · exact Phased.ret _
  · split
    · exact Phased.ret _
    · exact Phased.after_only deleteProfileImages_only
        fun _ => (putProfileImage_only _ trivial fun _ _ => trivial).phased

theorem handleUploadProfileImage_phased :
    (handleUploadProfileImage crates cfg wire imageData).Phased
      ProfileCall.Clearing ProfileCall.Storing := by
  apply Phased.after_only identified_only
  rintro (_ | principal)
  · exact Phased.ret _
  · dsimp only
    split
    · exact Phased.ret _
    · apply Phased.after_only connected_only
      rintro (_ | _)
      · exact Phased.ret _
      · apply (uploadProfileImage_phased _).bind_only
        rintro (_ | url)
        · exact only_ret _
        · apply (setCanisterProfileUrl_only trivial trivial).bind
          rintro (_ | _) <;> exact only_ret _

theorem handleDeleteProfileImage_phased :
    (handleDeleteProfileImage cfg wire).Phased
      ProfileCall.Clearing ProfileCall.Storing := by
  apply Phased.after_only identified_only
  rintro (_ | principal)
  · exact Phased.ret _
  · apply Phased.after_only connected_only
    rintro (_ | _)
    · exact Phased.ret _
    · apply Phased.after_only deleteProfileImages_only
      rintro (_ | _)
      · exact Phased.ret _
      · exact (setCanisterProfileUrl_only trivial trivial).phased

/-! ## The URL that is written -/

section Urls

variable {tr : List ProfileExchange} {url : Option String}
  {r : ProfileCall.Reply (.updateProfileDetails url)}

/-- The call is not the one to the canister. -/
def ProfileCall.Stores : ProfileCall → Prop
  | .updateProfileDetails _ => False
  | _ => True

theorem uploadProfileImage_only (base64 : String) :
    (uploadProfileImage crates cfg base64 principal).Only ProfileCall.Stores := by
  have hstores : ∀ c : ProfileCall, c.Clearing → c.Stores := by
    intro c hc
    cases c <;> trivial
  unfold uploadProfileImage
  split
  · exact only_ret _
  · split
    · exact only_ret _
    · apply (deleteProfileImages_only.mono hstores).bind
      exact fun _ => putProfileImage_only _ trivial fun _ _ => trivial

/-- The URL that is returned is that of what was put. -/
theorem putProfileImage_runs {processed : Videogen.Bytes} {u : String}
    (h : Runs (putProfileImage cfg processed principal) tr (.ok u)) :
    ∃ key body, u = cfg.urlOf key ∧ ⟨.putObject key body, .ok ()⟩ ∈ tr := by
  simp only [putProfileImage, Prog.bind_eq, Prog.issue_bind, runs_call] at h
  obtain ⟨ts, tr', rfl, h⟩ := h
  cases ts with
  | error e => exact absurd h not_runs_error
  | ok ts =>
      simp only [runs_call] at h
      obtain ⟨reply, tr'', rfl, h⟩ := h
      cases reply with
      | error e => exact absurd h not_runs_error
      | ok =>
          obtain ⟨-, hout⟩ := runs_ret.mp h
          refine ⟨_, processed, Except.ok.inj hout, ?_⟩
          exact List.mem_cons_of_mem _ List.mem_cons_self

theorem uploadProfileImage_runs {base64 u : String}
    (h : Runs (uploadProfileImage crates cfg base64 principal) tr (.ok u)) :
    ∃ key body, u = cfg.urlOf key ∧ ⟨.putObject key body, .ok ()⟩ ∈ tr := by
  unfold uploadProfileImage at h
  split at h
  · exact absurd h not_runs_error
  · split at h
    · exact absurd h not_runs_error
    · obtain ⟨_, tr₁, tr₂, rfl, -, hput⟩ := runs_bind.mp h
      obtain ⟨key, body, hu, hmem⟩ := putProfileImage_runs hput
      exact ⟨key, body, hu, List.mem_append_right _ hmem⟩

theorem setCanisterProfileUrl_updates {u : Option String} {out : Except HttpError Unit}
    (h : Runs (setCanisterProfileUrl u) tr out)
    (hmem : ⟨.updateProfileDetails url, r⟩ ∈ tr) : url = u := by
  have honly : (setCanisterProfileUrl u).Only
      fun c => ∀ url, c = .updateProfileDetails url → url = u :=
    setCanisterProfileUrl_only nofun fun _ h => (ProfileCall.updateProfileDetails.inj h).symm
  exact honly.runs h _ hmem url rfl

/-- An upload writes the URL of what it put. -/
theorem handleUploadProfileImage_updates {out : Except HttpError String}
    (h : Runs (handleUploadProfileImage crates cfg wire imageData) tr out)
    (hmem : ⟨.updateProfileDetails url, r⟩ ∈ tr) :
    ∃ key body, url = some (cfg.urlOf key) ∧ ⟨.putObject key body, .ok ()⟩ ∈ tr := by
  obtain ⟨user, tr₁, tr₂, rfl, huser, h⟩ := runs_bind.mp h
  have hmem := (List.mem_append.mp hmem).resolve_left
    fun hx => identified_only.runs huser _ hx
  cases user with
  | error e =>
      rw [(runs_ret.mp h).1] at hmem
      cases hmem
  | ok principal =>
      dsimp only at h
      split at h
      · rw [(runs_ret.mp h).1] at hmem
        cases hmem
      · obtain ⟨client, tr₃, tr₄, rfl, hclient, h⟩ := runs_bind.mp h
        have hmem := (List.mem_append.mp hmem).resolve_left
          fun hx => connected_only.runs hclient _ hx
        cases client with
        | error e =>
            rw [(runs_ret.mp h).1] at hmem
            cases hmem
        | ok =>
            obtain ⟨up, tr₅, tr₆, rfl, hup, h⟩ := runs_bind.mp h
            have hmem := (List.mem_append.mp hmem).resolve_left
              fun hx => (uploadProfileImage_only _).runs hup _ hx
            cases up with
            | error e =>
                rw [(runs_ret.mp h).1] at hmem
                cases hmem
            | ok u =>
                obtain ⟨key, body, rfl, hput⟩ := uploadProfileImage_runs hup
                obtain ⟨set, tr₇, tr₈, rfl, hset, h⟩ := runs_bind.mp h
                have hnil : tr₈ = [] := by
                  cases set <;> exact (runs_ret.mp h).1
                rw [hnil, List.append_nil] at hmem
                refine ⟨key, body, setCanisterProfileUrl_updates hset hmem, ?_⟩
                simp [hput]

/-- A deletion puts nothing and writes the empty URL. -/
def ProfileCall.Removing : ProfileCall → Prop
  | .putObject _ _ => False
  | .updateProfileDetails url => url = some ""
  | _ => True

theorem handleDeleteProfileImage_only :
    (handleDeleteProfileImage cfg wire).Only ProfileCall.Removing := by
  have hremoving : ∀ c : ProfileCall, c.Clearing → c.Removing := by
    intro c hc
    cases c <;> trivial
  apply (identified_only.mono hremoving).bind
  rintro (_ | principal)
  · exact only_ret _
  · apply (connected_only.mono hremoving).bind
    rintro (_ | _)
    · exact only_ret _
    · apply (deleteProfileImages_only.mono hremoving).bind
      rintro (_ | _)
      · exact only_ret _
      · exact setCanisterProfileUrl_only trivial rfl

end Urls

/-! ## The picture afterwards -/

section World

variable {w : ProfileWorld} {xs : List Happened} {key : String}

/-- Among deletions that come before puts, the last word on a key is its put. -/
theorem mem_after_of_phased {α : Type} {p : Prof α} {a : α}
    (hp : p.Phased ProfileCall.Clearing ProfileCall.Storing)
    (hrun : Runs p (xs.map (·.exchange)) a) :
    key ∈ (w.after xs).objects ↔
      (key ∈ w.objects ∧ StoreEvent.deleted key ∉ xs.map Happened.event) ∨
        StoreEvent.put key ∈ xs.map Happened.event := by
  obtain ⟨tr₁, tr₂, htr, hclearing, hstoring⟩ := hp _ a hrun
  obtain ⟨ys, zs, rfl, rfl, rfl⟩ := List.map_eq_append_iff.mp htr
  rw [objects_after, List.map_append]
  apply StoreEvent.mem_after_append
  · exact put_notMem (fun _ _ => id) hclearing
  · exact deleted_notMem (fun _ => id) hstoring

/-- The URL that was written is in the call. -/
theorem updates_of_wroteUrl {x : Happened} {url : String}
    (h : x.wroteUrl = some url) :
    ∃ r, x.exchange = ⟨.updateProfileDetails (some url), r⟩ := by
  obtain ⟨⟨call, reply⟩, applied⟩ := x
  cases call <;> cases applied <;> simp_all [Happened.wroteUrl]

end World

/-! ## Calls that lose the picture -/

/-- One image, and the profile shows it. -/
def pictured : ProfileWorld where
  objects := (bucket 1).objects
  profilePictureUrl := some (ProfileS3Config.fromEnv.urlOf (imageKey 0))

theorem pictured_mem : imageKey 0 ∈ pictured.objects :=
  Finset.mem_image_of_mem _ (Finset.mem_range.mpr Nat.one_pos)

/-- The image is deleted, and then something else is tried. -/
def clearedThen (xs : List Happened) : List Happened :=
  ⟨⟨.verifiedIdentity "wire", .ok "aaaaa-aa"⟩, true⟩ ::
    ⟨⟨.createClient, .ok ()⟩, true⟩ :: (pageDeleted 1 ++ xs)

/-- The canister cannot be reached. -/
def failedDeletion : List Happened := clearedThen
  [⟨⟨.buildUserAgent, .ok ()⟩, true⟩,
    ⟨⟨.updateProfileDetails (some ""), .error "timeout"⟩, false⟩]

/-- The new image cannot be put. -/
def failedUpload (processed : Videogen.Bytes) : List Happened := clearedThen
  [⟨⟨.systemTime, .ok 1800000000⟩, true⟩,
    ⟨⟨.putObject (ProfileS3Config.fromEnv.objectKey "aaaaa-aa" 1800000000) processed,
      .error "timeout"⟩, false⟩]

theorem failedDeletion_truthful : Truthful pictured failedDeletion :=
  ⟨trivial, trivial, firstPage_lists 1, rfl, trivial, trivial, trivial⟩

theorem failedUpload_truthful (processed : Videogen.Bytes) :
    Truthful pictured (failedUpload processed) :=
  ⟨trivial, trivial, firstPage_lists 1, rfl, trivial, trivial, trivial⟩

theorem failedDeletion_runs :
    Runs (handleDeleteProfileImage .fromEnv "wire") (failedDeletion.map (·.exchange))
      (.error ⟨500, "Failed to update profile in canister: timeout"⟩) :=
  .call (.call (.call (.call (.call (.call (.ret _))))))

/-- An image of one pixel. -/
def pixel : String :=
  "iVBORw0KGgoAAAANSUhEUgAAAAEAAAABCAYAAAAfFcSJAAAADUlEQVR42mNk+M9QDwAD" ++
    "hgGAWjR9awAAAABJRU5ErkJggg=="

theorem failedUpload_runs {bytes processed : Videogen.Bytes}
    (hdecode : crates.decodeBase64 pixel = .ok bytes)
    (hprocess : crates.processImage bytes = .ok processed) :
    Runs (handleUploadProfileImage crates .fromEnv "wire" pixel)
      ((failedUpload processed).map (·.exchange))
      (.error ⟨500,
        "Failed to upload profile image: Failed to upload image to S3: timeout"⟩) := by
  have hstrip : stripDataUrl pixel = pixel := by decide +kernel
  have hvalid : validateBase64Len crates pixel = .ok () := by
    have hne : pixel ≠ "" := by decide
    have hsize : ¬ maxBase64Size < pixel.utf8ByteSize := by decide
    simp [validateBase64Len, hdecode, hne, hsize]
  have hupload : uploadProfileImage crates .fromEnv pixel "aaaaa-aa" =
      (deleteProfileImages .fromEnv "aaaaa-aa").bind
        fun _ => putProfileImage .fromEnv processed "aaaaa-aa" := by
    simp [uploadProfileImage, hdecode, hprocess]
  refine .call ?_
  dsimp only [Prog.ret_bind]
  rw [hstrip, hvalid]
  refine .call ?_
  dsimp only [Prog.ret_bind]
  rw [hupload]
  exact .call (.call (.call (.call (.ret _))))

theorem lost_failedDeletion : imageKey 0 ∉ (pictured.after failedDeletion).objects :=
  Finset.notMem_erase (imageKey 0) (bucket 1).objects

theorem lost_failedUpload (processed : Videogen.Bytes) :
    imageKey 0 ∉ (pictured.after (failedUpload processed)).objects :=
  Finset.notMem_erase (imageKey 0) (bucket 1).objects

/-! ## The main result -/

section Main

variable {w : ProfileWorld} {xs : List Happened}

theorem picture_after_upload {out : Except HttpError String} {old : String}
    (hold : old ∈ w.objects) (hurl : w.profilePictureUrl = some (cfg.urlOf old))
    (h : Truthful w xs)
    (hrun : Runs (handleUploadProfileImage crates cfg wire imageData)
      (xs.map (·.exchange)) out) :
    ∃ key, (w.after xs).profilePictureUrl = some (cfg.urlOf key) ∧
      (key ∈ (w.after xs).objects ↔
        (StoreEvent.deleted key ∈ xs.map Happened.event →
          StoreEvent.put key ∈ xs.map Happened.event)) := by
  have hmem : ∀ key, key ∈ (w.after xs).objects ↔ _ := fun key =>
    mem_after_of_phased handleUploadProfileImage_phased hrun
  rcases url_after w xs with hkept | ⟨x, hx, url, hwrote, hafter⟩
  · refine ⟨old, hkept.trans hurl, ?_⟩
    rw [hmem]
    tauto
  · obtain ⟨r, hexchange⟩ := updates_of_wroteUrl hwrote
    obtain ⟨key, body, hkey, hput⟩ := handleUploadProfileImage_updates hrun
      (List.mem_map.mpr ⟨x, hx, hexchange⟩)
    have hthere := h.put hput
    refine ⟨key, hafter.trans hkey, ?_⟩
    rw [hmem]
    tauto

theorem picture_after_deletion {out : Except HttpError Unit} {old : String}
    (hold : old ∈ w.objects) (hurl : w.profilePictureUrl = some (cfg.urlOf old))
    (hrun : Runs (handleDeleteProfileImage cfg wire) (xs.map (·.exchange)) out) :
    (w.after xs).profilePictureUrl = some "" ∨
      ∃ key, (w.after xs).profilePictureUrl = some (cfg.urlOf key) ∧
        w.profilePictureUrl = some (cfg.urlOf key) ∧
        (key ∈ (w.after xs).objects ↔
          StoreEvent.deleted key ∉ xs.map Happened.event) := by
  have honly := handleDeleteProfileImage_only.runs hrun
  rcases url_after w xs with hkept | ⟨x, hx, url, hwrote, hafter⟩
  · refine .inr ⟨old, hkept.trans hurl, hurl, ?_⟩
    have hnoput := put_notMem (fun _ _ => id) honly old
    rw [mem_after_of_phased handleDeleteProfileImage_phased hrun]
    tauto
  · obtain ⟨r, hexchange⟩ := updates_of_wroteUrl hwrote
    have hempty := honly _ (List.mem_map_of_mem hx)
    rw [hexchange] at hempty
    exact .inl (hafter.trans hempty)

/-- **After an error, the picture that the profile shows is there, unless this call
deleted it and did not put it again.** -/
theorem picture_after
    (hw : ∃ key ∈ w.objects, w.profilePictureUrl = some (cfg.urlOf key))
    (h : Truthful w xs) :
    (∀ e, Runs (handleUploadProfileImage crates cfg wire imageData)
        (xs.map (·.exchange)) (.error e) →
      ∃ key, (w.after xs).profilePictureUrl = some (cfg.urlOf key) ∧
        (key ∈ (w.after xs).objects ↔
          (StoreEvent.deleted key ∈ xs.map Happened.event →
            StoreEvent.put key ∈ xs.map Happened.event))) ∧
    (∀ e, Runs (handleDeleteProfileImage cfg wire) (xs.map (·.exchange)) (.error e) →
      (w.after xs).profilePictureUrl = some "" ∨
        ∃ key, (w.after xs).profilePictureUrl = some (cfg.urlOf key) ∧
          w.profilePictureUrl = some (cfg.urlOf key) ∧
          (key ∈ (w.after xs).objects ↔
            StoreEvent.deleted key ∉ xs.map Happened.event)) := by
  obtain ⟨old, hold, hurl⟩ := hw
  constructor
  · exact fun _ hrun => picture_after_upload hold hurl h hrun
  · exact fun _ hrun => picture_after_deletion hold hurl hrun

end Main

/-- An upload and a deletion that fail after the image is gone. -/
theorem picture_after_failures :
    (∀ (crates : ImageCrates) bytes processed, crates.decodeBase64 pixel = .ok bytes →
      crates.processImage bytes = .ok processed →
      ∃ key, (pictured.after (failedUpload processed)).profilePictureUrl =
          some (ProfileS3Config.fromEnv.urlOf key) ∧
        (key ∈ (pictured.after (failedUpload processed)).objects ↔
          (StoreEvent.deleted key ∈ (failedUpload processed).map Happened.event →
            StoreEvent.put key ∈ (failedUpload processed).map Happened.event))) ∧
    ((pictured.after failedDeletion).profilePictureUrl = some "" ∨
      ∃ key, (pictured.after failedDeletion).profilePictureUrl =
          some (ProfileS3Config.fromEnv.urlOf key) ∧
        pictured.profilePictureUrl = some (ProfileS3Config.fromEnv.urlOf key) ∧
        (key ∈ (pictured.after failedDeletion).objects ↔
          StoreEvent.deleted key ∉ failedDeletion.map Happened.event)) := by
  have hw : ∃ key ∈ pictured.objects,
      pictured.profilePictureUrl = some (ProfileS3Config.fromEnv.urlOf key) :=
    ⟨imageKey 0, pictured_mem, rfl⟩
  constructor
  · intro crates bytes processed hdecode hprocess
    exact (picture_after hw (failedUpload_truthful processed)).1 _
      (failedUpload_runs hdecode hprocess)
  · -- no crate has a part in a deletion
    have hdeletion := @picture_after ⟨fun _ => .error "", fun _ => .error ""⟩ .fromEnv
      "wire" pixel _ _ hw failedDeletion_truthful
    exact hdeletion.2 _ failedDeletion_runs

/-- The profile goes on showing what is not there. -/
theorem picture_lost :
    (imageKey 0 ∈ pictured.objects ∧
      pictured.profilePictureUrl = some (ProfileS3Config.fromEnv.urlOf (imageKey 0))) ∧
    (∀ (crates : ImageCrates) bytes processed, crates.decodeBase64 pixel = .ok bytes →
      crates.processImage bytes = .ok processed →
      (∃ e, Runs (handleUploadProfileImage crates .fromEnv "wire" pixel)
        ((failedUpload processed).map (·.exchange)) (.error e)) ∧
      Truthful pictured (failedUpload processed) ∧
      (pictured.after (failedUpload processed)).profilePictureUrl =
        some (ProfileS3Config.fromEnv.urlOf (imageKey 0)) ∧
      imageKey 0 ∉ (pictured.after (failedUpload processed)).objects) ∧
    (∃ e, Runs (handleDeleteProfileImage .fromEnv "wire")
      (failedDeletion.map (·.exchange)) (.error e)) ∧
    Truthful pictured failedDeletion ∧
    (pictured.after failedDeletion).profilePictureUrl =
      some (ProfileS3Config.fromEnv.urlOf (imageKey 0)) ∧
    imageKey 0 ∉ (pictured.after failedDeletion).objects := by
  refine ⟨⟨pictured_mem, rfl⟩, ?_, ⟨_, failedDeletion_runs⟩, failedDeletion_truthful, rfl,
    lost_failedDeletion⟩
  intro crates bytes processed hdecode hprocess
  exact ⟨⟨_, failedUpload_runs hdecode hprocess⟩, failedUpload_truthful processed, rfl,
    lost_failedUpload processed⟩

end VideoStorage.Storage.ProfileImages
