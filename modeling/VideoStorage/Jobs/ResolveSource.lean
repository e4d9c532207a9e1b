import VideoStorage.Foundation.Text
import VideoStorage.Jobs.Ingest
import VideoStorage.Videogen.Types

/-!
# The source of an upload

`reserve_upload_destination` builds the download URL of a video from the share
base, `upload_to_storj_with_ttl` stores the video under its key, and
`resolve_source` reads the key off the URL again (`resolveSource_inverts`).
-/

namespace VideoStorage.Jobs.Ingest

open Foundation (rdropWhile_dropWhile_eq_nil getLast?_toList_append)
open Videogen (UploadDestination UploadDestinationError)

/-! ## The first marker -/

/-- What is before and behind the first occurrence of the marker. -/
structure FirstSplit (marker s pre post : List Char) : Prop where
  split : s = pre ++ marker ++ post
  first : ∀ pre' post', s = pre' ++ marker ++ post' → pre.length ≤ pre'.length

variable {marker s pre post : List Char}

theorem FirstSplit.cons {c : Char} (h : FirstSplit marker s pre post)
    (hnot : ¬ marker <+: c :: s) : FirstSplit marker (c :: s) (c :: pre) post where
  split := congrArg (c :: ·) h.split
  first pre' post' heq := by
    cases pre' with
    | nil => exact absurd ⟨post', heq.symm⟩ hnot
    | cons d pre' =>
        exact Nat.succ_le_succ (h.first pre' post' (List.cons.inj heq).2)

theorem FirstSplit.unique {pre' post' : List Char} (h : FirstSplit marker s pre post)
    (h' : FirstSplit marker s pre' post') : pre = pre' ∧ post = post' := by
  have hlen : pre.length = pre'.length :=
    Nat.le_antisymm (h.first _ _ h'.split) (h'.first _ _ h.split)
  have heq : pre ++ (marker ++ post) = pre' ++ (marker ++ post') := by
    rw [← List.append_assoc, ← List.append_assoc, ← h.split, ← h'.split]
  obtain ⟨hpre, hrest⟩ := List.append_inj heq hlen
  exact ⟨hpre, List.append_cancel_left hrest⟩

theorem splitOnce_eq_none (hmarker : marker ≠ []) :
    splitOnce marker s = none ↔ ¬ marker <:+: s := by
  induction s with
  | nil =>
      rw [splitOnce, if_neg hmarker, List.infix_nil]
      exact iff_of_true rfl hmarker
  | cons c s ih =>
      rw [splitOnce, List.infix_cons_iff]
      split_ifs with hpre
      · exact iff_of_false nofun fun h => h (.inl (List.isPrefixOf_iff_prefix.mp hpre))
      · rw [Option.map_eq_none_iff, ih, not_or]
        exact (and_iff_right fun h => hpre (List.isPrefixOf_iff_prefix.mpr h)).symm

theorem firstSplit_of_splitOnce (hmarker : marker ≠ [])
    (h : splitOnce marker s = some (pre, post)) : FirstSplit marker s pre post := by
  induction s generalizing pre with
  | nil =>
      rw [splitOnce, if_neg hmarker] at h
      cases h
  | cons c s ih =>
      rw [splitOnce] at h
      split_ifs at h with hpre
      · obtain ⟨rest, hrest⟩ := List.isPrefixOf_iff_prefix.mp hpre
        cases h
        refine ⟨?_, fun _ _ _ => Nat.zero_le _⟩
        rw [← hrest, List.drop_left]
        rfl
      · obtain ⟨⟨pre₀, post₀⟩, hparts, heq⟩ := Option.map_eq_some_iff.mp h
        cases heq
        exact (ih hparts).cons fun hp => hpre (List.isPrefixOf_iff_prefix.mpr hp)

/-- **The split at the marker** is the first there is. -/
theorem splitOnce_eq_some (hmarker : marker ≠ []) :
    splitOnce marker s = some (pre, post) ↔ FirstSplit marker s pre post := by
  refine ⟨firstSplit_of_splitOnce hmarker, fun h => ?_⟩
  cases hsplit : splitOnce marker s with
  | none =>
      refine absurd ?_ ((splitOnce_eq_none hmarker).mp hsplit)
      exact ⟨pre, post, h.split.symm⟩
  | some parts =>
      obtain ⟨pre', post'⟩ := parts
      obtain ⟨rfl, rfl⟩ := h.unique (firstSplit_of_splitOnce hmarker hsplit)
      rfl

/-- A text that ends in all but the last character of a marker, and has none,
gets its first one by that character. -/
theorem firstSplit_append {head stem rest : List Char} {c : Char}
    (h : ¬ stem ++ [c] <:+: head ++ stem) :
    FirstSplit (stem ++ [c]) (head ++ stem ++ c :: rest) head rest where
  split := by simp
  first pre' post' heq := by
    by_contra hlt
    have hpre : pre' ++ (stem ++ [c]) <+: head ++ stem ++ c :: rest :=
      ⟨post', heq.symm⟩
    have hshort : pre' ++ (stem ++ [c]) <+: head ++ stem := by
      refine List.prefix_of_prefix_length_le hpre (List.prefix_append _ _) ?_
      simp only [List.length_append, List.length_cons, List.length_nil]
      omega
    exact h ((List.suffix_append pre' _).isInfix.trans hshort.isInfix)

/-! ## The key -/

theorem trimSlashes_eq_nil : trimSlashes s = [] ↔ ∀ c ∈ s, c = '/' := by
  show (s.dropWhile (· = '/')).rdropWhile (· = '/') = [] ↔ _
  rw [rdropWhile_dropWhile_eq_nil]
  simp

theorem trimSlashes_eq_self (hhead : ∀ c ∈ s.head?, c ≠ '/')
    (hlast : ∀ c ∈ s.getLast?, c ≠ '/') : trimSlashes s = s := by
  have hdrop : ∀ l : List Char, (∀ c ∈ l.head?, c ≠ '/') →
      l.dropWhile (· = '/') = l := by
    intro l hl
    cases l with
    | nil => rfl
    | cons c cs => exact List.dropWhile_cons_of_neg (by simpa using hl c rfl)
  unfold trimSlashes
  rw [hdrop s hhead, hdrop s.reverse (by rwa [List.head?_reverse]), List.reverse_reverse]

/-- Nothing, a query or a fragment. -/
def EndsKey (suffix : List Char) : Prop := ∀ c ∈ suffix.head?, c = '?' ∨ c = '#'

theorem takeWhile_key {key suffix : List Char} (hkey : ∀ c ∈ key, c ≠ '?' ∧ c ≠ '#')
    (hsuffix : EndsKey suffix) :
    (key ++ suffix).takeWhile (fun c => c != '?' && c != '#') = key := by
  rw [List.takeWhile_append_of_pos (by simpa using hkey)]
  cases suffix with
  | nil => exact List.append_nil key
  | cons c suffix =>
      rw [List.takeWhile_cons_of_neg, List.append_nil]
      rcases hsuffix c rfl with rfl | rfl <;> decide

/-- What the key was cut off from. -/
theorem endsKey_dropWhile (tail : List Char) :
    EndsKey (tail.dropWhile fun c => c != '?' && c != '#') := by
  intro c hc
  have hstop := List.head?_dropWhile_not (fun c => c != '?' && c != '#') tail
  rw [Option.mem_def.mp hc] at hstop
  simpa [imp_iff_not_or] using hstop

variable {url : String}

/-- **What is refused**: no marker, or no key behind the first one. -/
theorem resolveSource_error :
    (∃ e, resolveSource url = .error e) ↔
      ¬ "/yral-sfw/".toList <:+: url.toList ∨
        ∃ pre slashes suffix,
          FirstSplit "/yral-sfw/".toList url.toList pre (slashes ++ suffix) ∧
          (∀ c ∈ slashes, c = '/') ∧ EndsKey suffix := by
  have hmarker : "/yral-sfw/".toList ≠ [] := by decide
  unfold resolveSource
  cases hsplit : splitOnce "/yral-sfw/".toList url.toList with
  | none => exact iff_of_true ⟨_, rfl⟩ (.inl ((splitOnce_eq_none hmarker).mp hsplit))
  | some parts =>
      obtain ⟨pre, tail⟩ := parts
      have hfirst := (splitOnce_eq_some hmarker).mp hsplit
      have hhas : "/yral-sfw/".toList <:+: url.toList := ⟨pre, tail, hfirst.split.symm⟩
      rw [or_iff_right (not_not_intro hhas)]
      dsimp only
      split_ifs with hkey <;> rw [List.isEmpty_iff, trimSlashes_eq_nil] at hkey
      · refine iff_of_true ⟨_, rfl⟩ ⟨pre, _, _, ?_, hkey, endsKey_dropWhile tail⟩
        rwa [List.takeWhile_append_dropWhile]
      · refine iff_of_false nofun ?_
        rintro ⟨pre', slashes, suffix, hfirst', hslashes, hsuffix⟩
        obtain ⟨-, rfl⟩ := hfirst.unique hfirst'
        refine hkey ?_
        rw [takeWhile_key (fun c hc => hslashes c hc ▸ by decide) hsuffix]
        exact hslashes

/-- The key is read off exactly. -/
theorem resolveSource_key {pre key suffix : List Char}
    (h : FirstSplit "/yral-sfw/".toList url.toList pre (key ++ suffix))
    (hne : key ≠ []) (hkey : ∀ c ∈ key, c ≠ '?' ∧ c ≠ '#')
    (hhead : ∀ c ∈ key.head?, c ≠ '/') (hlast : ∀ c ∈ key.getLast?, c ≠ '/')
    (hsuffix : EndsKey suffix) :
    resolveSource url = .ok ⟨"storj", "yral-sfw", .ofList key⟩ := by
  have hsplit := (splitOnce_eq_some (by decide)).mpr h
  unfold resolveSource
  rw [hsplit]
  dsimp only
  rw [takeWhile_key hkey hsuffix, trimSlashes_eq_self hhead hlast]
  exact if_neg (by simpa using hne)

/-! ## The destination -/

structure GetUploadUrlResp where
  uploadUrl : String
  videoId : String

/-- What a reservation reads: two variables of the environment, the clock and the
lifetime in seconds, and `get_upload_url_core`, by the text of its error. -/
structure ReserveEnv where
  publicBaseUrl : Option String
  storjSfwShareUrl : Option String
  now : ℤ
  uploadUrlTtlSecs : ℤ
  getUploadUrlCore : String → String → Except String GetUploadUrlResp

def reserveUploadDestination (env : ReserveEnv) (userPrincipal : String) :
    Except UploadDestinationError UploadDestination :=
  match env.publicBaseUrl with
  | none => .error (.unavailable "PUBLIC_BASE_URL not set")
  | some base =>
      match env.getUploadUrlCore base userPrincipal with
      | .error e => .error (.unavailable e)
      | .ok resp => .ok {
          objectKey := resp.videoId ++ ".mp4"
          uploadUrl := resp.uploadUrl
          videoId := resp.videoId
          expiresAt := env.now + env.uploadUrlTtlSecs
          bucketUrl := env.storjSfwShareUrl.map fun base =>
            base ++ "/" ++ userPrincipal ++ "/" ++ resp.videoId ++ ".mp4"
          encryptedIdentity := none }

/-- The buckets and their access grants. -/
structure StorjConsts where
  storjSfwBucket : String
  mirrorAccessGrant : String
  yralNsfwVideos : String
  accessGrantNsfw : String

/-- The bucket of an upload and the grant it is reached with. -/
def StorjConsts.bucketAndGrant (consts : StorjConsts) (isNsfw : Bool) : String × String :=
  if isNsfw then (consts.yralNsfwVideos, consts.accessGrantNsfw)
  else (consts.storjSfwBucket, consts.mirrorAccessGrant)

/-- The `--access` and the destination of the `uplink cp` that
`upload_to_storj_with_ttl` runs. -/
def uploadToStorjWithTtl (consts : StorjConsts) (publisherUserId videoId : String)
    (isNsfw : Bool) : String × String :=
  let (bucket, grant) := consts.bucketAndGrant isNsfw
  (grant, "sj://" ++ bucket ++ "/" ++ publisherUserId ++ "/" ++ videoId ++ ".mp4")

/-- A share base that ends in the bucket, and has it nowhere else. -/
structure ShareBase (base : String) : Prop where
  ends : ∃ head, base = head ++ "/yral-sfw"
  once : ¬ "/yral-sfw/".toList <:+: base.toList

/-- One step of a path. -/
structure PathId (id : String) : Prop where
  nonempty : id ≠ ""
  chars : ∀ c ∈ id.toList, c ≠ '/' ∧ c ≠ '?' ∧ c ≠ '#'

variable {env : ReserveEnv} {base userPrincipal videoId suffix : String}
  {destination : UploadDestination}

theorem reserveUploadDestination_bucketUrl
    (h : reserveUploadDestination env userPrincipal = .ok destination) :
    destination.bucketUrl = env.storjSfwShareUrl.map fun base =>
      base ++ "/" ++ userPrincipal ++ "/" ++ destination.videoId ++ ".mp4" := by
  unfold reserveUploadDestination at h
  split at h
  · cases h
  · split at h
    · cases h
    · cases h
      rfl

theorem firstSplit_share (h : ShareBase base) (rest : String) :
    ∃ head, FirstSplit "/yral-sfw/".toList (base ++ "/" ++ rest).toList head rest.toList := by
  obtain ⟨⟨head, rfl⟩, honce⟩ := h
  have hmarker : "/yral-sfw/".toList = "/yral-sfw".toList ++ ['/'] := by decide
  refine ⟨head.toList, ?_⟩
  rw [String.toList_append, hmarker] at honce
  rw [String.toList_append, String.toList_append, String.toList_append, hmarker,
    List.append_assoc _ "/".toList]
  exact firstSplit_append honce

theorem keyChars (huser : PathId userPrincipal) (hvideo : PathId videoId) :
    ∀ c ∈ (userPrincipal ++ "/" ++ videoId ++ ".mp4").toList, c ≠ '?' ∧ c ≠ '#' := by
  have hslash : ∀ c ∈ "/".toList, c ≠ '?' ∧ c ≠ '#' := by simp
  have hmp4 : ∀ c ∈ ".mp4".toList, c ≠ '?' ∧ c ≠ '#' := by simp
  intro c hc
  rw [String.toList_append, String.toList_append, String.toList_append, List.mem_append,
    List.mem_append, List.mem_append] at hc
  rcases hc with ((hc | hc) | hc) | hc
  · exact (huser.chars c hc).2
  · exact hslash c hc
  · exact (hvideo.chars c hc).2
  · exact hmp4 c hc

theorem key_head (huser : PathId userPrincipal) (rest : String) :
    ∀ c ∈ (userPrincipal ++ rest).toList.head?, c ≠ '/' := by
  intro c hc
  rw [String.toList_append, List.head?_append_of_ne_nil] at hc
  · exact (huser.chars c (List.mem_of_mem_head? hc)).1
  · exact fun hnil => huser.nonempty (String.toList_eq_nil_iff.mp hnil)

/-- **The source of an upload** is where the raw upload put it. -/
theorem resolveSource_inverts :
    (∀ (env : ReserveEnv) (consts : StorjConsts) (base userPrincipal suffix : String)
        (isNsfw : Bool) (destination : UploadDestination),
      reserveUploadDestination env userPrincipal = .ok destination →
      env.storjSfwShareUrl = some base → ShareBase base → PathId userPrincipal →
      PathId destination.videoId → EndsKey suffix.toList →
      ∃ url key, destination.bucketUrl = some url ∧
        key = userPrincipal ++ "/" ++ destination.videoId ++ ".mp4" ∧
        (uploadToStorjWithTtl consts userPrincipal destination.videoId isNsfw).2
          = "sj://" ++ (consts.bucketAndGrant isNsfw).1 ++ "/" ++ key ∧
        resolveSource (url ++ suffix) = .ok ⟨"storj", "yral-sfw", key⟩) ∧
    ∀ url : String, (∃ e, resolveSource url = .error e) ↔
      ¬ "/yral-sfw/".toList <:+: url.toList ∨
        ∃ pre slashes suffix,
          FirstSplit "/yral-sfw/".toList url.toList pre (slashes ++ suffix) ∧
          (∀ c ∈ slashes, c = '/') ∧ EndsKey suffix := by
  refine ⟨?_, fun url => resolveSource_error⟩
  intro env consts base userPrincipal suffix isNsfw destination hreserve hshare hbase huser
    hvideo hsuffix
  have hurl := reserveUploadDestination_bucketUrl hreserve
  rw [hshare, Option.map_some] at hurl
  let key := userPrincipal ++ "/" ++ destination.videoId ++ ".mp4"
  refine ⟨_, key, hurl, rfl, ?_, ?_⟩
  · simp only [uploadToStorjWithTtl, key, String.append_assoc]
  · obtain ⟨head, hfirst⟩ := firstSplit_share hbase (key ++ suffix)
    have hassoc : base ++ "/" ++ userPrincipal ++ "/" ++ destination.videoId ++ ".mp4"
        ++ suffix = base ++ "/" ++ (key ++ suffix) := by
      simp only [key, String.append_assoc]
    rw [String.toList_append (s := key)] at hfirst
    have hlast : key.toList.getLast? = some '4' := getLast?_toList_append (by decide)
    have hne : key.toList ≠ [] := by
      intro hnil
      rw [hnil] at hlast
      cases hlast
    have hok := resolveSource_key hfirst hne (keyChars huser hvideo)
      (by simpa only [key, String.append_assoc] using key_head huser _)
      (fun c hc => by
        obtain rfl := Option.some.inj (hlast.symm.trans hc)
        decide)
      hsuffix
    rw [String.ofList_toList] at hok
    rw [hassoc]
    exact hok

def clipEnv : ReserveEnv where
  publicBaseUrl := some "https://storage.example"
  storjSfwShareUrl := some "https://link.storjshare.io/raw/tok/yral-sfw"
  now := 0
  uploadUrlTtlSecs := 4200
  getUploadUrlCore := fun base _ => .ok ⟨base ++ "/duplicate_raw/upload", "vid-1"⟩

def clipConsts : StorjConsts where
  storjSfwBucket := "yral-sfw"
  mirrorAccessGrant := "mirror"
  yralNsfwVideos := "yral-nsfw-videos"
  accessGrantNsfw := "nsfw"

theorem resolveSource_inverts_clip :
    ∃ destination, reserveUploadDestination clipEnv "aaaaa-aa" = .ok destination ∧
      ∃ url key, destination.bucketUrl = some url ∧ key = "aaaaa-aa/vid-1.mp4" ∧
        (uploadToStorjWithTtl clipConsts "aaaaa-aa" "vid-1" false).2
          = "sj://" ++ "yral-sfw" ++ "/" ++ key ∧
        resolveSource (url ++ "?download=1#x") = .ok ⟨"storj", "yral-sfw", key⟩ :=
  ⟨_, rfl, resolveSource_inverts.1 clipEnv clipConsts
    "https://link.storjshare.io/raw/tok/yral-sfw" "aaaaa-aa" "?download=1#x" false _ rfl rfl
    ⟨⟨"https://link.storjshare.io/raw/tok", by decide +kernel⟩, by decide +kernel⟩
    ⟨by decide, by simp⟩ ⟨by decide, by simp⟩ (by
      intro c hc
      obtain rfl := Option.some.inj hc
      exact .inl rfl)⟩

end VideoStorage.Jobs.Ingest
