import Mathlib.Data.String.Basic
import VideoStorage.Foundation.Listing
import VideoStorage.Jobs.Scans

/-!
# What the scans find

`list_objects` follows the continuation tokens of a bucket that others write to
meanwhile. A full scan of a bucket stores every video whose object is there all
along, under its own id and ready to be worked on again, and touches no other
(`discovery_indexes`).
-/

namespace VideoStorage.Jobs

open Foundation VideoStorage.Db

/-! ## The listing -/

/-- A bucket, whose tokens are opaque texts. -/
abbrev Bucket : Type := Lister String String

def underPrefix (pfx : Option String) (key : String) : Bool :=
  pfx.all (startsWith · key)

/-- `list_objects`; `fails` are the pages that no retry could get. -/
def listObjects (b : Bucket) (fails : ℕ → Option String) (pfx : Option String)
    (startAfter : Option String) (fuel : ℕ) : Option (Except String (List String)) :=
  listAll b fails (underPrefix pfx) startAfter fuel

section List

variable {b : Bucket} {fails : ℕ → Option String} {pfx startAfter : Option String}
  {fuel : ℕ} {r : Except String (List String)}

/-- Only a page can fail. -/
theorem listObjects_error {e : String}
    (h : listObjects b fails pfx startAfter fuel = some (.error e)) :
    ∃ n, fails n = some e := by
  have hpost := iterate_post (fun _ : ListState String String => True)
    (fun r => ∀ e, r = .error e → ∃ n, fails n = some e) (fun _ _ _ _ => trivial)
    ?_ trivial h
  · exact hpost e rfl
  · rintro s r - hstep e rfl
    unfold listStep at hstep
    cases hfail : fails s.requests with
    | some e' =>
        rw [hfail] at hstep
        cases hstep
        exact ⟨_, hfail⟩
    | none =>
        rw [hfail] at hstep
        dsimp only at hstep
        split at hstep <;> cases hstep

theorem listObjects_mono {n m : ℕ} (h : listObjects b fails pfx startAfter n = some r)
    (hle : n ≤ m) : listObjects b fails pfx startAfter m = some r :=
  iterate_mono h hle

end List

/-- **`list_objects`** ends, and without an error returns the keys under the prefix
and past `start_after` in order, each once: all that were in the bucket throughout,
and none that never was. -/
theorem listObjects_listed (b : Bucket) (fails : ℕ → Option String)
    (pfx startAfter : Option String) {all : List String}
    (hall : ∀ n, ∀ k ∈ b.keys n, k ∈ all) :
    ∃ fuel r, listObjects b fails pfx startAfter fuel = some r ∧
      (∀ items, r = .ok items → Listed b (underPrefix pfx) startAfter items) ∧
      ∀ e, r = .error e → ∃ n, fails n = some e := by
  obtain ⟨fuel, r, h⟩ := listAll_total fails (underPrefix pfx) startAfter hall
  refine ⟨fuel, r, h, ?_, ?_⟩
  · rintro items rfl
    exact listAll_listed h
  · rintro e rfl
    exact listObjects_error h

/-- A bucket that is listed key by key and gets one more after the first. -/
def growing : Bucket where
  keys n := if n = 0 then ["b.mp4", "a.mp4"] else ["b.mp4", "a.mp4", "a/c.mp4"]
  size _ := 1
  size_pos _ := one_pos
  token := id
  position := id
  position_token _ := rfl

theorem mem_growing {n : ℕ} {k : String} (h : k ∈ growing.keys n) :
    k ∈ ["b.mp4", "a.mp4", "a/c.mp4"] := by
  unfold growing at h
  dsimp only at h
  split_ifs at h
  · exact List.mem_append_left ["a/c.mp4"] h
  · exact h

/-- What is there from the first stays. -/
theorem mem_growing_of_first {k : String} (h : k ∈ ["b.mp4", "a.mp4"]) (n : ℕ) :
    k ∈ growing.keys n := by
  unfold growing
  dsimp only
  split_ifs
  · exact h
  · exact List.mem_append_left ["a/c.mp4"] h

theorem listObjects_listed_growing : ∃ fuel items,
    listObjects growing (fun _ => none) none none fuel = some (.ok items) ∧
      "b.mp4" ∈ items := by
  obtain ⟨fuel, r, h, hok, herr⟩ := listObjects_listed growing (fun _ => none) none
    none fun _ _ => mem_growing
  cases r with
  | error e =>
      obtain ⟨n, hn⟩ := herr e rfl
      cases hn
  | ok items =>
      exact ⟨fuel, items, h, (hok items rfl).complete "b.mp4" rfl rfl
        (mem_growing_of_first (by decide))⟩

/-! ## What an upsert leaves -/

theorem videoIdFromKey_eq_some {key videoId : String} :
    videoIdFromKey key = some videoId ↔ key = videoId ++ ".mp4" :=
  stripSuffix_eq_some

/-- Two keys of one video are one. -/
theorem videoIdFromKey_inj {key key' videoId : String}
    (h : videoIdFromKey key = some videoId) (h' : videoIdFromKey key' = some videoId) :
    key' = key := by
  rw [videoIdFromKey_eq_some.mp h, videoIdFromKey_eq_some.mp h']

/-- No video is skipped as a thumbnail. -/
theorem not_isThumbnail {key videoId : String}
    (h : videoIdFromKey key = some videoId) : isThumbnail key = false := by
  have hlast : key.toList.getLast? = some '4' := by
    rw [videoIdFromKey_eq_some.mp h, String.toList_append, List.getLast?_append]
    rfl
  have hno : ∀ q : String, q.toList.getLast? = some 'g' → stripSuffix q key = none := by
    intro q hq
    cases hs : stripSuffix q key with
    | none => rfl
    | some rest =>
        rw [stripSuffix_eq_some.mp hs, String.toList_append, List.getLast?_append,
          hq] at hlast
        cases hlast
  unfold isThumbnail
  rw [hno _ (by decide), hno _ (by decide)]
  rfl

/-- Stored by a full scan of Hetzner: under its key, with a job that is not given
up. -/
def StoredHetzner (tempKeyPrefix key : String) (t : VideoTables) : Prop :=
  ∀ videoId, videoIdFromKey key = some videoId → ∃ v j,
    t.video videoId = some v ∧ v.hetznerKey = some key ∧
    t.job videoId = some j ∧ j.isTemp = containsText tempKeyPrefix key ∧
    j.status ≠ .failed

/-- Stored by a full scan of Storj. -/
def StoredStorj (key : String) (t : VideoTables) : Prop :=
  ∀ videoId, videoIdFromKey key = some videoId → ∃ v,
    t.video videoId = some v ∧ v.storjKey = some key ∧
    ∀ j, t.job videoId = some j → j.status ≠ .failed

/-- The rows of a video are the same. -/
def SameRows (t t' : VideoTables) (videoId : String) : Prop :=
  t'.video videoId = t.video videoId ∧ t'.job videoId = t.job videoId

theorem SameRows.trans {t t' t'' : VideoTables} {videoId : String}
    (h : SameRows t t' videoId) (h' : SameRows t' t'' videoId) :
    SameRows t t'' videoId :=
  ⟨h'.1.trans h.1, h'.2.trans h.2⟩

section Upserts

variable {t t' : VideoTables} {videoId key key' tempKeyPrefix : String}
  {isTemp : Bool} {u : String}

theorem sameRows_upsertHetzner {onConflict : MirrorStatus → MirrorJob → MirrorJob}
    (hne : u ≠ videoId) :
    SameRows t (upsertHetzner videoId key isTemp onConflict t) u := by
  unfold upsertHetzner
  constructor
  · rw [VideoTables.video_upsertJob, VideoTables.video_upsertVideo, if_neg hne]
  · rw [VideoTables.job_upsertJob, if_neg hne, VideoTables.job_upsertVideo]

theorem sameRows_upsertStorjKeyWithReset (hne : u ≠ videoId) :
    SameRows t (upsertStorjKeyWithReset videoId key t) u := by
  unfold upsertStorjKeyWithReset upsertStorjKey
  constructor
  · rw [VideoTables.video_updateJob, VideoTables.video_upsertVideo, if_neg hne]
  · rw [VideoTables.job_updateJob, if_neg hne, VideoTables.job_upsertVideo]

theorem statusFor_ne_failed (phash : Option String) : statusFor phash ≠ .failed := by
  unfold statusFor
  split <;> decide

/-- The rows that a full scan of Hetzner leaves of its video. -/
theorem upsertHetznerKeyWithReset_self : ∃ v j,
    (upsertHetznerKeyWithReset videoId key isTemp t).video videoId = some v ∧
    v.hetznerKey = some key ∧
    (∀ v₀, t.video videoId = some v₀ → v.storjKey = v₀.storjKey) ∧
    (upsertHetznerKeyWithReset videoId key isTemp t).job videoId = some j ∧
    j.isTemp = isTemp ∧ j.status ≠ .failed := by
  unfold upsertHetznerKeyWithReset upsertHetzner
  rw [VideoTables.video_upsertJob, VideoTables.video_upsertVideo, if_pos rfl,
    VideoTables.job_upsertJob, if_pos rfl, VideoTables.job_upsertVideo]
  refine ⟨_, _, rfl, ?_, ?_, rfl, ?_⟩
  · cases t.video videoId <;> rfl
  · rintro v₀ hv₀
    rw [hv₀]
    rfl
  · cases hj : t.job videoId with
    | none => exact ⟨rfl, statusFor_ne_failed _⟩
    | some j =>
        simp only [Option.elim_some]
        split_ifs with hfailed hpending
        · exact ⟨rfl, statusFor_ne_failed _⟩
        · exact ⟨rfl, statusFor_ne_failed _⟩
        · exact ⟨rfl, hfailed⟩

/-- The rows that a full scan of Storj leaves of its video. -/
theorem upsertStorjKeyWithReset_self :
    (∃ v, (upsertStorjKeyWithReset videoId key t).video videoId = some v ∧
      v.storjKey = some key ∧
      ∀ v₀, t.video videoId = some v₀ → v.hetznerKey = v₀.hetznerKey) ∧
    (upsertStorjKeyWithReset videoId key t).job videoId
      = (t.job videoId).map MirrorJob.reset := by
  unfold upsertStorjKeyWithReset upsertStorjKey
  rw [VideoTables.video_updateJob, VideoTables.video_upsertVideo, if_pos rfl,
    VideoTables.job_updateJob, if_pos rfl, VideoTables.job_upsertVideo]
  refine ⟨⟨_, rfl, ?_, ?_⟩, rfl⟩
  · cases t.video videoId <;> rfl
  · rintro v₀ hv₀
    rw [hv₀]
    rfl

theorem MirrorJob.reset_spec (j : MirrorJob) :
    j.reset.isTemp = j.isTemp ∧ j.reset.status ≠ .failed := by
  unfold MirrorJob.reset
  split_ifs with h
  · exact ⟨rfl, nofun⟩
  · exact ⟨rfl, h⟩

theorem StoredHetzner.same (h : StoredHetzner tempKeyPrefix key t)
    (hsame : ∀ videoId, videoIdFromKey key = some videoId → SameRows t t' videoId) :
    StoredHetzner tempKeyPrefix key t' := by
  intro videoId hid
  obtain ⟨hvideo, hjob⟩ := hsame videoId hid
  rw [hvideo, hjob]
  exact h videoId hid

theorem StoredStorj.same (h : StoredStorj key t)
    (hsame : ∀ videoId, videoIdFromKey key = some videoId → SameRows t t' videoId) :
    StoredStorj key t' := by
  intro videoId hid
  obtain ⟨hvideo, hjob⟩ := hsame videoId hid
  rw [hvideo, hjob]
  exact h videoId hid

end Upserts

/-! ## Scans -/

section Rules

variable {skip : String → Bool}
  {upsert : ℕ → String → String → VideoTables → Except String VideoTables}
  {keys : List String} {total : ℕ} {t : VideoTables}

/-- **Rule of a scan** without a limit in which every upsert is done: what the upsert
of a key establishes for it and the others keep, holds of every key that is not
skipped. -/
theorem scanKeys_establishes (P : String → VideoTables → Prop)
    {store : String → String → VideoTables → VideoTables}
    (hdone : ∀ n videoId key t, upsert n videoId key t = .ok (store videoId key t))
    (hself : ∀ videoId key t, videoIdFromKey key = some videoId →
      P key (store videoId key t))
    (hkeep : ∀ videoId key key' t, videoIdFromKey key = some videoId → P key' t →
      P key' (store videoId key t))
    {key videoId : String} (hkey : key ∈ keys) (hno : skip key = false)
    (hid : videoIdFromKey key = some videoId) :
    P key (scanKeys skip upsert none total keys t).1 := by
  induction keys generalizing total t with
  | nil => cases hkey
  | cons k keys ih =>
      simp only [scanKeys, hdone, Option.any_none, Bool.false_eq_true, if_false]
      rcases List.mem_cons.mp hkey with rfl | hkey
      · rw [hno, hid]
        refine scanKeys_keeps (fun k _ n videoId' t t' hid' hup h => ?_)
          (hself videoId key t hid)
        obtain rfl := Except.ok.inj ((hdone n videoId' k t).symm.trans hup)
        exact hkeep videoId' k key t hid' h
      · split
        · exact ih hkey
        · split
          · exact ih hkey
          · exact ih hkey

/-- A scan leaves the rows of videos alone that none of its keys names. -/
theorem sameRows_scan {args : ScanArgs} {bucket u : String}
    {withReset plain : String → String → VideoTables → VideoTables}
    (hreset : ∀ videoId key t, u ≠ videoId → SameRows t (withReset videoId key t) u)
    (hplain : ∀ videoId key t, u ≠ videoId → SameRows t (plain videoId key t) u)
    (hu : ∀ key ∈ args.listing, videoIdFromKey key ≠ some u) :
    SameRows t (args.scan bucket skip withReset plain t).1 u := by
  have hne : ∀ {key videoId : String}, key ∈ args.listing →
      videoIdFromKey key = some videoId → u ≠ videoId := by
    rintro key videoId hkey hid rfl
    exact hu key hkey hid
  exact ScanArgs.scan_keeps (P := fun t' => SameRows t t' u)
    (fun key hkey videoId t' hid hsame => hsame.trans (hreset videoId key t' (hne hkey hid)))
    (fun key hkey videoId t' hid hsame => hsame.trans (hplain videoId key t' (hne hkey hid)))
    ⟨rfl, rfl⟩

end Rules

section Scan

variable {tempKeyPrefix : String} {args : ScanArgs} {t : VideoTables}

/-- Nothing is in the way of a full scan. -/
structure ScanArgs.Undisturbed (args : ScanArgs) : Prop where
  connects : args.connectFails = none
  cancelled : args.cancelled = false
  limit : args.limit = none
  full : args.fullScan = true
  listed : args.listFails = none
  upserts : ∀ n, args.upsertFails n = none

theorem ScanArgs.Undisturbed.scan (h : args.Undisturbed) {bucket : String}
    {skip : String → Bool} {withReset plain : String → String → VideoTables → VideoTables} :
    args.scan bucket skip withReset plain t
      = scanKeys skip (args.upsert withReset plain) none 0 args.listing t := by
  unfold ScanArgs.scan
  rw [h.connects, h.cancelled, h.full, h.listed, h.limit]
  rfl

theorem ScanArgs.Undisturbed.upsert (h : args.Undisturbed)
    {withReset plain : String → String → VideoTables → VideoTables} (n : ℕ)
    (videoId key : String) (t : VideoTables) :
    args.upsert withReset plain n videoId key t = .ok (withReset videoId key t) := by
  unfold ScanArgs.upsert
  rw [h.upserts, h.full]
  rfl

theorem storedHetzner_self {videoId key : String}
    (hid : videoIdFromKey key = some videoId) :
    StoredHetzner tempKeyPrefix key (upsertHetznerKeyWithReset videoId key
      (containsText tempKeyPrefix key) t) := by
  intro videoId' hid'
  obtain rfl := Option.some.inj (hid.symm.trans hid')
  obtain ⟨v, j, hv, hkey, -, hj⟩ := upsertHetznerKeyWithReset_self (t := t)
  exact ⟨v, j, hv, hkey, hj⟩

theorem StoredHetzner.upsertHetzner {videoId key key' : String}
    (hid : videoIdFromKey key = some videoId)
    (h : StoredHetzner tempKeyPrefix key' t) :
    StoredHetzner tempKeyPrefix key' (upsertHetznerKeyWithReset videoId key
      (containsText tempKeyPrefix key) t) := by
  by_cases hsame : videoIdFromKey key' = some videoId
  · obtain rfl := videoIdFromKey_inj hid hsame
    exact storedHetzner_self hid
  · apply h.same
    intro u hu
    apply sameRows_upsertHetzner
    rintro rfl
    exact hsame hu

theorem StoredHetzner.upsertStorj {videoId key key' : String}
    (h : StoredHetzner tempKeyPrefix key' t) :
    StoredHetzner tempKeyPrefix key' (upsertStorjKeyWithReset videoId key t) := by
  intro u hu
  by_cases hsame : u = videoId
  · subst hsame
    obtain ⟨v, j, hv, hkey, hj, htemp, hstatus⟩ := h u hu
    obtain ⟨⟨v', hv', -, hkeeps⟩, hj'⟩ := @upsertStorjKeyWithReset_self t u key
    rw [hj] at hj'
    obtain ⟨htemp', hstatus'⟩ := MirrorJob.reset_spec j
    exact ⟨v', j.reset, hv', (hkeeps v hv).trans hkey, hj', htemp'.trans htemp,
      hstatus'⟩
  · have hsame' : SameRows t (upsertStorjKeyWithReset videoId key t) u :=
      sameRows_upsertStorjKeyWithReset hsame
    rw [hsame'.1, hsame'.2]
    exact h u hu

theorem storedStorj_self {videoId key : String}
    (hid : videoIdFromKey key = some videoId) :
    StoredStorj key (upsertStorjKeyWithReset videoId key t) := by
  intro videoId' hid'
  obtain rfl := Option.some.inj (hid.symm.trans hid')
  obtain ⟨⟨v, hv, hkey, -⟩, hjob⟩ := @upsertStorjKeyWithReset_self t videoId key
  refine ⟨v, hv, hkey, fun j hj => ?_⟩
  rw [hjob] at hj
  obtain ⟨j₀, -, rfl⟩ := Option.map_eq_some_iff.mp hj
  exact (MirrorJob.reset_spec j₀).2

theorem StoredStorj.upsertStorj {videoId key key' : String}
    (hid : videoIdFromKey key = some videoId) (h : StoredStorj key' t) :
    StoredStorj key' (upsertStorjKeyWithReset videoId key t) := by
  by_cases hsame : videoIdFromKey key' = some videoId
  · obtain rfl := videoIdFromKey_inj hid hsame
    exact storedStorj_self hid
  · apply h.same
    intro u hu
    apply sameRows_upsertStorjKeyWithReset
    rintro rfl
    exact hsame hu

theorem sameRows_upsertStorjKey {videoId key u : String} (hne : u ≠ videoId) :
    SameRows t (upsertStorjKey videoId key t) u := by
  unfold upsertStorjKey
  constructor
  · rw [VideoTables.video_upsertVideo, if_neg hne]
  · rw [VideoTables.job_upsertVideo]

/-- **A scan of Hetzner** leaves alone the rows of all videos that its listing does
not name; a full one that nothing disturbs stores those it names. -/
theorem scanHetzner_spec (tempKeyPrefix : String) (args : ScanArgs) (t : VideoTables) :
    (args.Undisturbed → ∀ key ∈ args.listing, StoredHetzner tempKeyPrefix key
      (scanHetzner tempKeyPrefix args t).1) ∧
    ∀ u, (∀ key ∈ args.listing, videoIdFromKey key ≠ some u) →
      SameRows t (scanHetzner tempKeyPrefix args t).1 u := by
  constructor
  · intro h key hkey videoId hid
    unfold scanHetzner
    rw [h.scan]
    exact scanKeys_establishes (StoredHetzner tempKeyPrefix) h.upsert
      (fun _ _ _ => storedHetzner_self) (fun _ _ _ _ => .upsertHetzner) hkey
      (not_isThumbnail hid) hid videoId hid
  · exact fun u hu => sameRows_scan (fun _ _ _ hne => sameRows_upsertHetzner hne)
      (fun _ _ _ hne => sameRows_upsertHetzner hne) hu

/-- **A scan of Storj**; besides, a full one keeps what one of Hetzner has stored. -/
theorem scanStorj_spec (args : ScanArgs) (t : VideoTables) :
    (args.Undisturbed → ∀ key ∈ args.listing, StoredStorj key (scanStorj args t).1) ∧
    (args.fullScan = true → ∀ tempKeyPrefix key, StoredHetzner tempKeyPrefix key t →
      StoredHetzner tempKeyPrefix key (scanStorj args t).1) ∧
    ∀ u, (∀ key ∈ args.listing, videoIdFromKey key ≠ some u) →
      SameRows t (scanStorj args t).1 u := by
  refine ⟨?_, ?_, ?_⟩
  · intro h key hkey videoId hid
    unfold scanStorj
    rw [h.scan]
    exact scanKeys_establishes StoredStorj h.upsert (fun _ _ _ => storedStorj_self)
      (fun _ _ _ _ => .upsertStorj) hkey rfl hid videoId hid
  · intro hfull tempKeyPrefix key h
    unfold scanStorj
    rcases ScanArgs.scan_tables with hsame | hloop
    · rw [hsame]
      exact h
    · rw [hloop]
      refine scanKeys_keeps (fun key' _ n videoId t t' hid hup h => ?_) h
      unfold ScanArgs.upsert at hup
      rw [hfull] at hup
      cases hfail : args.upsertFails n with
      | some e =>
          rw [hfail] at hup
          cases hup
      | none =>
          rw [hfail] at hup
          cases hup
          exact h.upsertStorj
  · exact fun u hu => sameRows_scan
      (fun _ _ _ hne => sameRows_upsertStorjKeyWithReset hne)
      (fun _ _ _ hne => sameRows_upsertStorjKey hne) hu

end Scan

/-! ## The discovery of a sweep -/

/-- What a full scan of all keys of a bucket meets. -/
structure FullScan where
  bucket : Bucket
  connectFails : Option String := none
  /-- The token when the scan begins. -/
  cancelled : Bool := false
  /-- The pages that no retry could get. -/
  pageFails : ℕ → Option String := fun _ => none
  upsertFails : ℕ → Option String := fun _ => none

namespace FullScan

variable (e : FullScan)

def args : Except String (List String) → ScanArgs
  | .ok listing => {
      connectFails := e.connectFails
      cancelled := e.cancelled
      listing := listing
      upsertFails := e.upsertFails }
  | .error err => {
      connectFails := e.connectFails
      cancelled := e.cancelled
      listFails := some err
      listing := [] }

/-- A run of the scan; the bucket is listed only if it comes to that. -/
def run (scan : ScanArgs → VideoTables → Scanned) (fuel : ℕ) (t : VideoTables) :
    Option Scanned :=
  if e.connectFails.isSome || e.cancelled then some (scan (e.args (.ok [])) t)
  else (listObjects e.bucket e.pageFails none none fuel).map fun listing =>
    scan (e.args listing) t

/-- Nothing fails, and nobody cancels. -/
structure Undisturbed : Prop where
  connects : e.connectFails = none
  cancelled : e.cancelled = false
  pages : ∀ n, e.pageFails n = none
  upserts : ∀ n, e.upsertFails n = none

end FullScan

/-- What a sweep meets at the two buckets. -/
structure Discovery where
  hetzner : FullScan
  storj : FullScan

/-- The scans of a sweep; one that fails is logged. -/
def discoveryScans (tempKeyPrefix : String) (d : Discovery) (fuel : ℕ)
    (t : VideoTables) : Option VideoTables := do
  let hetzner ← d.hetzner.run (scanHetzner tempKeyPrefix) fuel t
  let storj ← d.storj.run scanStorj fuel hetzner.1
  return storj.1

section FullScan

variable {e : FullScan} {scan : ScanArgs → VideoTables → Scanned} {fuel : ℕ}
  {t : VideoTables} {r : Scanned}

/-- What a full scan runs with: without a listing, or with one of the bucket; if
nothing is in its way, undisturbed. -/
theorem FullScan.run_cases (h : e.run scan fuel t = some r) :
    ∃ args : ScanArgs, r = scan args t ∧ args.fullScan = true ∧
      (args.listing = [] ∨ Listed e.bucket (underPrefix none) none args.listing) ∧
      (e.Undisturbed → args.Undisturbed ∧
        Listed e.bucket (underPrefix none) none args.listing) := by
  unfold FullScan.run at h
  split_ifs at h with hstop
  · refine ⟨_, (Option.some.inj h).symm, rfl, .inl rfl, fun hu => ?_⟩
    rw [hu.connects, hu.cancelled] at hstop
    cases hstop
  · obtain ⟨listing, hlist, rfl⟩ := Option.map_eq_some_iff.mp h
    cases listing with
    | error err =>
        refine ⟨_, rfl, rfl, .inl rfl, fun hu => ?_⟩
        obtain ⟨n, hn⟩ := listObjects_error hlist
        rw [hu.pages] at hn
        cases hn
    | ok keys =>
        have hlisted := listAll_listed hlist
        exact ⟨_, rfl, rfl, .inr hlisted, fun hu =>
          ⟨⟨hu.connects, hu.cancelled, rfl, rfl, rfl, hu.upserts⟩, hlisted⟩⟩

theorem FullScan.run_ends (e : FullScan) (scan : ScanArgs → VideoTables → Scanned)
    {all : List String} (hall : ∀ n, ∀ k ∈ e.bucket.keys n, k ∈ all) (t : VideoTables) :
    ∃ fuel r, ∀ m, fuel ≤ m → e.run scan m t = some r := by
  obtain ⟨fuel, listing, hlist, -⟩ := listObjects_listed e.bucket e.pageFails none none
    hall
  by_cases hstop : (e.connectFails.isSome || e.cancelled) = true
  · exact ⟨0, _, fun m _ => if_pos hstop⟩
  · refine ⟨fuel, scan (e.args listing) t, fun m hm => ?_⟩
    unfold FullScan.run
    rw [if_neg hstop, listObjects_mono hlist hm]
    rfl

end FullScan

section Discovered

variable {tempKeyPrefix : String} {d : Discovery} {fuel : ℕ} {t t' : VideoTables}

theorem discoveryScans_split (h : discoveryScans tempKeyPrefix d fuel t = some t') :
    ∃ r r', d.hetzner.run (scanHetzner tempKeyPrefix) fuel t = some r ∧
      d.storj.run scanStorj fuel r.1 = some r' ∧ t' = r'.1 := by
  unfold discoveryScans at h
  obtain ⟨r, hr, h⟩ := Option.bind_eq_some_iff.mp h
  obtain ⟨r', hr', h⟩ := Option.bind_eq_some_iff.mp h
  exact ⟨r, r', hr, hr', (Option.some.inj h).symm⟩

theorem discoveryScans_hetzner (h : discoveryScans tempKeyPrefix d fuel t = some t')
    (hd : d.hetzner.Undisturbed) {key : String}
    (hkey : ∀ n, key ∈ d.hetzner.bucket.keys n) :
    StoredHetzner tempKeyPrefix key t' := by
  obtain ⟨r, r', hscan, hscan', rfl⟩ := discoveryScans_split h
  obtain ⟨args, rfl, -, -, hundisturbed⟩ := FullScan.run_cases hscan
  obtain ⟨args', rfl, hfull, -, -⟩ := FullScan.run_cases hscan'
  obtain ⟨hargs, hlisted⟩ := hundisturbed hd
  have hstored := (scanHetzner_spec tempKeyPrefix args t).1 hargs key
    (hlisted.complete key rfl rfl hkey)
  exact (scanStorj_spec args' _).2.1 hfull tempKeyPrefix key hstored

theorem discoveryScans_storj (h : discoveryScans tempKeyPrefix d fuel t = some t')
    (hd : d.storj.Undisturbed) {key : String}
    (hkey : ∀ n, key ∈ d.storj.bucket.keys n) : StoredStorj key t' := by
  obtain ⟨r, r', -, hscan', rfl⟩ := discoveryScans_split h
  obtain ⟨args', rfl, -, -, hundisturbed⟩ := FullScan.run_cases hscan'
  obtain ⟨hargs, hlisted⟩ := hundisturbed hd
  exact (scanStorj_spec args' r.1).1 hargs key (hlisted.complete key rfl rfl hkey)

theorem listing_not_names {b : Bucket} {listing : List String} {videoId : String}
    (h : listing = [] ∨ Listed b (underPrefix none) none listing)
    (hnone : ∀ n, videoId ++ ".mp4" ∉ b.keys n) :
    ∀ key ∈ listing, videoIdFromKey key ≠ some videoId := by
  intro key hkey hid
  rcases h with rfl | h
  · cases hkey
  · obtain ⟨n, hn⟩ := h.seen key hkey
    rw [videoIdFromKey_eq_some.mp hid] at hn
    exact hnone n hn

theorem discoveryScans_sameRows (h : discoveryScans tempKeyPrefix d fuel t = some t')
    {videoId : String} (hhetzner : ∀ n, videoId ++ ".mp4" ∉ d.hetzner.bucket.keys n)
    (hstorj : ∀ n, videoId ++ ".mp4" ∉ d.storj.bucket.keys n) :
    SameRows t t' videoId := by
  obtain ⟨r, r', hscan, hscan', rfl⟩ := discoveryScans_split h
  obtain ⟨args, rfl, -, hlisting, -⟩ := FullScan.run_cases hscan
  obtain ⟨args', rfl, -, hlisting', -⟩ := FullScan.run_cases hscan'
  have hsame := (scanHetzner_spec tempKeyPrefix args t).2 videoId
    (listing_not_names hlisting hhetzner)
  exact hsame.trans ((scanStorj_spec args' _).2.2 videoId
    (listing_not_names hlisting' hstorj))

theorem discoveryScans_ends (tempKeyPrefix : String) (d : Discovery)
    {all : List String} (hhetzner : ∀ n, ∀ k ∈ d.hetzner.bucket.keys n, k ∈ all)
    (hstorj : ∀ n, ∀ k ∈ d.storj.bucket.keys n, k ∈ all) (t : VideoTables) :
    ∃ fuel t', ∀ m, fuel ≤ m → discoveryScans tempKeyPrefix d m t = some t' := by
  obtain ⟨n₁, r₁, hends₁⟩ := d.hetzner.run_ends (scanHetzner tempKeyPrefix) hhetzner t
  obtain ⟨n₂, r₂, hends₂⟩ := d.storj.run_ends scanStorj hstorj r₁.1
  refine ⟨n₁ + n₂, r₂.1, fun m hm => ?_⟩
  unfold discoveryScans
  rw [hends₁ m (by omega)]
  show (d.storj.run scanStorj m r₁.1).bind _ = _
  rw [hends₂ m (by omega)]
  rfl

end Discovered

/-- **What a sweep discovers.** Whatever is uploaded and deleted meanwhile, every
video whose object is in a bucket all along is stored if nothing disturbs the scan of
that bucket, whatever becomes of the other; and the rows of a video that no object
was ever named after are left alone. -/
theorem discovery_indexes (tempKeyPrefix : String) (d : Discovery) (t : VideoTables)
    {all : List String} (hhetzner : ∀ n, ∀ k ∈ d.hetzner.bucket.keys n, k ∈ all)
    (hstorj : ∀ n, ∀ k ∈ d.storj.bucket.keys n, k ∈ all) :
    ∃ fuel t', discoveryScans tempKeyPrefix d fuel t = some t' ∧
      (d.hetzner.Undisturbed → ∀ key, (∀ n, key ∈ d.hetzner.bucket.keys n) →
        StoredHetzner tempKeyPrefix key t') ∧
      (d.storj.Undisturbed → ∀ key, (∀ n, key ∈ d.storj.bucket.keys n) →
        StoredStorj key t') ∧
      ∀ videoId, (∀ n, videoId ++ ".mp4" ∉ d.hetzner.bucket.keys n) →
        (∀ n, videoId ++ ".mp4" ∉ d.storj.bucket.keys n) → SameRows t t' videoId := by
  obtain ⟨fuel, t', hends⟩ := discoveryScans_ends tempKeyPrefix d hhetzner hstorj t
  have hscan := hends fuel le_rfl
  refine ⟨fuel, t', hscan, ?_, ?_, ?_⟩
  · exact fun hd _ hkey => discoveryScans_hetzner hscan hd hkey
  · exact fun hd _ hkey => discoveryScans_storj hscan hd hkey
  · exact fun _ hnone hnone' => discoveryScans_sameRows hscan hnone hnone'

/-- The same bucket at both providers, while an upsert of Storj's scan fails. -/
def halfListed : Discovery where
  hetzner := { bucket := growing }
  storj := { bucket := growing, upsertFails := fun n => if n = 1 then some "db" else none }

theorem discovery_indexes_halfListed : ∃ fuel t',
    discoveryScans "temp/" halfListed fuel {} = some t' ∧
      StoredHetzner "temp/" "a.mp4" t' ∧ SameRows {} t' "u" := by
  obtain ⟨fuel, t', h, hhetzner, -, hsame⟩ := discovery_indexes "temp/" halfListed {}
    (fun _ _ => mem_growing) (fun _ _ => mem_growing)
  have hu : ∀ n, "u" ++ ".mp4" ∉ growing.keys n := by
    intro n hmem
    exact absurd (mem_growing hmem) (by decide)
  exact ⟨fuel, t', h, hhetzner ⟨rfl, rfl, fun _ => rfl, fun _ => rfl⟩ "a.mp4"
    (mem_growing_of_first (by decide)), hsame "u" hu hu⟩

end VideoStorage.Jobs
