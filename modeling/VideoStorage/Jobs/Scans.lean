import VideoStorage.Db.Queries
import VideoStorage.Foundation.Text

/-!
# The scans

`scan_storj` and `scan_hetzner`: the keys of a listing go to `video_index`, each
under the `video_id` that is its path without `.mp4`. So a key of a bucket is
only ever stored under one video (`Named.scanStorj`, `Named.scanHetzner`).
-/

namespace VideoStorage.Jobs

open Foundation VideoStorage.Db

/-- The full path without `.mp4`; of no other key. -/
def videoIdFromKey (key : String) : Option String := stripSuffix ".mp4" key

/-- Where a scan begins and ends, and what it meets. The listing is what the bucket
returns past `start_after`, under the prefix. -/
structure ScanArgs where
  connectFails : Option String := none
  cancelled : Bool := false
  limit : Option ℕ := none
  fullScan : Bool := true
  /-- The query for `start_after` fails. -/
  startFails : Option String := none
  listFails : Option String := none
  listing : List String
  /-- The `n`-th upsert fails. -/
  upsertFails : ℕ → Option String := fun _ => none

/-- The tables a scan leaves, and how it returned. -/
abbrev Scanned : Type := VideoTables × Except String Unit

/-- The loop over the listed objects, `total` of which were upserted. -/
def scanKeys (skip : String → Bool)
    (upsert : ℕ → String → String → VideoTables → Except String VideoTables)
    (limit : Option ℕ) : ℕ → List String → VideoTables → Scanned
  | _, [], t => (t, .ok ())
  | total, key :: keys, t =>
      if skip key then scanKeys skip upsert limit total keys t
      else match videoIdFromKey key with
        | none => scanKeys skip upsert limit total keys t
        | some videoId =>
            match upsert total videoId key t with
            | .error e => (t, .error e)
            | .ok t =>
                if limit.any (· ≤ total + 1) then (t, .ok ())
                else scanKeys skip upsert limit (total + 1) keys t

namespace ScanArgs

/-- The upsert of a full scan, or of one that resumes. -/
def upsert (args : ScanArgs) (withReset plain : String → String → VideoTables → VideoTables)
    (n : ℕ) (videoId key : String) (t : VideoTables) : Except String VideoTables :=
  match args.upsertFails n with
  | none => .ok (if args.fullScan then withReset videoId key t else plain videoId key t)
  | some e => .error ((if args.fullScan then "DB upsert with reset failed for "
      else "DB upsert failed for ") ++ key ++ ": " ++ e)

/-- What both scans do; `bucket` is named in the error of the listing. -/
def scan (args : ScanArgs) (bucket : String) (skip : String → Bool)
    (withReset plain : String → String → VideoTables → VideoTables)
    (t : VideoTables) : Scanned :=
  match args.connectFails with
  | some e => (t, .error e)
  | none =>
      if args.cancelled then (t, .ok ())
      else match if args.fullScan then none else args.startFails with
      | some e => (t, .error e)
      | none =>
          match args.listFails with
          | some e => (t, .error (bucket ++ " list failed: " ++ e))
          | none => scanKeys skip (args.upsert withReset plain) args.limit 0
              args.listing t

end ScanArgs

def scanStorj (args : ScanArgs) (t : VideoTables) : Scanned :=
  args.scan "Storj" (fun _ => false) upsertStorjKeyWithReset upsertStorjKey t

def isThumbnail (key : String) : Bool :=
  (stripSuffix "_thumbnail.png" key).isSome ||
    (stripSuffix "-thumbnail.png" key).isSome

/-- `tempKeyPrefix` is the job's setting. -/
def scanHetzner (tempKeyPrefix : String) (args : ScanArgs) (t : VideoTables) :
    Scanned :=
  args.scan "Hetzner" isThumbnail
    (fun videoId key => upsertHetznerKeyWithReset videoId key
      (containsText tempKeyPrefix key))
    (fun videoId key => upsertHetznerKey videoId key (containsText tempKeyPrefix key)) t

/-! ## What a scan keeps -/

section Rules

variable {skip : String → Bool} {limit : Option ℕ}
  {upsert : ℕ → String → String → VideoTables → Except String VideoTables}
  {keys : List String} {total : ℕ} {t : VideoTables}

/-- What every upsert of a scan keeps, the scan keeps, however it returns. -/
theorem scanKeys_keeps {P : VideoTables → Prop}
    (hkeep : ∀ key ∈ keys, ∀ n videoId t t', videoIdFromKey key = some videoId →
      upsert n videoId key t = .ok t' → P t → P t') (h : P t) :
    P (scanKeys skip upsert limit total keys t).1 := by
  induction keys generalizing total t with
  | nil => exact h
  | cons k keys ih =>
      have hrest := fun key hkey => hkeep key (List.mem_cons_of_mem _ hkey)
      simp only [scanKeys]
      by_cases hskip : skip k = true
      · rw [if_pos hskip]
        exact ih hrest h
      · rw [if_neg hskip]
        cases hid : videoIdFromKey k with
        | none => exact ih hrest h
        | some videoId =>
            dsimp only
            cases hup : upsert total videoId k t with
            | error e => exact h
            | ok t' =>
                have hk := hkeep k List.mem_cons_self total videoId t t' hid hup h
                dsimp only
                split_ifs
                · exact hk
                · exact ih hrest hk

variable {args : ScanArgs} {bucket : String}
  {withReset plain : String → String → VideoTables → VideoTables}

theorem ScanArgs.upsert_ok {n : ℕ} {videoId key : String} {t' : VideoTables}
    (h : args.upsert withReset plain n videoId key t = .ok t') :
    t' = withReset videoId key t ∨ t' = plain videoId key t := by
  unfold ScanArgs.upsert at h
  cases hfail : args.upsertFails n with
  | some e =>
      rw [hfail] at h
      cases h
  | none =>
      rw [hfail] at h
      obtain rfl := Except.ok.inj h
      split_ifs
      · exact .inl rfl
      · exact .inr rfl

/-- A scan leaves the tables as they were, or as its loop leaves them. -/
theorem ScanArgs.scan_tables :
    (args.scan bucket skip withReset plain t).1 = t ∨
      args.scan bucket skip withReset plain t = scanKeys skip
        (args.upsert withReset plain) args.limit 0 args.listing t := by
  unfold ScanArgs.scan
  split
  · exact .inl rfl
  · split_ifs
    · exact .inl rfl
    all_goals
      split
      · exact .inl rfl
      · split
        · exact .inl rfl
        · exact .inr rfl

/-- **Rule of a scan.** -/
theorem ScanArgs.scan_keeps {P : VideoTables → Prop}
    (hreset : ∀ key ∈ args.listing, ∀ videoId t, videoIdFromKey key = some videoId →
      P t → P (withReset videoId key t))
    (hplain : ∀ key ∈ args.listing, ∀ videoId t, videoIdFromKey key = some videoId →
      P t → P (plain videoId key t)) (h : P t) :
    P (args.scan bucket skip withReset plain t).1 := by
  rcases @scan_tables skip t args bucket withReset plain with hsame | hloop
  · rw [hsame]
    exact h
  · rw [hloop]
    refine scanKeys_keeps (fun key hkey n videoId t t' hid hup hP => ?_) h
    rcases upsert_ok hup with rfl | rfl
    · exact hreset key hkey videoId t hid hP
    · exact hplain key hkey videoId t hid hP

end Rules

/-! ## Whose a key is -/

/-- The object is known in one of the buckets by this key. -/
def HasKey (v : VideoIndexRow) (key : String) : Prop :=
  v.storjKey = some key ∨ v.hetznerKey = some key

/-- The key is stored under the video it names, and under no other. -/
def Named (key : String) (t : VideoTables) : Prop :=
  ∀ id v, t.video id = some v → HasKey v key → videoIdFromKey key = some id

/-- What an upsert of a key does to the keys of the index. -/
structure StoresKey (videoId key : String) (t t' : VideoTables) : Prop where
  other : ∀ id, id ≠ videoId → t'.video id = t.video id
  self : ∀ v k, t'.video videoId = some v → HasKey v k →
    k = key ∨ ∃ v₀, t.video videoId = some v₀ ∧ HasKey v₀ k

variable {t t' : VideoTables} {videoId key k : String} {isTemp : Bool}

theorem storesKey_upsertStorjKey :
    StoresKey videoId key t (upsertStorjKey videoId key t) where
  other id hid := by
    unfold upsertStorjKey
    rw [VideoTables.video_upsertVideo, if_neg hid]
  self v k hv hk := by
    unfold upsertStorjKey at hv
    rw [VideoTables.video_upsertVideo, if_pos rfl] at hv
    obtain rfl := Option.some.inj hv
    cases hv₀ : t.video videoId with
    | none =>
        rw [hv₀] at hk
        rcases hk with hk | hk
        · exact .inl (Option.some.inj hk).symm
        · cases hk
    | some v₀ =>
        rw [hv₀] at hk
        rcases hk with hk | hk
        · exact .inl (Option.some.inj hk).symm
        · exact .inr ⟨v₀, rfl, .inr hk⟩

theorem storesKey_upsertStorjKeyWithReset :
    StoresKey videoId key t (upsertStorjKeyWithReset videoId key t) := by
  have hsame : ∀ id, (upsertStorjKeyWithReset videoId key t).video id
      = (upsertStorjKey videoId key t).video id :=
    fun id => VideoTables.video_updateJob
  refine ⟨fun id hid => ?_, fun v k hv hk => ?_⟩
  · rw [hsame]
    exact storesKey_upsertStorjKey.other id hid
  · rw [hsame] at hv
    exact storesKey_upsertStorjKey.self v k hv hk

theorem storesKey_upsertHetzner {onConflict : MirrorStatus → MirrorJob → MirrorJob} :
    StoresKey videoId key t (upsertHetzner videoId key isTemp onConflict t) where
  other id hid := by
    unfold upsertHetzner
    rw [VideoTables.video_upsertJob, VideoTables.video_upsertVideo, if_neg hid]
  self v k hv hk := by
    unfold upsertHetzner at hv
    rw [VideoTables.video_upsertJob, VideoTables.video_upsertVideo,
      if_pos rfl] at hv
    obtain rfl := Option.some.inj hv
    cases hv₀ : t.video videoId with
    | none =>
        rw [hv₀] at hk
        rcases hk with hk | hk
        · cases hk
        · exact .inl (Option.some.inj hk).symm
    | some v₀ =>
        rw [hv₀] at hk
        rcases hk with hk | hk
        · exact .inr ⟨v₀, rfl, .inl hk⟩
        · exact .inl (Option.some.inj hk).symm

/-- A key that an upsert stores under its own video stays named. -/
theorem Named.upsert (h : Named k t) (hid : videoIdFromKey key = some videoId)
    (hup : StoresKey videoId key t t') : Named k t' := by
  intro id v hv hk
  by_cases hself : id = videoId
  · subst hself
    rcases hup.self v k hv hk with rfl | ⟨v₀, hv₀, hk₀⟩
    · exact hid
    · exact h id v₀ hv₀ hk₀
  · rw [hup.other id hself] at hv
    exact h id v hv hk

theorem Named.scanStorj (h : Named k t) (args : ScanArgs) :
    Named k (scanStorj args t).1 :=
  ScanArgs.scan_keeps
    (fun _ _ _ _ hid h => h.upsert hid storesKey_upsertStorjKeyWithReset)
    (fun _ _ _ _ hid h => h.upsert hid storesKey_upsertStorjKey) h

theorem Named.scanHetzner (h : Named k t) (tempKeyPrefix : String)
    (args : ScanArgs) : Named k (scanHetzner tempKeyPrefix args t).1 :=
  ScanArgs.scan_keeps (fun _ _ _ _ hid h => h.upsert hid storesKey_upsertHetzner)
    (fun _ _ _ _ hid h => h.upsert hid storesKey_upsertHetzner) h

end VideoStorage.Jobs
