import VideoStorage.Jobs.ImportCompleteness
import VideoStorage.Jobs.ScanCompleteness
import VideoStorage.Jobs.SweepPasses

/-!
# From the bucket to the hash

A pass of the sweep drains and then discovers, so a new object is found in one
pass and hashed in a later one. Put together: a video whose object was in a
bucket throughout a discovery has its canonical hash after a later drain that
returns `Ok`, or waits for a retry that was not due when the drain began
(`sweep_reaches`).
-/

namespace VideoStorage.Jobs

open Foundation MediaIndex
open MediaImports
open MediaPhash (Db RunEnv RunState runInner hashKeyOf Awaits)
open VideoStorage.Db (VideoTables VideoIndexRow)

/-- The discovery closure of `run_pass`: the scans, and the import also when one of
them failed. -/
def discovery (tempKeyPrefix : String) (d : Discovery) (ienv : ImportEnv) (fuel : ℕ)
    (vi : VideoTables) (db : Db) : Option (VideoTables × ImportResult) := do
  let vi ← discoveryScans tempKeyPrefix d fuel vi
  let r ← importCurrentVideoIndex ienv vi db fuel
  return (vi, r)

/-- The object of the video is in a bucket all along. -/
def Discovery.Holds (d : Discovery) (videoId : String) : Prop :=
  (∀ n, videoId ++ ".mp4" ∈ d.hetzner.bucket.keys n) ∨
    ∀ n, videoId ++ ".mp4" ∈ d.storj.bucket.keys n

/-! ## What is found is imported -/

section Discovered

variable {tempKeyPrefix : String} {d : Discovery} {ienv : ImportEnv} {fuel : ℕ}
  {vi vi' : VideoTables} {db : Db} {r : ImportResult} {videoId status : String}

theorem discovery_split (h : discovery tempKeyPrefix d ienv fuel vi db = some (vi', r)) :
    discoveryScans tempKeyPrefix d fuel vi = some vi' ∧
      importCurrentVideoIndex ienv vi' db fuel = some r := by
  unfold discovery at h
  obtain ⟨vi₁, hscan, h⟩ := Option.bind_eq_some_iff.mp h
  obtain ⟨r₁, himport, h⟩ := Option.bind_eq_some_iff.mp h
  cases h
  exact ⟨hscan, himport⟩

/-- A video that a bucket holds is found, with a key to import it by. -/
theorem Discovery.Holds.found (hholds : d.Holds videoId)
    (hhetzner : d.hetzner.Undisturbed) (hstorj : d.storj.Undisturbed)
    (h : discoveryScans tempKeyPrefix d fuel vi = some vi') :
    ∃ v, vi'.video videoId = some v ∧ (v.hetznerKey.isSome ∨ v.storjKey.isSome) := by
  have hid : videoIdFromKey (videoId ++ ".mp4") = some videoId :=
    videoIdFromKey_eq_some.mpr rfl
  rcases hholds with hkey | hkey
  · obtain ⟨v, -, hv, hstored, -⟩ := discoveryScans_hetzner h hhetzner hkey videoId hid
    exact ⟨v, hv, .inl (Option.isSome_of_eq_some hstored)⟩
  · obtain ⟨v, hv, hstored, -⟩ := discoveryScans_storj h hstorj hkey videoId hid
    exact ⟨v, hv, .inr (Option.isSome_of_eq_some hstored)⟩

theorem canonicalStorage_isSome {v : VideoIndexRow} {sfwBucket : String}
    (h : v.hetznerKey.isSome ∨ v.storjKey.isSome) :
    (canonicalStorage sfwBucket (legacyRow videoId v)).isSome := by
  unfold canonicalStorage legacyRow
  cases hs : v.storjKey with
  | some key => rfl
  | none =>
      rw [hs] at h
      dsimp only
      rw [Option.isSome_map]
      exact h.resolve_right nofun

/-- An import without a limit that succeeds leaves a master row of every row that
the database does not refuse. -/
theorem import_reaches (hienv : ienv.Undisturbed) (hlimit : ienv.limit = none)
    (himport : importCurrentVideoIndex ienv vi db fuel = some r)
    (hok : r.2 = .ok status) {v : VideoIndexRow} (hv : vi.video videoId = some v)
    (hkey : v.hetznerKey.isSome ∨ v.storjKey.isSome)
    (herror : ienv.rowError videoId = none) :
    (r.1.db.tables.get (.video videoId)).isSome := by
  cases hget : db.tables.get (.video videoId) with
  | some w =>
      rw [(imports_currentVideoIndex himport).kept videoId w hget]
      rfl
  | none =>
      obtain ⟨hscanned, hthere⟩ := (importCurrentVideoIndex_ended hienv himport).complete
        hok
      apply hthere (legacyRow videoId v)
      · rw [hscanned.rows]
        unfold rowsToImport
        rw [hlimit]
        refine (List.mem_insertionSort _).mpr (List.mem_filter.mpr ⟨?_, ?_⟩)
        · exact mem_legacyRows.mpr ⟨v, hv, rfl⟩
        · unfold missingPast
          rw [show (legacyRow videoId v).videoId = videoId from rfl, hget]
          rfl
      · unfold ImportEnv.importable
        rw [show (legacyRow videoId v).videoId = videoId from rfl, herror,
          canonicalStorage_isSome hkey]
        rfl

end Discovered

/-! ## What is imported is hashed -/

/-- After a drain the video has its canonical hash, or it waits for a retry. -/
def HashedOrAwaits (env : RunEnv) (db db' : Db) (videoId : String) : Prop :=
  (db'.tables.get (.hash (hashKeyOf videoId))).isSome ∨
    ∃ due, Awaits env db db' videoId due

/-- A drain without a limit and a shard that nobody cancels. -/
structure Drains (env : RunEnv) : Prop where
  limit : env.limit = none
  shard : env.shard = none
  pageSize : 1 ≤ env.pageSize
  concurrency : 1 ≤ env.concurrency
  cancelled : ∀ n, env.cancelled n = false

theorem Drains.reaches {env : RunEnv} {db : Db} {fuel : ℕ} {status : String}
    {s : RunState} (h : Drains env)
    (hr : runInner env db fuel = some (.ok (status, s))) {videoId : String}
    (hmaster : (db.tables.get (.video videoId)).isSome) :
    HashedOrAwaits env db s.db videoId := by
  have hvideos := (MediaPhash.runInner_hashed hr).videos
  have hafter : (s.db.tables.get (.video videoId)).isSome := by
    show (s.db.tables.videos.lookup videoId).isSome
    rw [hvideos]
    exact hmaster
  obtain ⟨v, hv⟩ := Option.isSome_iff_exists.mp hafter
  unfold HashedOrAwaits
  cases hhash : s.db.tables.get (.hash (hashKeyOf videoId)) with
  | some hash => exact .inl rfl
  | none =>
      have hmissing : Missing env.query s.db.tables (v.missingRow videoId) :=
        ⟨⟨v, hv, rfl⟩, hhash, MediaPhash.inShard_none h.shard _⟩
      exact .inr (MediaPhash.run_awaits h.limit h.pageSize h.cancelled hr hmissing)

/-- **From the bucket to the hash.** A discovery that nothing disturbs ends. If then
its import succeeds, a later drain ends too, and if it returns `Ok`, every video
whose object was in a bucket all along, and whose row the database did not refuse,
has its canonical hash or waits for a retry, whatever is written meanwhile. -/
theorem sweep_reaches (tempKeyPrefix : String) (d : Discovery) (ienv : ImportEnv)
    (vi : VideoTables) (db : Db) {all : List String}
    (hhetzner : ∀ n, ∀ k ∈ d.hetzner.bucket.keys n, k ∈ all)
    (hstorj : ∀ n, ∀ k ∈ d.storj.bucket.keys n, k ∈ all)
    (hd : d.hetzner.Undisturbed) (hd' : d.storj.Undisturbed)
    (hienv : ienv.Undisturbed) (hlimit : ienv.limit = none) :
    (∃ fuel vi' r, discovery tempKeyPrefix d ienv fuel vi db = some (vi', r)) ∧
    ∀ fuel vi' r status, discovery tempKeyPrefix d ienv fuel vi db = some (vi', r) →
      r.2 = .ok status → ∀ (env : RunEnv) (db' : Db), Drains env →
        (∀ id, (r.1.db.tables.get (.video id)).isSome →
          (db'.tables.get (.video id)).isSome) →
        (∃ fuel r, runInner env db' fuel = some r) ∧
        ∀ fuel status s, runInner env db' fuel = some (.ok (status, s)) →
          ∀ videoId, d.Holds videoId → ienv.rowError videoId = none →
            HashedOrAwaits env db' s.db videoId := by
  constructor
  · obtain ⟨n, vi', hscan⟩ := discoveryScans_ends tempKeyPrefix d hhetzner hstorj vi
    obtain ⟨m, r, himport⟩ := importCurrentVideoIndex_isSome hienv vi' db
    have himport' : importCurrentVideoIndex ienv vi' db (n + m) = some r := by
      rw [importCurrentVideoIndex_eq hienv] at himport ⊢
      exact iterate_mono himport (by omega)
    refine ⟨n + m, vi', r, ?_⟩
    unfold discovery
    rw [hscan _ (by omega)]
    show (importCurrentVideoIndex ienv vi' db (n + m)).bind _ = _
    rw [himport']
    rfl
  · intro fuel vi' r status h hok env db' hdrain hkeeps
    obtain ⟨hscan, himport⟩ := discovery_split h
    refine ⟨MediaPhash.runInner_total hdrain.concurrency, ?_⟩
    intro fuel status s hr videoId hholds herror
    obtain ⟨v, hv, hkey⟩ := hholds.found hd hd' hscan
    exact hdrain.reaches hr (hkeeps videoId
      (import_reaches hienv hlimit himport hok hv hkey herror))

/-- The growing bucket at both providers. -/
def bothListed : Discovery where
  hetzner := { bucket := growing }
  storj := { bucket := growing }

def importEvery : ImportEnv where
  jobRunId := "run"
  sfwBucket := "sfw"
  batchSize := 10
  errorText := fun _ => "db"

/-- The object is found and imported; its download fails. -/
theorem sweep_reaches_offline : ∃ vi' r status s,
    discovery "temp/" bothListed importEvery 9 {} {} = some (vi', r) ∧
    (∃ fuel, runInner MediaPhash.offline r.1.db fuel = some (.ok (status, s))) ∧
    HashedOrAwaits MediaPhash.offline r.1.db s.db "a" := by
  have hrun : (discovery "temp/" bothListed importEvery 9 {} {}).map
      (fun x => (x.2.2.toOption, x.2.1.db.failures.rows.length))
        = some (some "succeeded", 0) := by decide
  obtain ⟨⟨vi', r⟩, hr, heq⟩ := Option.map_eq_some_iff.mp hrun
  obtain ⟨hstatus, hfailures⟩ := Prod.mk.inj heq
  have hok : r.2 = .ok "succeeded" := by
    cases hr2 : r.2 with
    | error e =>
        rw [hr2] at hstatus
        cases hstatus
    | ok status =>
        rw [hr2] at hstatus
        rw [Option.some.inj hstatus]
  have hsql : MediaPhash.NoSqlErrors MediaPhash.offline r.1.db := by
    refine MediaPhash.noSqlErrors (by decide) nofun (fun _ => rfl) (.of_due ?_)
      fun _ _ => ⟨true, rfl⟩
    intro row phase err f n _ _ _ hf
    have hnil : r.1.db.failures.rows = [] := List.length_eq_zero_iff.mp hfailures
    unfold JobFailures.find at hf
    rw [hnil] at hf
    cases hf
  obtain ⟨-, hreaches⟩ := sweep_reaches "temp/" bothListed importEvery {} {}
    (fun _ _ => mem_growing) (fun _ _ => mem_growing)
    ⟨rfl, rfl, fun _ => rfl, fun _ => rfl⟩ ⟨rfl, rfl, fun _ => rfl, fun _ => rfl⟩
    ⟨fun _ => rfl, nofun, by decide⟩ rfl
  obtain ⟨⟨fuel, out, hout⟩, hall⟩ := hreaches 9 vi' r _ hr hok MediaPhash.offline
    r.1.db ⟨rfl, rfl, by decide, by decide, fun _ => rfl⟩ fun _ h => h
  cases out with
  | error e => exact absurd hout (hsql fuel e)
  | ok result =>
      obtain ⟨status, s⟩ := result
      exact ⟨vi', r, status, s, hr, ⟨fuel, hout⟩, hall fuel status s hout "a"
        (.inl (mem_growing_of_first (by decide))) rfl⟩

end VideoStorage.Jobs
