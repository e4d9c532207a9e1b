import Mathlib.Data.String.Basic
import VideoStorage.Db.Tables
import VideoStorage.Foundation.Greatest
import VideoStorage.Foundation.Like

/-!
# Where an incremental scan resumes

`get_max_storj_key` and `get_max_hetzner_key` read the prefix of a scan as a
pattern, the listing of the bucket takes it as it is. For a prefix without
pattern characters the two are one (`resumes_iff`).
-/

namespace VideoStorage.Db

open Foundation

namespace VideoTables

def storjKeys (t : VideoTables) : List (Option String) :=
  t.videoIndex.entries.map (·.2.storjKey)

def hetznerKeys (t : VideoTables) : List (Option String) :=
  t.videoIndex.entries.map (·.2.hetznerKey)

end VideoTables

def maxKey (column : List (Option String)) : Option String →
    Except LikeError (Option String)
  | some p => maxWhere (like (p ++ "%")) column
  | none => maxWhere (fun _ => .ok true) column

def getMaxStorjKey (p : Option String) (t : VideoTables) :
    Except LikeError (Option String) := maxKey t.storjKeys p

def getMaxHetznerKey (p : Option String) (t : VideoTables) :
    Except LikeError (Option String) := maxKey t.hetznerKeys p

/-- The `start_after` of `scan_storj`. -/
def scanStorjStart (fullScan : Bool) (p : Option String) (t : VideoTables) :
    Except LikeError (Option String) :=
  if fullScan then .ok none else getMaxStorjKey p t

/-- The `start_after` of `scan_hetzner`. -/
def scanHetznerStart (fullScan : Bool) (p : Option String) (t : VideoTables) :
    Except LikeError (Option String) :=
  if fullScan then .ok none else getMaxHetznerKey p t

/-! ## The prefix as it is, and as a pattern -/

/-- The keys a listing under the prefix would hold. -/
def under (p : String) (column : List (Option String)) : Set String :=
  {k | some k ∈ column ∧ startsWith p k = true}

def matched (p : String) (column : List (Option String)) : Set String :=
  {k | some k ∈ column ∧ like (p ++ "%") k = .ok true}

/-- Of the keys that match or start with the prefix the greatest does both. -/
def PatternAgrees (p : String) (column : List (Option String)) : Prop :=
  ∀ k, IsGreatest (matched p column ∪ under p column) k →
    like (p ++ "%") k = .ok true ∧ startsWith p k = true

variable {p : String} {t : VideoTables} {column : List (Option String)}

theorem finite_column : (matched p column ∪ under p column).Finite := by
  refine column.reduceOption.finite_toSet.subset ?_
  rintro k (hk | hk)
  · exact List.reduceOption_mem_iff.mpr hk.1
  · exact List.reduceOption_mem_iff.mpr hk.1

/-- **The greatest key of the pattern** is the greatest under the prefix. -/
theorem maxKey_iff :
    (∃ r, maxKey column (some p) = .ok r ∧ Greatest (under p column) r) ↔
      PatternAgrees p column := by
  obtain ⟨r, hr, hgreatest⟩ : ∃ r, maxKey column (some p) = .ok r ∧
      Greatest (matched p column) r := greatest_maxWhere (like_isOk p)
  have hiff := hgreatest.iff_of_greatest finite_column
  constructor
  · rintro ⟨r', hr', hunder⟩ k hk
    obtain rfl := Except.ok.inj (hr.symm.trans hr')
    obtain ⟨hmatch, hunder⟩ := hiff.mp hunder k hk
    exact ⟨hmatch.2, hunder.2⟩
  · intro h
    refine ⟨r, hr, hiff.mpr fun k hk => ?_⟩
    obtain ⟨hlike, hstarts⟩ := h k hk
    have hmem : some k ∈ column := hk.1.elim (fun h => h.1) (fun h => h.1)
    exact ⟨⟨hmem, hlike⟩, hmem, hstarts⟩

/-- What an incremental scan of either bucket resumes from. -/
structure Resumes (p : String) (t : VideoTables) : Prop where
  hetzner : ∃ r, getMaxHetznerKey (some p) t = .ok r ∧
    Greatest (under p t.hetznerKeys) r
  storj : ∃ r, getMaxStorjKey (some p) t = .ok r ∧ Greatest (under p t.storjKeys) r
  hetznerStart : ∀ k, scanHetznerStart false (some p) t = .ok (some k) →
    startsWith p k = true
  storjStart : ∀ k, scanStorjStart false (some p) t = .ok (some k) →
    startsWith p k = true

theorem starts_under {r : Except LikeError (Option String)}
    (h : ∃ k, r = .ok k ∧ Greatest (under p column) k) :
    ∀ k, r = .ok (some k) → startsWith p k = true := by
  rintro k rfl
  obtain ⟨k', hk', hgreatest⟩ := h
  obtain rfl := Except.ok.inj hk'
  exact hgreatest.1.2

theorem resumes_of_agrees : Resumes p t ↔
    PatternAgrees p t.hetznerKeys ∧ PatternAgrees p t.storjKeys := by
  rw [← maxKey_iff, ← maxKey_iff]
  constructor
  · exact fun h => ⟨h.hetzner, h.storj⟩
  · rintro ⟨hhetzner, hstorj⟩
    exact ⟨hhetzner, hstorj, starts_under hhetzner, starts_under hstorj⟩

theorem agrees_of_plain (h : ∀ c ∈ p.toList, LikePlain c) : PatternAgrees p column := by
  rintro k ⟨hk | hk, -⟩
  · exact ⟨hk.2, (like_plain h).mp hk.2⟩
  · exact ⟨(like_plain h).mpr hk.2, hk.2⟩

/-- An index of one video. -/
def oneKey (key : String) : VideoTables where
  videoIndex := AList.singleton "v" { hetznerKey := some key }

theorem not_agrees_oneKey {key : String} (hlike : like (p ++ "%") key = .ok true)
    (hstarts : startsWith p key = false) :
    ¬ PatternAgrees p (oneKey key).hetznerKeys := by
  have hkeys : (oneKey key).hetznerKeys = [some key] := rfl
  intro h
  rw [hkeys] at h
  have hgreatest : IsGreatest (matched p [some key] ∪ under p [some key]) key := by
    refine ⟨.inl ⟨List.mem_singleton_self _, hlike⟩, ?_⟩
    rintro k (hk | hk)
    · exact (Option.some.inj (List.mem_singleton.mp hk.1)).le
    · exact (Option.some.inj (List.mem_singleton.mp hk.1)).le
  rw [(h key hgreatest).2] at hstarts
  cases hstarts

/-- **A scan resumes under its prefix** in an index whose greatest candidate both
matches and starts with it; in every index exactly for a prefix without pattern
characters. -/
theorem resumes_iff (p : String) :
    (∀ t, Resumes p t ↔
      PatternAgrees p t.hetznerKeys ∧ PatternAgrees p t.storjKeys) ∧
    ((∀ t, Resumes p t) ↔ ∀ c ∈ p.toList, LikePlain c) := by
  refine ⟨fun t => resumes_of_agrees, fun h => ?_, fun h t =>
    resumes_of_agrees.mpr ⟨agrees_of_plain h, agrees_of_plain h⟩⟩
  by_contra hplain
  push Not at hplain
  obtain ⟨key, hlike, hstarts⟩ := exists_like_not_startsWith hplain
  exact not_agrees_oneKey hlike hstarts (resumes_of_agrees.mp (h (oneKey key))).1

/-- An upload under the temporary prefix, and a user whose id fits its pattern. -/
def pendingIndex : VideoTables where
  videoIndex := (AList.singleton "_pending/v" { hetznerKey := some "_pending/v.mp4" }).insert
    "apending/w" { hetznerKey := some "apending/w.mp4" }

/-- The scan of the temporary prefix starts past all it would list. -/
theorem resumes_outside :
    scanHetznerStart false (some "_pending/") pendingIndex
        = .ok (some "apending/w.mp4") ∧
      Greatest (under "_pending/" pendingIndex.hetznerKeys) (some "_pending/v.mp4") ∧
      ¬ Resumes "_pending/" pendingIndex := by
  have hstart : scanHetznerStart false (some "_pending/") pendingIndex
      = .ok (some "apending/w.mp4") := by decide +kernel
  have hother : startsWith "_pending/" "apending/w.mp4" = false := by decide +kernel
  refine ⟨hstart, ⟨⟨by decide +kernel, by decide +kernel⟩, ?_⟩, fun h => ?_⟩
  · rintro k ⟨hk, hunder⟩
    have hkeys : pendingIndex.hetznerKeys
        = [some "apending/w.mp4", some "_pending/v.mp4"] := by decide +kernel
    rw [hkeys, List.mem_cons, List.mem_singleton] at hk
    rcases hk with hk | hk
    · obtain rfl := Option.some.inj hk
      rw [hother] at hunder
      cases hunder
    · exact (Option.some.inj hk).le
  · have hinside := h.hetznerStart _ hstart
    rw [hother] at hinside
    cases hinside

end VideoStorage.Db
