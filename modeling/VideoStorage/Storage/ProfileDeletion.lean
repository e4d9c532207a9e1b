import Mathlib.Data.Finset.Image
import Mathlib.Data.Finset.Range
import VideoStorage.Storage.ProfileImages

/-!
# Deleting profile images

The deletion reads one page of the list. It is scoped to its user, whatever comes
back; it is complete as long as the page is the last one (`deletion_iff`).
-/

namespace VideoStorage.Storage.ProfileImages

open Foundation
open Prog (Runs runs_bind runs_call runs_ret)

/-! ## The runs -/

variable {cfg : ProfileS3Config} {principal key : String}
  {contents : List (Option String)} {tr : List ProfileExchange}
  {out : Except String Unit}

/-- A list or a deletion that failed. -/
def failed : ProfileExchange → Bool
  | ⟨.listObjectsV2 _, .error _⟩ => true
  | ⟨.deleteObject _, .error _⟩ => true
  | _ => false

/-- Only listed keys are deleted; without an error, all of them. -/
theorem deleteListed_runs (h : Runs (deleteListed contents) tr out) :
    (∀ x ∈ tr, ∃ key r, some key ∈ contents ∧ x = ⟨.deleteObject key, r⟩) ∧
      ((out = .ok () ∧ (∀ x ∈ tr, failed x = false) ∧
          ∀ key, some key ∈ contents → ⟨.deleteObject key, .ok ()⟩ ∈ tr) ∨
        ((∃ e, out = .error e) ∧ ∃ x ∈ tr, failed x = true)) := by
  induction contents generalizing tr with
  | nil =>
      obtain ⟨rfl, rfl⟩ := runs_ret.mp h
      simp
  | cons item rest ih =>
      cases item with
      | none =>
          obtain ⟨hkeys, hout⟩ := ih h
          constructor
          · intro x hx
            obtain ⟨key, r, hkey, rfl⟩ := hkeys x hx
            exact ⟨key, r, List.mem_cons_of_mem _ hkey, rfl⟩
          · simpa using hout
      | some key =>
          simp only [deleteListed, Prog.bind_eq, Prog.issue_bind, runs_call] at h
          obtain ⟨reply, tr', rfl, h⟩ := h
          cases reply with
          | error e =>
              obtain ⟨rfl, rfl⟩ := runs_ret.mp h
              constructor
              · intro x hx
                obtain rfl := List.mem_singleton.mp hx
                exact ⟨key, _, List.mem_cons_self, rfl⟩
              · exact .inr ⟨⟨_, rfl⟩, _, List.mem_cons_self, rfl⟩
          | ok u =>
              obtain ⟨hkeys, hout⟩ := ih h
              constructor
              · intro x hx
                rcases List.mem_cons.mp hx with rfl | hx
                · exact ⟨key, _, List.mem_cons_self, rfl⟩
                · obtain ⟨key', r, hkey, rfl⟩ := hkeys x hx
                  exact ⟨key', r, List.mem_cons_of_mem _ hkey, rfl⟩
              · rcases hout with ⟨hok, hnone, hall⟩ | ⟨herr, x, hx, hfailed⟩
                · refine .inl ⟨hok, ?_, ?_⟩
                  · intro x hx
                    rcases List.mem_cons.mp hx with rfl | hx
                    · rfl
                    · exact hnone x hx
                  · intro key' hkey'
                    rcases List.mem_cons.mp hkey' with heq | hkey'
                    · obtain rfl := Option.some.inj heq
                      exact List.mem_cons_self
                    · exact List.mem_cons_of_mem _ (hall key' hkey')
                · exact .inr ⟨herr, x, List.mem_cons_of_mem _ hx, hfailed⟩

theorem deleteProfileImages_runs (h : Runs (deleteProfileImages cfg principal) tr out) :
    (∃ e e', tr = [⟨.listObjectsV2 (cfg.userPrefix principal), .error e⟩] ∧
      out = .error e') ∨
    ∃ page tr', tr = ⟨.listObjectsV2 (cfg.userPrefix principal), .ok page⟩ :: tr' ∧
      Runs (deleteListed page.contents) tr' out := by
  simp only [deleteProfileImages, Prog.bind_eq, Prog.issue_bind, runs_call] at h
  obtain ⟨reply, tr', rfl, h⟩ := h
  cases reply with
  | error e =>
      obtain ⟨rfl, rfl⟩ := runs_ret.mp h
      exact .inl ⟨e, _, rfl, rfl⟩
  | ok page => exact .inr ⟨page, tr', rfl, h⟩

/-- What may come before the old images are gone. -/
def ProfileCall.Clearing : ProfileCall → Prop
  | .putObject _ _ => False
  | .updateProfileDetails _ => False
  | _ => True

theorem deleteListed_only (contents : List (Option String)) :
    (deleteListed contents).Only ProfileCall.Clearing := by
  induction contents with
  | nil => trivial
  | cons item rest ih =>
      cases item with
      | none => exact ih
      | some key =>
          refine ⟨trivial, ?_⟩
          rintro (_ | _)
          · trivial
          · exact ih

theorem deleteProfileImages_only :
    (deleteProfileImages cfg principal).Only ProfileCall.Clearing := by
  refine ⟨trivial, ?_⟩
  rintro (_ | page)
  · trivial
  · exact deleteListed_only page.contents

/-! ## Prefixes of users -/

/-- The text up to the first separator is known from the whole. -/
theorem eq_of_append_cons_eq {α : Type} {c : α} {p q r s : List α} (hp : c ∉ p)
    (hq : c ∉ q) (h : p ++ c :: r = q ++ c :: s) : p = q := by
  induction p generalizing q with
  | nil =>
      cases q with
      | nil => rfl
      | cons d q =>
          obtain ⟨rfl, -⟩ := List.cons.inj h
          exact absurd List.mem_cons_self hq
  | cons d p ih =>
      cases q with
      | nil =>
          obtain ⟨rfl, -⟩ := List.cons.inj h
          exact absurd List.mem_cons_self hp
      | cons d' q =>
          obtain ⟨rfl, htail⟩ := List.cons.inj h
          simp only [List.mem_cons, not_or] at hp hq
          rw [ih hp.2 hq.2 htail]

/-- A key is under the prefix of one user only. -/
theorem userPrefix_apart {other : String} (hprincipal : '/' ∉ principal.toList)
    (hother : '/' ∉ other.toList)
    (h : startsWith (cfg.userPrefix principal) key = true)
    (h' : startsWith (cfg.userPrefix other) key = true) : other = principal := by
  obtain ⟨rest, hrest⟩ := Option.isSome_iff_exists.mp h
  obtain ⟨rest', hrest'⟩ := Option.isSome_iff_exists.mp h'
  rw [stripPrefix_eq_some] at hrest hrest'
  rw [hrest, ← String.toList_inj] at hrest'
  simp only [ProfileS3Config.userPrefix, String.toList_append, List.append_assoc,
    List.append_cancel_left_eq] at hrest'
  rw [← String.toList_inj]
  exact (eq_of_append_cons_eq hprincipal hother hrest').symm

/-! ## Complete and scoped -/

/-- What a deletion that answers `out` makes of the bucket. -/
structure Deletion (cfg : ProfileS3Config) (principal : String)
    (before after : Finset String) (out : Except String Unit) : Prop where
  noneLeft : out = .ok () →
    ∀ key ∈ after, startsWith (cfg.userPrefix principal) key = false
  ownOnly : ∀ key ∈ before, key ∉ after →
    startsWith (cfg.userPrefix principal) key = true
  others : ∀ other, '/' ∉ other.toList → other ≠ principal → ∀ key ∈ before,
    startsWith (cfg.userPrefix other) key = true → key ∈ after

section

variable {w : ProfileWorld} {xs : List Happened}

/-- What is left is what no deletion was carried out for. -/
theorem mem_after_deleteProfileImages
    (hrun : Runs (deleteProfileImages cfg principal) (xs.map (·.exchange)) out) :
    key ∈ (w.after xs).objects ↔
      key ∈ w.objects ∧ StoreEvent.deleted key ∉ xs.map Happened.event := by
  rw [objects_after]
  exact StoreEvent.mem_after_of_no_put
    (put_notMem (fun _ _ => id) (deleteProfileImages_only.runs hrun))

/-- The page that was read lists what was there when it was read. -/
theorem lists_of_truthful {keyPrefix : String} {page : ListPage}
    (htr : xs.map (·.exchange) = ⟨.listObjectsV2 keyPrefix, .ok page⟩ :: tr)
    (h : Truthful w xs) : page.Lists keyPrefix w.objects := by
  cases xs with
  | nil => cases htr
  | cons x xs =>
      have hx : x.exchange = ⟨.listObjectsV2 keyPrefix, .ok page⟩ :=
        (List.cons.inj htr).1
      have hlist := h.1
      unfold Happened.Truthful at hlist
      rw [hx] at hlist
      exact hlist

/-- What is deleted was listed, on the page that was read. -/
theorem listed_of_deleted
    (hrun : Runs (deleteProfileImages cfg principal) (xs.map (·.exchange)) out)
    (hevent : StoreEvent.deleted key ∈ xs.map Happened.event) :
    ∃ page tr, xs.map (·.exchange) =
        ⟨.listObjectsV2 (cfg.userPrefix principal), .ok page⟩ :: tr ∧
      some key ∈ page.contents := by
  obtain ⟨x, hx, hevent⟩ := List.mem_map.mp hevent
  obtain ⟨⟨r, hexchange⟩, -⟩ := event_eq_deleted.mp hevent
  have hmem : (⟨.deleteObject key, r⟩ : ProfileExchange) ∈ xs.map (·.exchange) :=
    List.mem_map.mpr ⟨x, hx, hexchange⟩
  rcases deleteProfileImages_runs hrun with ⟨e, e', htr, -⟩ | ⟨page, tr', htr, hdel⟩
  · rw [htr] at hmem
    cases List.mem_singleton.mp hmem
  · refine ⟨page, tr', htr, ?_⟩
    rw [htr] at hmem
    rcases List.mem_cons.mp hmem with heq | hmem
    · cases heq
    · obtain ⟨key', r', hkey', heq⟩ := (deleteListed_runs hdel).1 _ hmem
      cases heq
      exact hkey'

/-- Without a failure, the last page leaves nothing. -/
theorem noneLeft_iff {page : ListPage}
    (hrun : Runs (deleteProfileImages cfg principal) (xs.map (·.exchange)) out)
    (h : Truthful w xs)
    (htr : xs.map (·.exchange) =
      ⟨.listObjectsV2 (cfg.userPrefix principal), .ok page⟩ :: tr)
    (hall : ∀ key, some key ∈ page.contents → ⟨.deleteObject key, .ok ()⟩ ∈ tr) :
    (∀ key ∈ (w.after xs).objects, startsWith (cfg.userPrefix principal) key = false) ↔
      page.nextContinuationToken = none := by
  rw [(lists_of_truthful htr h).last]
  constructor
  · intro hnone key hkey hstarts
    by_contra hunlisted
    -- what the page leaves out stays
    have hstays : key ∈ (w.after xs).objects := by
      refine (mem_after_deleteProfileImages hrun).mpr ⟨hkey, ?_⟩
      intro hevent
      obtain ⟨page', tr', htr', hlisted⟩ := listed_of_deleted hrun hevent
      rw [htr] at htr'
      cases htr'
      exact hunlisted hlisted
    rw [hnone key hstays] at hstarts
    cases hstarts
  · intro hlast key hkey
    rw [Bool.eq_false_iff]
    intro hstarts
    obtain ⟨hbefore, hkept⟩ := (mem_after_deleteProfileImages hrun).mp hkey
    have hmem := hall key (hlast key hbefore hstarts)
    exact hkept (h.deleted (htr ▸ List.mem_cons_of_mem _ hmem))

end

/-! ## Buckets of images of one user -/

/-- Uploads of one user at successive seconds. -/
def imageKey (i : ℕ) : String := ProfileS3Config.fromEnv.objectKey "aaaaa-aa" (1700000000 + i)

def bucket (n : ℕ) : ProfileWorld where
  objects := (Finset.range n).image imageKey
  profilePictureUrl := none

/-- The first page of the list of such a bucket. -/
def firstPage (n : ℕ) : ListPage where
  contents := (List.range (min n 1000)).map (some ∘ imageKey)
  nextContinuationToken := if n ≤ 1000 then none else some (imageKey 999)

/-- The page is listed, and what is on it is deleted. -/
def pageDeleted (n : ℕ) : List Happened :=
  ⟨⟨.listObjectsV2 (ProfileS3Config.fromEnv.userPrefix "aaaaa-aa"), .ok (firstPage n)⟩, true⟩ ::
    (List.range (min n 1000)).map fun i => ⟨⟨.deleteObject (imageKey i), .ok ()⟩, true⟩

theorem imageKey_injective : Function.Injective imageKey := by
  intro i j h
  rw [imageKey, imageKey, ProfileS3Config.objectKey, ProfileS3Config.objectKey,
    String.append_left_inj, String.append_right_inj] at h
  have := toString_nat_injective h
  omega

theorem startsWith_imageKey (i : ℕ) :
    startsWith (ProfileS3Config.fromEnv.userPrefix "aaaaa-aa") (imageKey i) = true := by
  rw [imageKey, ProfileS3Config.objectKey, String.append_assoc]
  exact startsWith_append

theorem firstPage_lists (n : ℕ) :
    (firstPage n).Lists (ProfileS3Config.fromEnv.userPrefix "aaaaa-aa") (bucket n).objects := by
  constructor
  · intro key hkey
    obtain ⟨i, hi, heq⟩ := List.mem_map.mp hkey
    obtain rfl := Option.some.inj heq
    have hlt : i < n := by
      have := List.mem_range.mp hi
      omega
    exact ⟨Finset.mem_image_of_mem _ (Finset.mem_range.mpr hlt), startsWith_imageKey i⟩
  · simp [firstPage]
  · constructor
    · intro hlast key hkey _
      obtain ⟨i, hi, rfl⟩ := Finset.mem_image.mp hkey
      have hn : n ≤ 1000 := by
        by_contra hn
        simp [firstPage, hn] at hlast
      have := Finset.mem_range.mp hi
      exact List.mem_map.mpr ⟨i, List.mem_range.mpr (by omega), rfl⟩
    · intro hall
      have hn : n ≤ 1000 := by
        by_contra hn
        -- the key after those of the page
        have hmem := hall (imageKey 1000)
          (Finset.mem_image_of_mem _ (Finset.mem_range.mpr (by omega)))
          (startsWith_imageKey 1000)
        obtain ⟨i, hi, heq⟩ := List.mem_map.mp hmem
        obtain rfl := imageKey_injective (Option.some.inj heq)
        have := List.mem_range.mp hi
        omega
      simp [firstPage, hn]

theorem truthful_deleteObject {w : ProfileWorld} (is : List ℕ) :
    Truthful w (is.map fun i => ⟨⟨.deleteObject (imageKey i), .ok ()⟩, true⟩) := by
  induction is generalizing w with
  | nil => trivial
  | cons i is ih => exact ⟨rfl, ih⟩

theorem pageDeleted_truthful (n : ℕ) : Truthful (bucket n) (pageDeleted n) :=
  ⟨firstPage_lists n, truthful_deleteObject _⟩

theorem runs_deleteListed (is : List ℕ) :
    Runs (deleteListed (is.map (some ∘ imageKey)))
      (is.map fun i => ⟨.deleteObject (imageKey i), .ok ()⟩) (.ok ()) := by
  induction is with
  | nil => exact .ret _
  | cons i is ih => exact .call ih

theorem pageDeleted_runs (n : ℕ) :
    Runs (deleteProfileImages .fromEnv "aaaaa-aa") ((pageDeleted n).map (·.exchange))
      (.ok ()) := by
  have h := runs_deleteListed (List.range (min n 1000))
  rw [pageDeleted, List.map_cons, List.map_map, deleteProfileImages, Prog.bind_eq,
    Prog.issue_bind, runs_call]
  exact ⟨_, _, rfl, h⟩

/-- What does not fit on the page is left. -/
theorem imageKey_left {n : ℕ} (hn : 1000 < n) :
    imageKey 1000 ∈ ((bucket n).after (pageDeleted n)).objects := by
  have hrun := pageDeleted_runs n
  refine (mem_after_deleteProfileImages hrun).mpr
    ⟨Finset.mem_image_of_mem _ (Finset.mem_range.mpr hn), ?_⟩
  intro hevent
  obtain ⟨page, tr, htr, hlisted⟩ := listed_of_deleted hrun hevent
  rw [pageDeleted, List.map_cons, List.cons.injEq] at htr
  cases htr.1
  obtain ⟨i, hi, heq⟩ := List.mem_map.mp hlisted
  obtain rfl := imageKey_injective (Option.some.inj heq)
  have := List.mem_range.mp hi
  omega

theorem deletion_of_crowded {n : ℕ} (hn : 1000 < n) :
    Runs (deleteProfileImages .fromEnv "aaaaa-aa") ((pageDeleted n).map (·.exchange))
        (.ok ()) ∧
      Truthful (bucket n) (pageDeleted n) ∧
      imageKey 1000 ∈ ((bucket n).after (pageDeleted n)).objects ∧
      startsWith (ProfileS3Config.fromEnv.userPrefix "aaaaa-aa") (imageKey 1000) = true ∧
      ¬ Deletion .fromEnv "aaaaa-aa" (bucket n).objects
          ((bucket n).after (pageDeleted n)).objects (.ok ()) := by
  refine ⟨pageDeleted_runs n, pageDeleted_truthful n, imageKey_left hn,
    startsWith_imageKey 1000, ?_⟩
  intro hdeletion
  have hnone := hdeletion.noneLeft rfl _ (imageKey_left hn)
  rw [startsWith_imageKey] at hnone
  cases hnone

/-! ## When a deletion is complete -/

/-- **Scoped always; complete exactly if something fails or the list ends with the
page that is read.** -/
theorem deletion_iff {w : ProfileWorld} {xs : List Happened}
    (hprincipal : '/' ∉ principal.toList)
    (hrun : Runs (deleteProfileImages cfg principal) (xs.map (·.exchange)) out)
    (h : Truthful w xs) :
    Deletion cfg principal w.objects (w.after xs).objects out ↔
      (∃ x ∈ xs.map (·.exchange), failed x = true) ∨
        ∀ page, ⟨.listObjectsV2 (cfg.userPrefix principal), .ok page⟩ ∈
          xs.map (·.exchange) → page.nextContinuationToken = none := by
  have hown : ∀ key ∈ w.objects, key ∉ (w.after xs).objects →
      startsWith (cfg.userPrefix principal) key = true := by
    intro key hkey hgone
    rw [mem_after_deleteProfileImages hrun, not_and, not_not] at hgone
    obtain ⟨page, tr, htr, hlisted⟩ := listed_of_deleted hrun (hgone hkey)
    exact ((lists_of_truthful htr h).keys key hlisted).2
  have hothers : ∀ other, '/' ∉ other.toList → other ≠ principal → ∀ key ∈ w.objects,
      startsWith (cfg.userPrefix other) key = true → key ∈ (w.after xs).objects := by
    intro other hother hne key hkey hstarts
    by_contra hgone
    exact hne (userPrefix_apart hprincipal hother (hown key hkey hgone) hstarts)
  rcases deleteProfileImages_runs hrun with ⟨e, e', htr, rfl⟩ | ⟨page, tr', htr, hdel⟩
  · -- the list failed, and nothing is promised
    exact iff_of_true ⟨nofun, hown, hothers⟩
      (.inl ⟨_, htr ▸ List.mem_singleton_self _, rfl⟩)
  · obtain ⟨hcalls, ⟨rfl, hnone, hall⟩ | ⟨⟨e, rfl⟩, x, hx, hfailed⟩⟩ :=
      deleteListed_runs hdel
    · have hnofail : ¬ ∃ x ∈ xs.map (·.exchange), failed x = true := by
        rw [htr]
        rintro ⟨x, hx, hfailed⟩
        rcases List.mem_cons.mp hx with rfl | hx
        · cases hfailed
        · rw [hnone x hx] at hfailed
          cases hfailed
      -- the only list is the one that was answered with the page
      have honly : ∀ page', ⟨.listObjectsV2 (cfg.userPrefix principal), .ok page'⟩ ∈
          xs.map (·.exchange) ↔ page' = page := by
        intro page'
        rw [htr, List.mem_cons]
        constructor
        · rintro (heq | hmem)
          · cases heq
            rfl
          · obtain ⟨key, r, -, heq⟩ := hcalls _ hmem
            cases heq
        · rintro rfl
          exact .inl rfl
      have hnoneLeft := noneLeft_iff hrun h htr hall
      simp only [or_iff_right hnofail, honly, forall_eq]
      constructor
      · exact fun hdeletion => hnoneLeft.mp (hdeletion.noneLeft rfl)
      · exact fun hlast => ⟨fun _ => hnoneLeft.mpr hlast, hown, hothers⟩
    · exact iff_of_true ⟨nofun, hown, hothers⟩
        (.inl ⟨x, htr ▸ List.mem_cons_of_mem _ hx, hfailed⟩)

/-- Three images fit on a page. -/
theorem deletion_iff_three :
    Deletion .fromEnv "aaaaa-aa" (bucket 3).objects
        ((bucket 3).after (pageDeleted 3)).objects (.ok ()) ↔
      (∃ x ∈ (pageDeleted 3).map (·.exchange), failed x = true) ∨
        ∀ page, ⟨.listObjectsV2 (ProfileS3Config.fromEnv.userPrefix "aaaaa-aa"), .ok page⟩ ∈
          (pageDeleted 3).map (·.exchange) → page.nextContinuationToken = none :=
  deletion_iff (by decide) (pageDeleted_runs 3) (pageDeleted_truthful 3)

/-- Of 1001 images one is left, and the deletion is a success. -/
theorem deletion_incomplete :
    Runs (deleteProfileImages .fromEnv "aaaaa-aa") ((pageDeleted 1001).map (·.exchange))
        (.ok ()) ∧
      Truthful (bucket 1001) (pageDeleted 1001) ∧
      imageKey 1000 ∈ ((bucket 1001).after (pageDeleted 1001)).objects ∧
      startsWith (ProfileS3Config.fromEnv.userPrefix "aaaaa-aa") (imageKey 1000) = true ∧
      ¬ Deletion .fromEnv "aaaaa-aa" (bucket 1001).objects
          ((bucket 1001).after (pageDeleted 1001)).objects (.ok ()) :=
  deletion_of_crowded (by omega)

end VideoStorage.Storage.ProfileImages
