import Mathlib.Data.List.Dedup
import Mathlib.Data.List.Nodup

/-!
# Tables of rows that carry their key

A table is a list of rows in which no key comes twice, and a statement on it is
known by the rows it leaves; their order means nothing. An upsert here writes
every column.
-/

namespace VideoStorage.Foundation

variable {K R : Type}

structure Rows (key : R → K) where
  rows : List R := []
  keyed : (rows.map key).Nodup := by exact List.nodup_nil

namespace Rows

variable {key : R → K} (t : Rows key)

theorem eq_of_key {t : Rows key} {r r' : R} (hr : r ∈ t.rows)
    (hr' : r' ∈ t.rows) (h : key r = key r') : r = r' :=
  List.inj_on_of_nodup_map t.keyed hr hr' h

/-- `UPDATE`, of columns outside the key. -/
def update (f : R → R) (hf : ∀ r, key (f r) = key r) : Rows key where
  rows := t.rows.map f
  keyed := by
    rw [List.map_map, show key ∘ f = key from funext hf]
    exact t.keyed

@[simp] theorem mem_update (f : R → R) (hf : ∀ r, key (f r) = key r) {r : R} :
    r ∈ (t.update f hf).rows ↔ ∃ r₀ ∈ t.rows, f r₀ = r :=
  List.mem_map

/-- `DELETE`. -/
def delete (p : R → Bool) : Rows key where
  rows := t.rows.filter fun r => !p r
  keyed := t.keyed.sublist (List.filter_sublist.map key)

@[simp] theorem mem_delete {p : R → Bool} {r : R} :
    r ∈ (t.delete p).rows ↔ r ∈ t.rows ∧ p r = false := by
  show r ∈ t.rows.filter (fun r => !p r) ↔ _
  rw [List.mem_filter, Bool.not_eq_true']

variable [DecidableEq K]

/-- The row of a key. -/
def get (k : K) : Option R := t.rows.find? fun r => key r = k

theorem get_eq_some {t : Rows key} {k : K} {r : R} :
    t.get k = some r ↔ r ∈ t.rows ∧ key r = k := by
  have hsome : ∀ {k r}, t.get k = some r → r ∈ t.rows ∧ key r = k :=
    fun h => ⟨List.mem_of_find?_eq_some h, by simpa using List.find?_some h⟩
  refine ⟨hsome, ?_⟩
  rintro ⟨hmem, rfl⟩
  cases hget : t.get (key r) with
  | none =>
      have hnone := List.find?_eq_none.mp hget r hmem
      exact absurd (decide_eq_true rfl) hnone
  | some r' =>
      obtain ⟨hmem', hkey⟩ := hsome hget
      rw [eq_of_key hmem' hmem hkey]

theorem get_eq_none {t : Rows key} {k : K} :
    t.get k = none ↔ ∀ r ∈ t.rows, key r ≠ k := by
  unfold get
  simp

@[simp] theorem get_update (f : R → R) (hf : ∀ r, key (f r) = key r) (k : K) :
    (t.update f hf).get k = (t.get k).map f := by
  cases hget : t.get k with
  | none =>
      rw [get_eq_none] at hget
      rw [Option.map_none, get_eq_none]
      intro r hr
      obtain ⟨r₀, hr₀, rfl⟩ := (mem_update t f hf).mp hr
      rw [hf]
      exact hget r₀ hr₀
  | some r =>
      obtain ⟨hmem, hkey⟩ := get_eq_some.mp hget
      rw [Option.map_some, get_eq_some]
      exact ⟨(mem_update t f hf).mpr ⟨r, hmem, rfl⟩, (hf r).trans hkey⟩

/-- `INSERT … ON CONFLICT DO UPDATE`. -/
def upsert (new : R) : Rows key where
  rows := new :: t.rows.filter fun r => key r ≠ key new
  keyed := by
    rw [List.map_cons, List.nodup_cons]
    refine ⟨fun h => ?_, t.keyed.sublist (List.filter_sublist.map key)⟩
    obtain ⟨r, hr, hkey⟩ := List.mem_map.mp h
    exact (of_decide_eq_true (List.mem_filter.mp hr).2) hkey

@[simp] theorem mem_upsert {new r : R} : r ∈ (t.upsert new).rows ↔
    r = new ∨ (r ∈ t.rows ∧ key r ≠ key new) := by
  show r ∈ new :: t.rows.filter _ ↔ _
  rw [List.mem_cons, List.mem_filter, decide_eq_true_eq]

@[simp] theorem get_upsert_self (new : R) :
    (t.upsert new).get (key new) = some new :=
  get_eq_some.mpr ⟨(mem_upsert t).mpr (.inl rfl), rfl⟩

theorem get_upsert_of_ne {new : R} {k : K} (h : k ≠ key new) :
    (t.upsert new).get k = t.get k := by
  refine Option.ext fun r => ?_
  rw [get_eq_some, get_eq_some, mem_upsert]
  constructor
  · rintro ⟨rfl | ⟨hmem, -⟩, rfl⟩
    · exact absurd rfl h
    · exact ⟨hmem, rfl⟩
  · rintro ⟨hmem, rfl⟩
    exact ⟨.inr ⟨hmem, h⟩, rfl⟩

/-- The rows one after another. -/
def upsertAll (news : List R) : Rows key :=
  news.foldl (fun t new => t.upsert new) t

/-- Rows of different keys do not come in each other's way. -/
theorem mem_upsertAll {news : List R} (h : (news.map key).Nodup) {r : R} :
    r ∈ (t.upsertAll news).rows ↔
      r ∈ news ∨ (r ∈ t.rows ∧ ∀ new ∈ news, key r ≠ key new) := by
  unfold upsertAll
  induction news generalizing t with
  | nil => simp
  | cons new news ih =>
      rw [List.map_cons, List.nodup_cons] at h
      rw [List.foldl_cons, ih _ h.2, mem_upsert, List.mem_cons,
        List.forall_mem_cons]
      constructor
      · rintro (hmem | ⟨rfl | ⟨hmem, hne⟩, hall⟩)
        · exact .inl (.inr hmem)
        · exact .inl (.inl rfl)
        · exact .inr ⟨hmem, hne, hall⟩
      · rintro ((rfl | hmem) | ⟨hmem, hne, hall⟩)
        · refine .inr ⟨.inl rfl, fun r' hr' hkey => h.1 ?_⟩
          exact List.mem_map.mpr ⟨r', hr', hkey.symm⟩
        · exact .inl hmem
        · exact .inr ⟨.inr ⟨hmem, hne⟩, hall⟩

end Rows

end VideoStorage.Foundation
