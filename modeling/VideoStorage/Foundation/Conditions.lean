import Mathlib.Algebra.BigOperators.Group.List.Basic
import Mathlib.Data.List.Dedup
import Mathlib.Data.List.Nodup
import Mathlib.Data.Set.Card

/-!
# Conditions and groups

A condition of SQL is true, false or null, and a clause takes the rows for which
it is true. Conditions of which each row satisfies exactly one count every row
once (`sum_countWhere`); `GROUP BY` with `HAVING` and with its negation share out
the keys.
-/

namespace VideoStorage.Foundation

/-! ## Three values -/

/-- `none` is `NULL`. -/
abbrev Cond : Type := Option Bool

namespace Cond

def and : Cond → Cond → Cond
  | some false, _ | _, some false => some false
  | some true, some true => some true
  | _, _ => none

/-- `value = constant`. -/
def eq {V : Type} [DecidableEq V] (value : Option V) (constant : V) : Cond :=
  value.map fun v => decide (v = constant)

/-- `a = b` of two columns. -/
def same {V : Type} [DecidableEq V] (a b : Option V) : Cond :=
  a.bind fun x => b.map fun y => decide (x = y)

/-- `value <> constant`. -/
def ne {V : Type} [DecidableEq V] (value : Option V) (constant : V) : Cond :=
  value.map fun v => decide (v ≠ constant)

/-- `value IN (constants)`. -/
def isIn {V : Type} [DecidableEq V] (value : Option V) (constants : List V) : Cond :=
  value.map fun v => decide (v ∈ constants)

/-- `value IS NULL`, which is never null itself. -/
def isNull {V : Type} (value : Option V) : Cond := some value.isNone

/-- `value IS NOT NULL`. -/
def isNotNull {V : Type} (value : Option V) : Cond := some value.isSome

variable {a b : Cond} {V : Type} [DecidableEq V] {value : Option V} {constant : V}

@[simp] theorem and_eq_true :
    a.and b = some true ↔ a = some true ∧ b = some true := by
  rcases a with _ | _ | _ <;> rcases b with _ | _ | _ <;> simp [and]

@[simp] theorem eq_eq_true :
    Cond.eq value constant = some true ↔ value = some constant := by
  cases value <;> simp [Cond.eq]

@[simp] theorem same_eq_true {a b : Option V} :
    Cond.same a b = some true ↔ ∃ x, a = some x ∧ b = some x := by
  cases a <;> cases b <;> simp [Cond.same, eq_comm]

@[simp] theorem isIn_eq_true {constants : List V} :
    Cond.isIn value constants = some true ↔ ∃ v ∈ constants, value = some v := by
  cases value <;> simp [Cond.isIn]

@[simp] theorem isNull_eq_true {W : Type} {o : Option W} :
    Cond.isNull o = some true ↔ o = none := by
  simp [Cond.isNull]

@[simp] theorem isNotNull_eq_true {W : Type} {o : Option W} :
    Cond.isNotNull o = some true ↔ o.isSome := by
  simp [Cond.isNotNull]

@[simp] theorem ne_eq_true : Cond.ne value constant = some true ↔
    ∃ v, value = some v ∧ v ≠ constant := by
  cases value <;> simp [Cond.ne]

end Cond

/-! ## Counting -/

section Count

variable {α : Type} {rows : List α}

/-- `count(*) FILTER (WHERE …)`. -/
def countWhere (c : α → Cond) (rows : List α) : ℕ :=
  rows.countP fun r => c r = some true

theorem countWhere_cons (c : α → Cond) (r : α) (rows : List α) :
    countWhere c (r :: rows)
      = countWhere c rows + if c r = some true then 1 else 0 := by
  unfold countWhere
  rw [List.countP_cons]
  simp only [decide_eq_true_eq]

theorem countWhere_mono {c c' : α → Cond}
    (h : ∀ r, c r = some true → c' r = some true) :
    countWhere c rows ≤ countWhere c' rows :=
  List.countP_mono_left fun r _ hr =>
    decide_eq_true (h r (of_decide_eq_true hr))

/-- **Conditions that share out the rows** count each row once. -/
theorem sum_countWhere {cs : List (α → Cond)}
    (h : ∀ r ∈ rows, cs.countP (fun c => c r = some true) = 1) :
    (cs.map fun c => countWhere c rows).sum = rows.length := by
  induction rows with
  | nil => simp [countWhere]
  | cons r rows ih =>
      -- a row more is one more in exactly one count
      have hcons : ∀ cs : List (α → Cond),
          (cs.map fun c => countWhere c (r :: rows)).sum
            = (cs.map fun c => countWhere c rows).sum +
              cs.countP (fun c => c r = some true) := by
        intro cs
        induction cs with
        | nil => rfl
        | cons c cs ihcs =>
            rw [List.map_cons, List.sum_cons, ihcs, List.map_cons,
              List.sum_cons, countWhere_cons, List.countP_cons]
            simp only [decide_eq_true_eq]
            omega
      rw [hcons, ih fun r' hr' => h r' (List.mem_cons_of_mem _ hr'),
        h r List.mem_cons_self, List.length_cons]

end Count

/-! ## Distinct values -/

section Distinct

variable {α : Type}

theorem ncard_members {l : List α} (hl : l.Nodup) :
    ({a | a ∈ l} : Set α).ncard = l.length := by
  classical
  rw [← List.coe_toFinset, Set.ncard_coe_finset]
  exact List.toFinset_card_of_nodup hl

/-- A count of distinct values that all belong to a set is the count of the set,
zero set aside, exactly if the whole set was counted. -/
theorem count_eq_ncard_iff {s : Set α} {l : List α} (hs : s.Finite)
    (hl : l.Nodup) (h : ∀ a ∈ l, a ∈ s) :
    (∀ n, n = l.length ∧ n ≠ 0 ↔ n = s.ncard ∧ n ≠ 0) ↔ ∀ a ∈ s, a ∈ l := by
  have hcard := ncard_members hl
  constructor
  · intro hcount
    have hlen : s.ncard ≤ l.length := by
      by_cases hzero : s.ncard = 0
      · omega
      · exact ((hcount _).mpr ⟨rfl, hzero⟩).1.le
    have heq := Set.eq_of_subset_of_ncard_le h (hlen.trans_eq hcard.symm) hs
    intro a ha
    rwa [← heq] at ha
  · intro hall n
    have heq : {a | a ∈ l} = s := Set.Subset.antisymm h hall
    rw [← hcard, heq]

variable [DecidableEq α]

theorem dedup_length_le {l l' : List α} (h : l ⊆ l') :
    l.dedup.length ≤ l'.dedup.length := by
  refine (List.subperm_of_subset (List.nodup_dedup l) fun a ha => ?_).length_le
  exact List.mem_dedup.mpr (h (List.mem_dedup.mp ha))

end Distinct

/-! ## Groups -/

section Groups

variable {α K : Type} [DecidableEq K] {key : α → K} {rows : List α}

/-- `GROUP BY key`. -/
def groups (key : α → K) (rows : List α) : List (K × List α) :=
  (rows.map key).dedup.map fun k => (k, rows.filter fun r => key r = k)

theorem mem_groups {g : K × List α} : g ∈ groups key rows ↔
    g.1 ∈ rows.map key ∧ g.2 = rows.filter fun r => key r = g.1 := by
  unfold groups
  rw [List.mem_map]
  constructor
  · rintro ⟨k, hk, rfl⟩
    exact ⟨List.mem_dedup.mp hk, rfl⟩
  · rintro ⟨hk, hg⟩
    exact ⟨g.1, List.mem_dedup.mpr hk, Prod.ext rfl hg.symm⟩

theorem groups_keys (key : α → K) (rows : List α) :
    (groups key rows).map (·.1) = (rows.map key).dedup := by
  unfold groups
  rw [List.map_map]
  exact List.map_id _

theorem groups_length_le (key : α → K) (rows : List α) :
    (groups key rows).length ≤ rows.length := by
  have hkeys := congrArg List.length (groups_keys key rows)
  rw [List.length_map] at hkeys
  rw [hkeys]
  exact (List.dedup_sublist _).length_le.trans_eq (List.length_map _)

/-- **The groups share out the rows.** -/
theorem groups_sum (key : α → K) (rows : List α) :
    ((groups key rows).map fun g => g.2.length).sum = rows.length := by
  have hcount : ∀ k, (rows.filter fun r => key r = k).length = (rows.map key).count k := by
    intro k
    rw [List.count, List.countP_map, ← List.countP_eq_length_filter]
    exact List.countP_congr fun r _ => by simp
  unfold groups
  rw [List.map_map]
  calc ((rows.map key).dedup.map fun k => (rows.filter fun r => key r = k).length).sum
      = ((rows.map key).dedup.map fun k => (rows.map key).count k).sum := by
        congr 1
        exact List.map_congr_left fun k _ => hcount k
    _ = (rows.map key).length := List.sum_map_count_dedup_eq_length _
    _ = rows.length := List.length_map _

/-- The keys of the groups that satisfy `HAVING`. -/
def having (p : List α → Bool) (gs : List (K × List α)) : List K :=
  (gs.filter fun g => p g.2).map (·.1)

theorem having_nodup (p : List α → Bool) :
    (having p (groups key rows)).Nodup := by
  have hkeys : ((groups key rows).map (·.1)).Nodup := by
    rw [groups_keys]
    exact List.nodup_dedup _
  exact hkeys.sublist (List.filter_sublist.map _)

theorem mem_having_any {p : α → Bool} {k : K} :
    k ∈ having (·.any p) (groups key rows) ↔
      ∃ r ∈ rows, key r = k ∧ p r = true := by
  unfold having
  rw [List.mem_map]
  constructor
  · rintro ⟨g, hg, rfl⟩
    obtain ⟨hmem, hany⟩ := List.mem_filter.mp hg
    obtain ⟨r, hr, hp⟩ := List.any_eq_true.mp hany
    rw [(mem_groups.mp hmem).2, List.mem_filter, decide_eq_true_eq] at hr
    exact ⟨r, hr.1, hr.2, hp⟩
  · rintro ⟨r, hr, rfl, hp⟩
    refine ⟨(key r, rows.filter fun r' => key r' = key r), ?_, rfl⟩
    refine List.mem_filter.mpr ⟨mem_groups.mpr ⟨List.mem_map_of_mem hr, rfl⟩, ?_⟩
    refine List.any_eq_true.mpr ⟨r, ?_, hp⟩
    exact List.mem_filter.mpr ⟨hr, decide_eq_true rfl⟩

section CountDistinct

variable {V : Type} [DecidableEq V] {value : α → V} {k : K}

/-- The distinct values of a group. -/
def valuesOf (key : α → K) (value : α → V) (rows : List α) (k : K) : List V :=
  ((rows.filter fun r => key r = k).map value).dedup

/-- `SELECT key, count(DISTINCT value) … GROUP BY key`. -/
def countDistinct (key : α → K) (value : α → V) (rows : List α) :
    List (K × ℕ) :=
  (groups key rows).map fun g => (g.1, (g.2.map value).dedup.length)

theorem mem_valuesOf {v : V} : v ∈ valuesOf key value rows k ↔
    ∃ r ∈ rows, key r = k ∧ value r = v := by
  unfold valuesOf
  rw [List.mem_dedup, List.mem_map]
  simp only [List.mem_filter, decide_eq_true_eq, and_assoc]

theorem valuesOf_nodup : (valuesOf key value rows k).Nodup :=
  List.nodup_dedup _

/-- Each key is there with its count, unless that is zero. -/
theorem mem_countDistinct {n : ℕ} : (k, n) ∈ countDistinct key value rows ↔
    n = (valuesOf key value rows k).length ∧ n ≠ 0 := by
  unfold countDistinct
  rw [List.mem_map]
  constructor
  · rintro ⟨g, hg, hkn⟩
    obtain ⟨rfl, hn⟩ := Prod.mk.inj hkn
    obtain ⟨hkey, hrows⟩ := mem_groups.mp hg
    rw [hrows] at hn
    obtain ⟨r, hr, hrk⟩ := List.mem_map.mp hkey
    have hmem : value r ∈ valuesOf key value rows g.1 :=
      mem_valuesOf.mpr ⟨r, hr, hrk, rfl⟩
    exact ⟨hn.symm, hn ▸ (List.length_pos_of_mem hmem).ne'⟩
  · rintro ⟨rfl, hn⟩
    obtain ⟨v, hv⟩ := List.exists_mem_of_length_pos (Nat.pos_of_ne_zero hn)
    obtain ⟨r, hr, hrk, -⟩ := mem_valuesOf.mp hv
    refine ⟨(k, rows.filter fun r => key r = k), ?_, rfl⟩
    exact mem_groups.mpr ⟨List.mem_map.mpr ⟨r, hr, hrk⟩, rfl⟩

theorem countDistinct_keys (key : α → K) (value : α → V) (rows : List α) :
    (countDistinct key value rows).map (·.1) = (rows.map key).dedup := by
  unfold countDistinct
  rw [List.map_map]
  exact groups_keys key rows

end CountDistinct

/-- `HAVING` and `HAVING NOT` share out the keys. -/
theorem having_length (p : List α → Bool) :
    (having p (groups key rows)).length +
      (having (fun rs => !p rs) (groups key rows)).length
        = (rows.map key).dedup.length := by
  unfold having
  rw [List.length_map, List.length_map, ← groups_keys, List.length_map]
  exact (List.length_eq_length_filter_add _).symm

end Groups

end VideoStorage.Foundation
