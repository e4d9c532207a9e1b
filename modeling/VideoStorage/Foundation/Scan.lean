import Mathlib.Data.List.AList
import Mathlib.Data.List.Perm.Subperm
import Mathlib.Data.List.Sort

/-!
# Keyset scans

A page of a scan holds the rows whose key is past a cursor, in key order, up to
a limit; the cursor then moves to the last key of the page. Between the two
cursors nothing is left out (`mem_page_or_past`).
-/

namespace VideoStorage.Foundation

/-! ## The rows of a table -/

section Table

variable {κ R α : Type} {t : AList fun _ : κ => R} {f : κ → R → α} {key : α → κ}

/-- Rows that are read with their key. -/
theorem mem_map_entries [DecidableEq κ] (hkey : ∀ k r, key (f k r) = k) {a : α} :
    a ∈ t.entries.map (fun e => f e.1 e.2) ↔
      ∃ r, t.lookup (key a) = some r ∧ a = f (key a) r := by
  rw [List.mem_map]
  constructor
  · rintro ⟨⟨k, r⟩, he, rfl⟩
    rw [hkey]
    exact ⟨r, AList.mem_lookup_iff.mpr he, rfl⟩
  · rintro ⟨r, hr, ha⟩
    exact ⟨⟨key a, r⟩, AList.mem_lookup_iff.mp hr, ha.symm⟩

theorem map_entries_nodup (hkey : ∀ k r, key (f k r) = k) :
    ((t.entries.map fun e => f e.1 e.2).map key).Nodup := by
  have hkeys : (t.entries.map fun e => f e.1 e.2).map key = t.keys := by
    rw [List.map_map]
    exact List.map_congr_left fun e _ => hkey e.1 e.2
  rw [hkeys]
  exact t.keys_nodup

end Table

/-! ## Selecting rows -/

section Select

variable {α ε : Type} {p : α → Except ε Bool} {rows rows' : List α}

/-- The rows that satisfy a condition whose evaluation may fail. -/
def selectWhere (p : α → Except ε Bool) : List α → Except ε (List α)
  | [] => .ok []
  | row :: rows =>
      match p row, selectWhere p rows with
      | .ok true, .ok rows' => .ok (row :: rows')
      | .ok false, .ok rows' => .ok rows'
      | .error e, _ => .error e
      | _, .error e => .error e

theorem selectWhere_sublist (h : selectWhere p rows = .ok rows') :
    rows'.Sublist rows := by
  induction rows generalizing rows' with
  | nil =>
      cases h
      exact .slnil
  | cons row rows ih =>
      simp only [selectWhere] at h
      split at h
      · cases h
        exact (ih ‹_›).cons_cons row
      · cases h
        exact (ih ‹_›).cons row
      · cases h
      · cases h

theorem mem_selectWhere (h : selectWhere p rows = .ok rows') {row : α} :
    row ∈ rows' ↔ row ∈ rows ∧ p row = .ok true := by
  induction rows generalizing rows' with
  | nil =>
      cases h
      simp
  | cons r rows ih =>
      simp only [selectWhere] at h
      split at h
      · rename_i hp hrest
        cases h
        simp only [List.mem_cons, ih hrest]
        constructor
        · rintro (rfl | ⟨hmem, hrow⟩)
          · exact ⟨.inl rfl, hp⟩
          · exact ⟨.inr hmem, hrow⟩
        · rintro ⟨rfl | hmem, hrow⟩
          · exact .inl rfl
          · exact .inr ⟨hmem, hrow⟩
      · rename_i hp hrest
        cases h
        rw [ih hrest, List.mem_cons]
        constructor
        · rintro ⟨hmem, hrow⟩
          exact ⟨.inr hmem, hrow⟩
        · rintro ⟨rfl | hmem, hrow⟩
          · rw [hp] at hrow
            cases hrow
          · exact ⟨hmem, hrow⟩
      · cases h
      · cases h

/-- Where the condition can be evaluated on every row, the selection is there. -/
theorem selectWhere_isOk (h : ∀ row ∈ rows, ∃ b, p row = .ok b) :
    ∃ rows', selectWhere p rows = .ok rows' := by
  induction rows with
  | nil => exact ⟨[], rfl⟩
  | cons row rows ih =>
      obtain ⟨b, hb⟩ := h row List.mem_cons_self
      obtain ⟨rows', hrows⟩ := ih fun r hr => h r (List.mem_cons_of_mem _ hr)
      simp only [selectWhere, hb, hrows]
      cases b with
      | true => exact ⟨row :: rows', rfl⟩
      | false => exact ⟨rows', rfl⟩

/-- A selection that is there evaluated the condition on every row. -/
theorem isOk_of_selectWhere (h : selectWhere p rows = .ok rows') :
    ∀ row ∈ rows, ∃ b, p row = .ok b := by
  induction rows generalizing rows' with
  | nil => exact fun row hr => by cases hr
  | cons r rows ih =>
      intro row hr
      simp only [selectWhere] at h
      split at h
      · rename_i hp hrest
        rcases List.mem_cons.mp hr with rfl | hr
        · exact ⟨true, hp⟩
        · exact ih hrest row hr
      · rename_i hp hrest
        rcases List.mem_cons.mp hr with rfl | hr
        · exact ⟨false, hp⟩
        · exact ih hrest row hr
      · cases h
      · cases h

end Select

/-! ## Pages -/

section Page

variable {α κ : Type} [LinearOrder κ] {key : α → κ} {after : Option κ}
  {limit : Option ℕ} {rows : List α} {row last : α}

/-- Past the cursor; without a cursor every key is. -/
def past (after : Option κ) (k : κ) : Bool := after.all (· < k)

@[simp] theorem past_none (k : κ) : past none k = true := rfl

@[simp] theorem past_some (a k : κ) : past (some a) k = decide (a < k) := rfl

theorem past_trans {a k : κ} (ha : past after a = true)
    (hk : past (some a) k = true) : past after k = true := by
  cases after with
  | none => rfl
  | some b =>
      rw [past_some, decide_eq_true_eq] at ha hk ⊢
      exact ha.trans hk

/-- How many rows are past the cursor. -/
def ahead (key : α → κ) (rows : List α) (after : Option κ) : ℕ :=
  rows.countP fun row => past after (key row)

/-- A cursor that moves to a row that was past it leaves fewer rows ahead. -/
theorem ahead_lt (hlast : last ∈ rows) (hpast : past after (key last) = true) :
    ahead key rows (some (key last)) < ahead key rows after := by
  unfold ahead
  have hmono : ∀ row ∈ rows, past (some (key last)) (key row) = true →
      past after (key row) = true := fun row _ => past_trans hpast
  have hself : past (some (key last)) (key last) = false := by simp
  obtain ⟨pre, post, rfl⟩ := List.append_of_mem hlast
  simp only [List.countP_append, List.countP_cons, hself, hpast]
  have hpre := List.countP_mono_left
    (fun row hr => hmono row (List.mem_append_left _ hr))
  have hpost := List.countP_mono_left fun row hr =>
    hmono row (List.mem_append_right _ (List.mem_cons_of_mem _ hr))
  simp only [Bool.false_eq_true, if_false, if_true]
  omega

/-- `ORDER BY key LIMIT limit`. -/
def orderLimit (key : α → κ) (limit : Option ℕ) (rows : List α) : List α :=
  let sorted := rows.insertionSort fun a b => key a ≤ key b
  match limit with
  | some n => sorted.take n
  | none => sorted

/-- `LIMIT limit`, in the order the rows are found. -/
def limited (limit : Option ℕ) (rows : List α) : List α :=
  match limit with
  | some n => rows.take n
  | none => rows

/-- The cursor past a page. -/
def nextCursor (key : α → κ) (page : List α) : Option κ :=
  page.getLast?.map key

theorem orderLimit_sublist : (orderLimit key limit rows).Sublist
    (rows.insertionSort fun a b => key a ≤ key b) := by
  unfold orderLimit
  cases limit with
  | none => exact List.Sublist.refl _
  | some n => exact List.take_sublist n _

theorem mem_of_mem_orderLimit (h : row ∈ orderLimit key limit rows) :
    row ∈ rows :=
  (List.mem_insertionSort _).mp (orderLimit_sublist.subset h)

theorem orderLimit_sorted :
    (orderLimit key limit rows).Pairwise fun a b => key a ≤ key b := by
  have : Std.Total fun a b : α => key a ≤ key b := ⟨fun a b => le_total _ _⟩
  have : IsTrans α fun a b => key a ≤ key b := ⟨fun a b c => le_trans⟩
  exact (List.pairwise_insertionSort _ rows).sublist orderLimit_sublist

theorem orderLimit_nodup (h : (rows.map key).Nodup) :
    ((orderLimit key limit rows).map key).Nodup := by
  have hperm := (List.perm_insertionSort (fun a b => key a ≤ key b) rows).map key
  exact (hperm.nodup_iff.mpr h).sublist (orderLimit_sublist.map key)

/-- A limit that the rows do not reach leaves nothing out. -/
theorem limited_eq_self (h : ∀ n ∈ limit, rows.length ≤ n) :
    limited limit rows = rows := by
  cases limit with
  | none => rfl
  | some n => exact List.take_of_length_le (h n rfl)

theorem orderLimit_perm (h : ∀ n ∈ limit, rows.length ≤ n) :
    (orderLimit key limit rows).Perm rows := by
  have hsort := List.perm_insertionSort (fun a b => key a ≤ key b) rows
  have hall : orderLimit key limit rows
      = rows.insertionSort fun a b => key a ≤ key b :=
    limited_eq_self fun n hn => hsort.length_eq.trans_le (h n hn)
  rw [hall]
  exact hsort

/-- The last row of a page has its greatest key. -/
theorem le_last (hlast : (orderLimit key limit rows).getLast? = some last)
    (h : row ∈ orderLimit key limit rows) : key row ≤ key last := by
  obtain ⟨pre, hpre⟩ := List.getLast?_eq_some_iff.mp hlast
  have hsorted : (orderLimit key limit rows).Pairwise fun a b => key a ≤ key b :=
    orderLimit_sorted
  rw [hpre] at h hsorted
  rcases List.mem_append.mp h with h | h
  · exact (List.pairwise_append.mp hsorted).2.2 row h last (by simp)
  · rw [List.mem_singleton.mp h]

theorem mem_take_of_lt {l : List α} {n : ℕ}
    (hl : l.Pairwise fun a b => key a ≤ key b) (hlast : last ∈ l.take n)
    (h : row ∈ l) (hlt : key row < key last) : row ∈ l.take n := by
  rw [← List.take_append_drop n l] at h hl
  rcases List.mem_append.mp h with h | h
  · exact h
  · have hle := (List.pairwise_append.mp hl).2.2 last hlast row h
    exact absurd hlt (not_lt.mpr hle)

/-- **No gaps.** A row is on the page or past its last key. -/
theorem mem_page_or_past (hkeys : (rows.map key).Nodup)
    (hlast : (orderLimit key limit rows).getLast? = some last)
    (h : row ∈ rows) :
    row ∈ orderLimit key limit rows ∨ key last < key row := by
  by_cases hlt : key last < key row
  · exact .inr hlt
  · refine .inl ?_
    have hmem : last ∈ orderLimit key limit rows := List.mem_of_getLast? hlast
    have hrow : row ∈ orderLimit key none rows :=
      (List.mem_insertionSort _).mpr h
    rcases (not_lt.mp hlt).lt_or_eq with hlt' | heq
    · cases limit with
      | none => exact hrow
      | some n =>
          have hsorted : (orderLimit key none rows).Pairwise
              fun a b => key a ≤ key b := orderLimit_sorted
          exact mem_take_of_lt hsorted hmem hrow hlt'
    · have hsame := List.inj_on_of_nodup_map hkeys h
        (mem_of_mem_orderLimit hmem) heq
      rw [hsame]
      exact hmem

/-- An empty page under a positive limit: there are no rows. -/
theorem orderLimit_eq_nil (hlimit : limit ≠ some 0)
    (h : orderLimit key limit rows = []) : rows = [] := by
  have hperm := List.perm_insertionSort (fun a b => key a ≤ key b) rows
  unfold orderLimit at h
  cases limit with
  | none =>
      rw [show rows.insertionSort _ = [] from h] at hperm
      exact List.nil_perm.mp hperm
  | some n =>
      rcases List.take_eq_nil_iff.mp h with hn | hnil
      · exact absurd (congrArg some hn) hlimit
      · rw [hnil] at hperm
        exact List.nil_perm.mp hperm

theorem length_orderLimit_le {n : ℕ} :
    (orderLimit key (some n) rows).length ≤ n := List.length_take_le n _

/-! ### Going on with a scan -/

theorem orderLimit_filter (p : α → Bool) (hkeys : (rows.map key).Nodup) :
    orderLimit key none (rows.filter p) = (orderLimit key none rows).filter p := by
  have hall : ∀ rows : List α, (orderLimit key none rows).Perm rows :=
    fun rows => orderLimit_perm (by simp)
  have hperm := (hall (rows.filter p)).trans ((hall rows).filter p).symm
  refine hperm.eq_of_pairwise ?_ orderLimit_sorted (orderLimit_sorted.filter p)
  intro a b ha hb hab hba
  have ha' := (List.mem_filter.mp (mem_of_mem_orderLimit ha)).1
  have hb' := mem_of_mem_orderLimit (List.mem_filter.mp hb).1
  exact List.inj_on_of_nodup_map hkeys ha' hb' (le_antisymm hab hba)

theorem orderLimit_eq_limited :
    orderLimit key limit rows = limited limit (orderLimit key none rows) := by
  cases limit <;> rfl

/-- Nothing that was taken is past the last of it. -/
theorem not_past_of_mem {done : List α}
    (hsorted : done.Pairwise fun a b => key a ≤ key b) (h : row ∈ done) :
    past (nextCursor key done) (key row) = false := by
  rcases List.eq_nil_or_concat done with rfl | ⟨init, last, rfl⟩
  · cases h
  · rw [List.concat_eq_append] at *
    have hcursor : nextCursor key (init ++ [last]) = some (key last) := by
      simp [nextCursor]
    rw [hcursor, past_some, decide_eq_false_iff_not, not_lt]
    rcases List.mem_append.mp h with h | h
    · exact (List.pairwise_append.mp hsorted).2.2 row h last List.mem_cons_self
    · rw [List.mem_singleton.mp h]

/-- What is past the last key of the first part of a sorted list is the rest. -/
theorem filter_past {done rest : List α}
    (hsorted : (done ++ rest).Pairwise fun a b => key a ≤ key b)
    (hkeys : ((done ++ rest).map key).Nodup) :
    (done ++ rest).filter (fun row => past (nextCursor key done) (key row))
      = rest := by
  obtain ⟨hdone, -, hrest⟩ := List.pairwise_append.mp hsorted
  have hnone : done.filter (fun row => past (nextCursor key done) (key row))
      = [] := by
    refine List.filter_eq_nil_iff.mpr fun row hrow => ?_
    rw [not_past_of_mem hdone hrow]
    exact Bool.false_ne_true
  have hall : rest.filter (fun row => past (nextCursor key done) (key row))
      = rest := by
    refine List.filter_eq_self.mpr fun row hrow => ?_
    unfold nextCursor
    cases hlast : done.getLast? with
    | none => rfl
    | some last =>
        have hmem := List.mem_of_getLast? hlast
        rw [Option.map_some, past_some, decide_eq_true_eq]
        refine lt_of_le_of_ne (hrest last hmem row hrow) fun heq => ?_
        rw [List.map_append] at hkeys
        exact (List.nodup_append.mp hkeys).2.2 (key last)
          (List.mem_map_of_mem hmem) (key row) (List.mem_map_of_mem hrow) heq
  rw [List.filter_append, hnone, hall, List.nil_append]

/-- **Going on.** Behind the cursor of what was taken, a page holds the next rows
that one query for all of them selects. -/
theorem orderLimit_past {done rest : List α} (hkeys : (rows.map key).Nodup)
    (hrows : orderLimit key none rows = done ++ rest) :
    orderLimit key limit
        (rows.filter fun row => past (nextCursor key done) (key row))
      = limited limit rest := by
  rw [orderLimit_eq_limited, orderLimit_filter _ hkeys, hrows,
    filter_past (hrows ▸ orderLimit_sorted) (hrows ▸ orderLimit_nodup hkeys)]

/-! ### What a scan went through -/

/-- Rows taken from below, each once: with a row every row of a smaller key. -/
structure FromBelow (key : α → κ) (rows taken : List α) : Prop where
  nodup : (taken.map key).Nodup
  subset : ∀ row ∈ taken, row ∈ rows
  below : ∀ row ∈ taken, ∀ other ∈ rows, key other < key row → other ∈ taken

namespace FromBelow

variable {taken : List α}

theorem length_le (h : FromBelow key rows taken) :
    taken.length ≤ rows.length :=
  ((h.nodup.of_map key).subperm h.subset).length_le

/-- Of as many of the smallest rows none is left out: the rows taken would all
be smaller than it, and be too few. -/
theorem mem_of_mem_orderLimit (h : FromBelow key rows taken)
    (hkeys : (rows.map key).Nodup)
    (hrow : row ∈ orderLimit key (some taken.length) rows) : row ∈ taken := by
  classical
  by_contra hnot
  have hmem : row ∈ rows := Foundation.mem_of_mem_orderLimit hrow
  have hsub : taken ⊆ (orderLimit key (some taken.length) rows).erase row := by
    intro other hother
    have hne : other ≠ row := by
      rintro rfl
      exact hnot hother
    have hlt : key other < key row := by
      by_contra hge
      rcases (not_lt.mp hge).lt_or_eq with hlt | heq
      · exact hnot (h.below other hother row hmem hlt)
      · exact hne (List.inj_on_of_nodup_map hkeys (h.subset other hother) hmem
          heq.symm)
    have hall : other ∈ orderLimit key none rows :=
      (List.mem_insertionSort _).mpr (h.subset other hother)
    have hsorted : (orderLimit key none rows).Pairwise
        fun a b => key a ≤ key b := orderLimit_sorted
    exact (List.mem_erase_of_ne hne).mpr
      (mem_take_of_lt hsorted hrow hall hlt)
  have hle := ((h.nodup.of_map key).subperm hsub).length_le
  rw [List.length_erase_of_mem hrow] at hle
  have htake : (orderLimit key (some taken.length) rows).length ≤ taken.length :=
    length_orderLimit_le
  have hpos := List.length_pos_of_mem hrow
  omega

/-- They are the smallest rows, as many as were taken. -/
theorem perm_take (h : FromBelow key rows taken)
    (hkeys : (rows.map key).Nodup) :
    taken.Perm (orderLimit key (some taken.length) rows) := by
  have hnodup : ((orderLimit key (some taken.length) rows).map key).Nodup :=
    orderLimit_nodup hkeys
  have hsub := (hnodup.of_map key).subperm fun row =>
    h.mem_of_mem_orderLimit hkeys
  refine (hsub.perm_of_length_le ?_).symm
  have hsort := List.perm_insertionSort (fun a b => key a ≤ key b) rows
  show taken.length ≤ (List.take taken.length _).length
  rw [List.length_take, hsort.length_eq]
  exact le_min (le_refl _) h.length_le

/-- A scan from below that ends at its limit, or where no row is left, took what
one query for the whole limit selects. -/
theorem perm_orderLimit (h : FromBelow key rows taken)
    (hkeys : (rows.map key).Nodup) (hlimit : ∀ n ∈ limit, taken.length ≤ n)
    (hend : limit = some taken.length ∨ ∀ row ∈ rows, row ∈ taken) :
    taken.Perm (orderLimit key limit rows) := by
  have htake := h.perm_take hkeys
  rcases hend with rfl | hall
  · exact htake
  · have hlen : taken.length = rows.length :=
      le_antisymm h.length_le
        ((hkeys.of_map key).subperm hall).length_le
    rw [hlen] at hlimit htake
    exact (htake.trans (Foundation.orderLimit_perm fun _ hn => by
      cases hn
      exact le_refl _)).trans (Foundation.orderLimit_perm hlimit).symm

end FromBelow

end Page

/-! ## Orders nobody promises -/

/-- An order that a query without `ORDER BY`, or a stream of finished tasks, is
free to choose. -/
structure Shuffle (α : Type) where
  apply : List α → List α
  perm : ∀ l, (apply l).Perm l

/-- The order the list has. -/
def Shuffle.none {α : Type} : Shuffle α := ⟨id, fun _ => .refl _⟩

end VideoStorage.Foundation
