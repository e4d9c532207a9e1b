import Mathlib.Data.List.Pairwise
import VideoStorage.Foundation.Program

/-!
# Transaction bodies

A keyed store with rows that are inserted and updated but never deleted, and
one log whose entries get a number from a sequence. A transaction body is a
program over `Stmt`. `exec` is one statement against the committed store and
the transaction's own writes, and `Eval` a whole body. What a body has seen of
the rows it locked stays true while others commit (`exec_frame`,
`Reaches.frame`).
-/

namespace VideoStorage.Foundation

/-- Tables, log entries and the remaining statements of a database. `Work` are
the statements that touch neither the tables nor the log. -/
structure Schema where
  Key : Type
  [keyEq : DecidableEq Key]
  Row : Key → Type
  Event : Type
  Work : Type
  Answer : Work → Type
  Store : Type
  get : Store → (k : Key) → Option (Row k)
  set : Store → (k : Key) → Row k → Store
  get_set_self : ∀ st k r, get (set st k r) k = some r
  get_set_ne : ∀ st k r k', k' ≠ k → get (set st k r) k' = get st k'
  /-- The rows a row refers to by a foreign key. -/
  parents : Key → List Key
  /-- The rows a log entry refers to by a foreign key. -/
  eventParents : Event → List Key

attribute [instance] Schema.keyEq

/-- One statement of a transaction. -/
inductive Stmt (D : Schema)
  /-- `INSERT … ON CONFLICT DO NOTHING RETURNING …`. -/
  | insertIfAbsent (k : D.Key) (r : D.Row k)
  /-- `SELECT … FOR UPDATE` of the one row with this key. -/
  | selectForUpdate (k : D.Key)
  /-- `UPDATE` of the one row with this key. -/
  | update (k : D.Key) (f : D.Row k → D.Row k)
  /-- The exclusive lock under which log entries are inserted. -/
  | lockLog
  /-- The setting the insert trigger of the log looks at. -/
  | markLog
  /-- `INSERT INTO log … RETURNING number`. -/
  | insertLog (e : D.Event)
  | work (w : D.Work)

/-- What a statement returns to the transaction body. -/
def Stmt.Reply {D : Schema} : Stmt D → Type
  | .insertIfAbsent _ _ => Bool
  | .selectForUpdate k => D.Row k
  | .insertLog _ => ℕ
  | .work w => D.Answer w
  | _ => Unit

/-- Why a statement fails, which leaves the transaction nothing but to abort. -/
inductive Fault
  | foreignKey | noRow | trigger
  deriving DecidableEq, Repr

/-- A transaction body. -/
abbrev Txn (D : Schema) (α : Type) : Type := Prog (Stmt D) Stmt.Reply α

/-- What an open transaction has done so far: its writes and log entries, which
nobody else sees yet, and the locks it holds. -/
structure Loc (D : Schema) where
  writes : List ((k : D.Key) × D.Row k) := []
  locks : List D.Key := []
  pend : List (ℕ × D.Event) := []
  logLock : Bool := false
  marked : Bool := false

/-- How the statements outside the model answer. -/
abbrev Oracle (D : Schema) : Type := (w : D.Work) → D.Answer w

namespace Schema

variable (D : Schema)

def applyWrites (st : D.Store) (ws : List ((k : D.Key) × D.Row k)) : D.Store :=
  ws.foldl (fun st w => D.set st w.1 w.2) st

def present (st : D.Store) (k : D.Key) : Bool := (D.get st k).isSome

variable {D} {st st' : D.Store} {k : D.Key}

@[simp] theorem applyWrites_nil : D.applyWrites st [] = st := rfl

theorem applyWrites_append (ws ws' : List ((k : D.Key) × D.Row k)) :
    D.applyWrites st (ws ++ ws') = D.applyWrites (D.applyWrites st ws) ws' :=
  List.foldl_append ..

@[simp] theorem get_applyWrites_snoc_self
    (ws : List ((k : D.Key) × D.Row k)) (r : D.Row k) :
    D.get (D.applyWrites st (ws ++ [⟨k, r⟩])) k = some r := by
  rw [applyWrites_append]
  exact D.get_set_self _ _ _

theorem get_applyWrites_snoc_ne (ws : List ((k : D.Key) × D.Row k))
    {k' : D.Key} (r : D.Row k') (h : k ≠ k') :
    D.get (D.applyWrites st (ws ++ [⟨k', r⟩])) k
      = D.get (D.applyWrites st ws) k := by
  rw [applyWrites_append]
  exact D.get_set_ne _ _ _ _ h

theorem get_applyWrites_of_notMem (ws : List ((k : D.Key) × D.Row k))
    (h : k ∉ ws.map (·.1)) : D.get (D.applyWrites st ws) k = D.get st k := by
  induction ws generalizing st with
  | nil => rfl
  | cons w ws ih =>
      rw [List.map_cons, List.mem_cons, not_or] at h
      exact (ih h.2).trans (D.get_set_ne _ _ _ _ h.1)

theorem get_applyWrites_congr (ws : List ((k : D.Key) × D.Row k))
    (h : D.get st' k = D.get st k) :
    D.get (D.applyWrites st' ws) k = D.get (D.applyWrites st ws) k := by
  induction ws generalizing st st' with
  | nil => exact h
  | cons w ws ih =>
      refine ih ?_
      by_cases hk : k = w.1
      · subst hk
        rw [D.get_set_self, D.get_set_self]
      · rw [D.get_set_ne _ _ _ _ hk, D.get_set_ne _ _ _ _ hk, h]

/-- Rows never disappear: more rows below mean more rows above. -/
theorem present_applyWrites_mono (ws : List ((k : D.Key) × D.Row k))
    (h : ∀ k, D.present st k → D.present st' k) (k : D.Key) :
    D.present (D.applyWrites st ws) k → D.present (D.applyWrites st' ws) k := by
  induction ws generalizing st st' with
  | nil => exact h k
  | cons w ws ih =>
      refine ih fun k hk => ?_
      by_cases hw : k = w.1
      · subst hw
        rw [present, D.get_set_self]
        rfl
      · rw [present, D.get_set_ne _ _ _ _ hw] at hk ⊢
        exact h k hk

theorem present_applyWrites (ws : List ((k : D.Key) × D.Row k))
    (h : D.present st k) : D.present (D.applyWrites st ws) k := by
  induction ws generalizing st with
  | nil => exact h
  | cons w ws ih =>
      refine ih ?_
      by_cases hw : k = w.1
      · subst hw
        rw [present, D.get_set_self]
        rfl
      · rw [present, D.get_set_ne _ _ _ _ hw]
        exact h

end Schema

/-! ## One statement -/

section Exec

variable {D : Schema} {α β : Type}

namespace Loc

/-- The store as the transaction sees it. -/
def view (l : Loc D) (st : D.Store) : D.Store := D.applyWrites st l.writes

def lock (l : Loc D) (k : D.Key) : Loc D := { l with locks := k :: l.locks }

/-- A row is locked by the statement that writes it. -/
def write (l : Loc D) (k : D.Key) (r : D.Row k) : Loc D :=
  { l with writes := l.writes ++ [⟨k, r⟩], locks := k :: l.locks }

def push (l : Loc D) (c : ℕ) (e : D.Event) : Loc D :=
  { l with pend := l.pend ++ [(c, e)] }

variable (l : Loc D) (st : D.Store) (k : D.Key) (r : D.Row k)

@[simp] theorem view_lock : (l.lock k).view st = l.view st := rfl

@[simp] theorem view_push (c : ℕ) (e : D.Event) :
    (l.push c e).view st = l.view st := rfl

@[simp] theorem get_view_write_self :
    D.get ((l.write k r).view st) k = some r :=
  Schema.get_applyWrites_snoc_self _ _

theorem get_view_write_ne {k' : D.Key} (h : k' ≠ k) :
    D.get ((l.write k r).view st) k' = D.get (l.view st) k' :=
  Schema.get_applyWrites_snoc_ne _ _ h

@[simp] theorem pend_lock : (l.lock k).pend = l.pend := rfl

@[simp] theorem pend_write : (l.write k r).pend = l.pend := rfl

@[simp] theorem pend_push (c : ℕ) (e : D.Event) :
    (l.push c e).pend = l.pend ++ [(c, e)] := rfl

end Loc

/-- One statement of a transaction at `l`, over the committed store `st`, when
the sequence is at `c`. An insert that meets a row takes no lock. -/
def exec (st : D.Store) (ans : Oracle D) (c : ℕ) (l : Loc D) :
    (s : Stmt D) → Except Fault (s.Reply × Loc D)
  | .insertIfAbsent k r =>
      if D.present (l.view st) k then .ok (false, l)
      else if (D.parents k).all (D.present (l.view st)) then
        .ok (true, l.write k r)
      else .error .foreignKey
  | .selectForUpdate k =>
      match D.get (l.view st) k with
      | some r => .ok (r, l.lock k)
      | none => .error .noRow
  | .update k f =>
      match D.get (l.view st) k with
      | some r => .ok ((), l.write k (f r))
      | none => .error .noRow
  | .lockLog => .ok ((), { l with logLock := true })
  | .markLog => .ok ((), { l with marked := true })
  | .insertLog e =>
      if !l.marked then .error .trigger
      else if (D.eventParents e).all (D.present (l.view st)) then
        .ok (c, l.push c e)
      else .error .foreignKey
  | .work w => .ok (ans w, l)

variable {st st' : D.Store} {ans : Oracle D} {c : ℕ} {l l' : Loc D}

theorem ok_pair_iff {ε A B : Type} {a a' : A} {b b' : B} :
    (Except.ok (a, b) : Except ε (A × B)) = .ok (a', b') ↔ a' = a ∧ b' = b := by
  rw [Except.ok.injEq, Prod.mk.injEq, eq_comm, eq_comm (a := b)]

theorem exec_insertIfAbsent {k : D.Key} {r : D.Row k} {b : Bool} :
    exec st ans c l (.insertIfAbsent k r) = .ok (b, l') ↔
      (D.present (l.view st) k ∧ b = false ∧ l' = l) ∨
      (¬ D.present (l.view st) k ∧
        (D.parents k).all (D.present (l.view st)) ∧ b = true ∧
        l' = l.write k r) := by
  simp only [exec]
  split_ifs with h hp
  · refine (ok_pair_iff (A := Bool)).trans ?_
    simp [h]
  · refine (ok_pair_iff (A := Bool)).trans ?_
    simp [h, hp]
  · simp [h, hp]

theorem exec_selectForUpdate {k : D.Key} {r : D.Row k} :
    exec st ans c l (.selectForUpdate k) = .ok (r, l') ↔
      D.get (l.view st) k = some r ∧
        l' = l.lock k := by
  simp only [exec]
  split <;> rename_i h
  · refine (ok_pair_iff (A := D.Row k)).trans ?_
    simp [h, eq_comm]
  · simp [h]

theorem exec_update {k : D.Key} {f : D.Row k → D.Row k} {u : Unit} :
    exec st ans c l (.update k f) = .ok (u, l') ↔
      ∃ r, D.get (l.view st) k = some r ∧ l' = l.write k (f r) := by
  simp only [exec]
  split <;> rename_i h
  · refine (ok_pair_iff (A := Unit)).trans ?_
    simp [h]
  · simp [h]

theorem exec_insertLog {e : D.Event} {n : ℕ} :
    exec st ans c l (.insertLog e) = .ok (n, l') ↔
      l.marked ∧ (D.eventParents e).all (D.present (l.view st)) ∧ n = c ∧
        l' = l.push c e := by
  simp only [exec]
  split_ifs with hm hp
  · simp_all
  · refine (ok_pair_iff (A := ℕ)).trans ?_
    simp_all
  · simp [hp]

/-- A transaction only gains locks, and it locks what it writes. -/
structure Loc.Grows (l l' : Loc D) : Prop where
  locks : l.locks ⊆ l'.locks
  logLock : l.logLock → l'.logLock
  writes : (∀ w ∈ l.writes, w.1 ∈ l.locks) → ∀ w ∈ l'.writes, w.1 ∈ l'.locks

theorem Loc.Grows.refl (l : Loc D) : l.Grows l :=
  ⟨fun _ h => h, fun h => h, fun h => h⟩

theorem Loc.Grows.trans {l₁ l₂ l₃ : Loc D} (h₁ : l₁.Grows l₂)
    (h₂ : l₂.Grows l₃) : l₁.Grows l₃ :=
  ⟨fun _ h => h₂.locks (h₁.locks h), fun h => h₂.logLock (h₁.logLock h),
    fun h => h₂.writes (h₁.writes h)⟩

theorem Loc.grows_write (l : Loc D) (k : D.Key) (r : D.Row k) :
    l.Grows (l.write k r) := by
  refine ⟨fun _ h => List.mem_cons_of_mem _ h, fun h => h, fun h w hw => ?_⟩
  rcases List.mem_append.mp hw with hw | hw
  · exact List.mem_cons_of_mem _ (h w hw)
  · rw [List.mem_singleton.mp hw]
    exact List.mem_cons_self

theorem exec_grows {s : Stmt D} {r : s.Reply}
    (h : exec st ans c l s = .ok (r, l')) : l.Grows l' := by
  cases s with
  | insertIfAbsent k row =>
      rcases exec_insertIfAbsent.mp h with ⟨-, -, rfl⟩ | ⟨-, -, -, rfl⟩
      · exact .refl _
      · exact l.grows_write k row
  | selectForUpdate k =>
      obtain ⟨-, rfl⟩ := exec_selectForUpdate.mp h
      exact ⟨fun _ h => List.mem_cons_of_mem _ h, fun h => h,
        fun h w hw => List.mem_cons_of_mem _ (h w hw)⟩
  | update k f =>
      obtain ⟨row, -, rfl⟩ := exec_update.mp h
      exact l.grows_write k (f row)
  | lockLog =>
      cases h
      exact ⟨fun _ h => h, fun _ => rfl, fun h => h⟩
  | markLog =>
      cases h
      exact ⟨fun _ h => h, fun h => h, fun h => h⟩
  | insertLog e =>
      obtain ⟨-, -, -, rfl⟩ := exec_insertLog.mp h
      exact ⟨fun _ h => h, fun h => h, fun h => h⟩
  | work w =>
      cases h
      exact .refl _

/-- `st'` extends `st` and agrees with it on the rows locked by `l`. -/
structure Loc.Keeps (l : Loc D) (st st' : D.Store) : Prop where
  same : ∀ k ∈ l.locks, D.get st' k = D.get st k
  more : ∀ k, D.present st k → D.present st' k

theorem Loc.Keeps.anti {l₁ l₂ : Loc D} (h : l₂.Keeps st st')
    (hl : l₁.Grows l₂) : l₁.Keeps st st' :=
  ⟨fun k hk => h.same k (hl.locks hk), h.more⟩

theorem Loc.Keeps.view_get {l₀ : Loc D} (h : l.Keeps st st') {k : D.Key}
    (hk : k ∈ l.locks) : D.get (l₀.view st') k = D.get (l₀.view st) k :=
  Schema.get_applyWrites_congr _ (h.same k hk)

theorem Loc.Keeps.view_all {l₀ : Loc D} (h : l.Keeps st st')
    {ks : List D.Key} (hk : ks.all (D.present (l₀.view st))) :
    ks.all (D.present (l₀.view st')) := by
  rw [List.all_eq_true] at hk ⊢
  exact fun k hmem =>
    Schema.present_applyWrites_mono _ h.more k (hk k hmem)

/-- **Frame.** A statement answers the same, and does the same, over any store
that extends the old one and agrees with it on what the transaction has locked
by then. The insert that meets a row locks nothing, but rows stay. -/
theorem exec_frame {s : Stmt D} {r : s.Reply}
    (h : exec st ans c l s = .ok (r, l')) (hk : l'.Keeps st st') :
    exec st' ans c l s = .ok (r, l') := by
  cases s with
  | insertIfAbsent k row =>
      refine exec_insertIfAbsent.mpr ?_
      rcases exec_insertIfAbsent.mp h with ⟨hp, hr, hl⟩ | ⟨hp, hpar, hr, rfl⟩
      · exact .inl ⟨Schema.present_applyWrites_mono _ hk.more k hp, hr, hl⟩
      · refine .inr ⟨?_, hk.view_all hpar, hr, rfl⟩
        rwa [Schema.present, hk.view_get List.mem_cons_self]
  | selectForUpdate k =>
      obtain ⟨hg, rfl⟩ := exec_selectForUpdate.mp h
      refine exec_selectForUpdate.mpr ⟨?_, rfl⟩
      rwa [hk.view_get List.mem_cons_self]
  | update k f =>
      obtain ⟨row, hg, rfl⟩ := exec_update.mp h
      refine exec_update.mpr ⟨row, ?_, rfl⟩
      rwa [hk.view_get List.mem_cons_self]
  | lockLog => exact h
  | markLog => exact h
  | insertLog e =>
      obtain ⟨hm, hpar, hr, hl⟩ := exec_insertLog.mp h
      exact exec_insertLog.mpr ⟨hm, hk.view_all hpar, hr, hl⟩
  | work w => exact h

end Exec

/-! ## One transaction alone -/

section Alone

variable {D : Schema} {α β : Type} {st st' : D.Store} {p q : Txn D α}
  {a : α} {l l' l'' : Loc D}

/-- `Eval st p l a l'`: over the committed store `st`, the body `p` runs from
`l` to its end at `l'` and returns `a`, whatever the sequence and the
statements outside the model answer. -/
inductive Eval (st : D.Store) : Txn D α → Loc D → α → Loc D → Prop
  | ret (a : α) (l : Loc D) : Eval st (.ret a) l a l
  | call {s : Stmt D} {k : s.Reply → Txn D α} {ans : Oracle D} {c : ℕ}
      {r : s.Reply} {a : α} {l l' l'' : Loc D}
      (h : exec st ans c l s = .ok (r, l')) (hk : Eval st (k r) l' a l'') :
      Eval st (.call s k) l a l''

@[simp] theorem eval_ret {b : α} :
    Eval st (.ret a) l b l' ↔ b = a ∧ l' = l := by
  constructor
  · rintro ⟨⟩
    exact ⟨rfl, rfl⟩
  · rintro ⟨rfl, rfl⟩
    exact .ret _ _

theorem eval_call {s : Stmt D} {k : s.Reply → Txn D α} :
    Eval st (.call s k) l a l'' ↔
      ∃ ans c r l', exec st ans c l s = .ok (r, l') ∧ Eval st (k r) l' a l'' := by
  constructor
  · rintro ⟨⟩
    exact ⟨_, _, _, _, ‹_›, ‹_›⟩
  · rintro ⟨ans, c, r, l', h, hk⟩
    exact .call h hk

theorem eval_bind {f : α → Txn D β} {b : β} :
    Eval st (p.bind f) l b l'' ↔
      ∃ a l', Eval st p l a l' ∧ Eval st (f a) l' b l'' := by
  induction p generalizing l with
  | ret a => simp
  | call s k ih =>
      simp only [Prog.call_bind, eval_call, ih]
      constructor
      · rintro ⟨ans, c, r, l₁, h, a, l₂, h₁, h₂⟩
        exact ⟨a, l₂, ⟨ans, c, r, l₁, h, h₁⟩, h₂⟩
      · rintro ⟨a, l₂, ⟨ans, c, r, l₁, h, h₁⟩, h₂⟩
        exact ⟨ans, c, r, l₁, h, a, l₂, h₁, h₂⟩

/-! The statements as bodies, each with what it does. -/

def insertIfAbsent (k : D.Key) (r : D.Row k) : Txn D Bool :=
  .call (.insertIfAbsent k r) .ret

def selectForUpdate (k : D.Key) : Txn D (D.Row k) :=
  .call (.selectForUpdate k) .ret

def update (k : D.Key) (f : D.Row k → D.Row k) : Txn D Unit :=
  .call (.update k f) .ret

def lockLog : Txn D Unit := .call .lockLog .ret

def markLog : Txn D Unit := .call .markLog .ret

def insertLog (e : D.Event) : Txn D ℕ := .call (.insertLog e) .ret

def work (w : D.Work) : Txn D (D.Answer w) := .call (.work w) .ret

theorem eval_issue {s : Stmt D} {r : s.Reply} :
    Eval st (.call s .ret : Txn D s.Reply) l r l' ↔
      ∃ ans c, exec st ans c l s = .ok (r, l') := by
  simp only [eval_call, eval_ret]
  constructor
  · rintro ⟨ans, c, r', l₁, h, rfl, rfl⟩
    exact ⟨ans, c, h⟩
  · rintro ⟨ans, c, h⟩
    exact ⟨ans, c, r, l', h, rfl, rfl⟩

theorem eval_insertIfAbsent {k : D.Key} {r : D.Row k} {b : Bool}
    (h : Eval st (insertIfAbsent k r) l b l') :
    (D.present (l.view st) k ∧ b = false ∧ l' = l) ∨
      (¬ D.present (l.view st) k ∧
        (D.parents k).all (D.present (l.view st)) ∧ b = true ∧
        l' = l.write k r) := by
  obtain ⟨ans, c, h⟩ := eval_issue.mp h
  exact exec_insertIfAbsent.mp h

theorem eval_selectForUpdate {k : D.Key} {r : D.Row k}
    (h : Eval st (selectForUpdate k) l r l') :
    D.get (l.view st) k = some r ∧ l' = l.lock k := by
  obtain ⟨ans, c, h⟩ := eval_issue.mp h
  exact exec_selectForUpdate.mp h

theorem eval_update {k : D.Key} {f : D.Row k → D.Row k} {u : Unit}
    (h : Eval st (update k f) l u l') :
    ∃ r, D.get (l.view st) k = some r ∧ l' = l.write k (f r) := by
  obtain ⟨ans, c, h⟩ := eval_issue.mp h
  exact exec_update.mp h

theorem eval_lockLog {u : Unit} (h : Eval st lockLog l u l') :
    l' = { l with logLock := true } := by
  obtain ⟨ans, c, h⟩ := eval_issue.mp h
  cases h
  rfl

theorem eval_markLog {u : Unit} (h : Eval st markLog l u l') :
    l' = { l with marked := true } := by
  obtain ⟨ans, c, h⟩ := eval_issue.mp h
  cases h
  rfl

theorem eval_insertLog {e : D.Event} {n : ℕ}
    (h : Eval st (insertLog e) l n l') :
    l.marked ∧ (D.eventParents e).all (D.present (l.view st)) ∧
      l' = l.push n e := by
  obtain ⟨ans, c, h⟩ := eval_issue.mp h
  obtain ⟨hm, hp, rfl, rfl⟩ := exec_insertLog.mp h
  exact ⟨hm, hp, rfl⟩

theorem eval_work {w : D.Work} {r : D.Answer w}
    (h : Eval st (work w) l r l') : l' = l := by
  obtain ⟨ans, c, h⟩ := eval_issue.mp h
  cases h
  rfl

/-- What a stretch of a body leaves alone: every row outside `S`, and the log. -/
structure Loc.Only (S : D.Key → Prop) (st : D.Store) (l l' : Loc D) :
    Prop where
  rows : ∀ k, ¬ S k → D.get (l'.view st) k = D.get (l.view st) k
  pend : l'.pend = l.pend

theorem Loc.Only.refl {S : D.Key → Prop} (l : Loc D) : l.Only S st l :=
  ⟨fun _ _ => rfl, rfl⟩

theorem Loc.Only.trans {S : D.Key → Prop} {l₁ l₂ l₃ : Loc D}
    (h₁ : l₁.Only S st l₂) (h₂ : l₂.Only S st l₃) : l₁.Only S st l₃ :=
  ⟨fun k hk => (h₂.rows k hk).trans (h₁.rows k hk), h₂.pend.trans h₁.pend⟩

theorem Loc.only_lock {S : D.Key → Prop} (l : Loc D) (k : D.Key) :
    l.Only S st (l.lock k) :=
  ⟨fun _ _ => rfl, rfl⟩

theorem Loc.only_write {S : D.Key → Prop} (l : Loc D) {k : D.Key}
    (r : D.Row k) (hk : S k) : l.Only S st (l.write k r) := by
  refine ⟨fun k' hk' => l.get_view_write_ne st k r ?_, rfl⟩
  rintro rfl
  exact hk' hk

/-- Read a row under its lock, keep it if it matches, else update it. -/
theorem eval_compareAndUpdate_loc {k : D.Key} {matching : D.Row k → Bool}
    {f : D.Row k → D.Row k} {keep change out : α}
    (h : Eval st ((selectForUpdate k).bind fun row =>
      if matching row then .ret keep
      else (update k f).bind fun _ => .ret change) l out l') :
    ∃ row, D.get (l.view st) k = some row ∧
      (matching row = true ∧ out = keep ∧ l' = l.lock k ∨
        matching row = false ∧ out = change ∧
          l' = (l.lock k).write k (f row)) := by
  obtain ⟨row, l₁, hsel, h⟩ := eval_bind.mp h
  obtain ⟨hrow, rfl⟩ := eval_selectForUpdate hsel
  split_ifs at h with hm
  · obtain ⟨rfl, rfl⟩ := eval_ret.mp h
    exact ⟨row, hrow, .inl ⟨hm, rfl, rfl⟩⟩
  · obtain ⟨_, l₂, hup, h⟩ := eval_bind.mp h
    obtain ⟨rfl, rfl⟩ := eval_ret.mp h
    obtain ⟨row', hrow', rfl⟩ := eval_update hup
    -- the row under the lock is the row just read
    have hsame : row' = row := by
      rw [Loc.view_lock, hrow] at hrow'
      exact (Option.some.inj hrow').symm
    subst hsame
    exact ⟨row', hrow, .inr ⟨by simpa using hm, rfl, rfl⟩⟩

theorem eval_compareAndUpdate {k : D.Key} {matching : D.Row k → Bool}
    {f : D.Row k → D.Row k} {keep change out : α}
    (h : Eval st ((selectForUpdate k).bind fun row =>
      if matching row then .ret keep
      else (update k f).bind fun _ => .ret change) l out l') :
    l.Only (· = k) st l' ∧ ∃ row, D.get (l.view st) k = some row ∧
      (matching row = true ∧ out = keep ∧ D.get (l'.view st) k = some row ∨
        matching row = false ∧ out = change ∧
          D.get (l'.view st) k = some (f row)) := by
  obtain ⟨row, hrow, hcase⟩ := eval_compareAndUpdate_loc h
  rcases hcase with ⟨hm, rfl, rfl⟩ | ⟨hm, rfl, rfl⟩
  · exact ⟨l.only_lock k, row, hrow, .inl ⟨hm, rfl, hrow⟩⟩
  · exact ⟨(l.only_lock k).trans (Loc.only_write _ _ rfl), row, hrow,
      .inr ⟨hm, rfl, Loc.get_view_write_self ..⟩⟩

theorem Eval.grows (h : Eval st p l a l') : l.Grows l' := by
  induction h with
  | ret a l => exact .refl l
  | call h _ ih => exact (exec_grows h).trans ih

/-- `Reaches st p l q l'`: the body `p`, begun at `l`, has got to the point
where `q` is left to run and the transaction is at `l'`. -/
inductive Reaches (st : D.Store) (p : Txn D α) (l : Loc D) :
    Txn D α → Loc D → Prop
  | start : Reaches st p l p l
  | step {s : Stmt D} {k : s.Reply → Txn D α} {ans : Oracle D} {c : ℕ}
      {r : s.Reply} {l₁ l₂ : Loc D} (hp : Reaches st p l (.call s k) l₁)
      (h : exec st ans c l₁ s = .ok (r, l₂)) : Reaches st p l (k r) l₂

theorem Reaches.grows (h : Reaches st p l q l') : l.Grows l' := by
  induction h with
  | start => exact .refl l
  | step _ h ih => exact ih.trans (exec_grows h)

theorem Reaches.eval (h : Reaches st p l q l') (hq : Eval st q l' a l'') :
    Eval st p l a l'' := by
  induction h with
  | start => exact hq
  | step _ h ih => exact ih (.call h hq)

/-- A transaction under way would have got to the same point over the store as
it is now. -/
theorem Reaches.frame (h : Reaches st p l q l') (hk : l'.Keeps st st') :
    Reaches st' p l q l' := by
  induction h with
  | start => exact .start
  | step _ h ih => exact (ih (hk.anti (exec_grows h))).step (exec_frame h hk)

end Alone

end VideoStorage.Foundation
