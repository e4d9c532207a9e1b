import VideoStorage.Foundation.Transaction

/-!
# Transactions side by side

`Step` interleaves any number of transactions, each holding its row locks, and
the log lock, until it commits or aborts. The result is strict two-phase
locking: every reachable store is the one that the committed bodies produce
when they run alone, one after the other, in commit order (`reachable_locked`),
and the log is what they appended.
-/

namespace VideoStorage.Foundation

/-! ## Any number of transactions -/

section System

variable {D : Schema} {α : Type}

/-- Two open transactions may stand side by side: no row lock and not the log
lock is held by both. -/
structure Loc.Apart (l l' : Loc D) : Prop where
  rows : ∀ k ∈ l.locks, k ∉ l'.locks
  log : ¬ (l.logLock ∧ l'.logLock)

theorem Loc.Apart.symm {l l' : Loc D} (h : l.Apart l') : l'.Apart l :=
  ⟨fun k hk hk' => h.rows k hk' hk, fun hl => h.log hl.symm⟩

/-- An open transaction: what it began with, what is left, where it is. -/
structure Open (D : Schema) (α : Type) where
  body : Txn D α
  rest : Txn D α
  loc : Loc D

/-- A committed transaction, with what it returned and did. -/
structure Commit (D : Schema) (α : Type) where
  body : Txn D α
  result : α
  loc : Loc D

structure Sys (D : Schema) (α : Type) where
  store : D.Store
  log : List (ℕ × D.Event) := []
  seq : ℕ := 1
  txs : ℕ → Option (Open D α) := fun _ => none
  /-- The history, which no step reads. -/
  commits : List (Commit D α) := []

/-- How far a statement moves the sequence. -/
def Stmt.draws : Stmt D → ℕ
  | .insertLog _ => 1
  | _ => 0

namespace Sys

variable (s : Sys D α) (t : ℕ)

def setTx (o : Option (Open D α)) : Sys D α :=
  { s with txs := Function.update s.txs t o }

def begin (p : Txn D α) : Sys D α := s.setTx t (some ⟨p, p, {}⟩)

def advance (o : Open D α) (rest : Txn D α) (l : Loc D) (n : ℕ) : Sys D α :=
  { s.setTx t (some { o with rest := rest, loc := l }) with seq := s.seq + n }

def commit (o : Open D α) (a : α) : Sys D α :=
  { s.setTx t none with
    store := o.loc.view s.store
    log := s.log ++ o.loc.pend
    commits := s.commits ++ [⟨o.body, a, o.loc⟩] }

/-- A rollback: the sequence values it drew, and any it drew in vain, are gone. -/
def abort (n : ℕ) : Sys D α := { s.setTx t none with seq := s.seq + n }

end Sys

/-- One step of the database under transactions with bodies in `P`, of which
only those commit that `G` lets commit over the store they find. A statement
waits while another transaction holds a lock it needs. -/
inductive Step (P : Txn D α → Prop) (G : D.Store → Txn D α → Prop)
    (s : Sys D α) : Sys D α → Prop
  | begin (t : ℕ) (p : Txn D α) (hfree : s.txs t = none) (hp : P p) :
      Step P G s (s.begin t p)
  | exec (t : ℕ) (o : Open D α) (st : Stmt D) (k : st.Reply → Txn D α)
      (ans : Oracle D) (r : st.Reply) (l : Loc D) (ho : s.txs t = some o)
      (hrest : o.rest = .call st k)
      (hexec : exec s.store ans s.seq o.loc st = .ok (r, l))
      (hwait : ∀ u o', u ≠ t → s.txs u = some o' → l.Apart o'.loc) :
      Step P G s (s.advance t o (k r) l st.draws)
  | commit (t : ℕ) (o : Open D α) (a : α) (ho : s.txs t = some o)
      (hrest : o.rest = .ret a) (hg : G s.store o.body) :
      Step P G s (s.commit t o a)
  | abort (t n : ℕ) : Step P G s (s.abort t n)

/-! ## Commit order is a serial order -/

variable {P : Txn D α → Prop} {G : D.Store → Txn D α → Prop} {st₀ : D.Store}
  {s s' : Sys D α}

/-- `Serial P G st₀ st cs`: the bodies of `cs`, each run alone on the store that
those before it left, lead from `st₀` to `st`. -/
inductive Serial (P : Txn D α → Prop) (G : D.Store → Txn D α → Prop)
    (st₀ : D.Store) : D.Store → List (Commit D α) → Prop
  | init : Serial P G st₀ st₀ []
  | snoc {st : D.Store} {cs : List (Commit D α)} {p : Txn D α} {a : α}
      {l : Loc D} (hs : Serial P G st₀ st cs) (hp : P p) (hg : G st p)
      (he : Eval st p {} a l) :
      Serial P G st₀ (l.view st) (cs ++ [⟨p, a, l⟩])

/-- What the locks buy: the history is serial, and every open transaction has
got where it is over the store as it is now. -/
structure Locked (P : Txn D α → Prop) (G : D.Store → Txn D α → Prop)
    (st₀ : D.Store) (s : Sys D α) : Prop where
  serial : Serial P G st₀ s.store s.commits
  log : s.log = s.commits.flatMap (·.loc.pend)
  apart : ∀ t u o o', t ≠ u → s.txs t = some o → s.txs u = some o' →
    o.loc.Apart o'.loc
  reaches : ∀ t o, s.txs t = some o →
    P o.body ∧ Reaches s.store o.body {} o.rest o.loc

/-- The open transactions after `setTx`: the new one, or an old one elsewhere. -/
theorem setTx_cases {t u : ℕ} {o : Option (Open D α)} {o' : Open D α}
    (h : Function.update s.txs t o u = some o') :
    (u = t ∧ o = some o') ∨ (u ≠ t ∧ s.txs u = some o') := by
  by_cases hu : u = t
  · subst hu
    rw [Function.update_self] at h
    exact .inl ⟨rfl, h⟩
  · rw [Function.update_of_ne hu] at h
    exact .inr ⟨hu, h⟩

/-- Replacing one transaction keeps all apart when the new one is. -/
theorem Locked.apart_setTx (h : Locked P G st₀ s) (t : ℕ) (o : Option (Open D α))
    (ho : ∀ o₁, o = some o₁ → ∀ u o', u ≠ t → s.txs u = some o' →
      o₁.loc.Apart o'.loc) {u v : ℕ} {o₁ o₂ : Open D α} (huv : u ≠ v)
    (h₁ : (s.setTx t o).txs u = some o₁) (h₂ : (s.setTx t o).txs v = some o₂) :
    o₁.loc.Apart o₂.loc := by
  rcases setTx_cases h₁ with ⟨rfl, e₁⟩ | ⟨hu, e₁⟩ <;>
    rcases setTx_cases h₂ with ⟨rfl, e₂⟩ | ⟨hv, e₂⟩
  · exact absurd rfl huv
  · exact ho o₁ e₁ v o₂ hv e₂
  · exact (ho o₂ e₂ u o₁ hu e₁).symm
  · exact h.apart u v o₁ o₂ huv e₁ e₂

theorem locked_init (st₀ : D.Store) :
    Locked P G st₀ ({ store := st₀ } : Sys D α) where
  serial := .init
  log := rfl
  apart t u o o' _ h := by cases h
  reaches t o h := by cases h

theorem Locked.begin (h : Locked P G st₀ s) (t : ℕ) {p : Txn D α} (hp : P p) :
    Locked P G st₀ (s.begin t p) where
  serial := h.serial
  log := h.log
  apart u v o o' huv := by
    refine h.apart_setTx t _ ?_ huv
    rintro _ ⟨⟩ w o' - -
    exact ⟨fun k hk => absurd hk List.not_mem_nil, fun hl => nomatch hl.1⟩
  reaches u o ho := by
    rcases setTx_cases ho with ⟨rfl, ⟨⟩⟩ | ⟨-, ho⟩
    · exact ⟨hp, .start⟩
    · exact h.reaches u o ho

theorem Locked.advance (h : Locked P G st₀ s) {t : ℕ} {o : Open D α}
    {st : Stmt D} {k : st.Reply → Txn D α} {ans : Oracle D} {r : st.Reply}
    {l : Loc D} (ho : s.txs t = some o) (hrest : o.rest = .call st k)
    (hexec : exec s.store ans s.seq o.loc st = .ok (r, l))
    (hwait : ∀ u o', u ≠ t → s.txs u = some o' → l.Apart o'.loc) (n : ℕ) :
    Locked P G st₀ (s.advance t o (k r) l n) where
  serial := h.serial
  log := h.log
  apart u v o₁ o₂ huv := by
    refine h.apart_setTx t _ ?_ huv
    rintro _ ⟨⟩
    exact hwait
  reaches u o' ho' := by
    rcases setTx_cases ho' with ⟨rfl, ⟨⟩⟩ | ⟨-, ho'⟩
    · obtain ⟨hp, hr⟩ := h.reaches _ o ho
      rw [hrest] at hr
      exact ⟨hp, hr.step hexec⟩
    · exact h.reaches u o' ho'

/-- A commit writes rows its transaction holds, so every other open transaction
keeps what it has seen. -/
theorem Locked.keeps (h : Locked P G st₀ s) {t u : ℕ} {o o' : Open D α}
    (ho : s.txs t = some o) (hu : u ≠ t) (ho' : s.txs u = some o') :
    o'.loc.Keeps s.store (o.loc.view s.store) where
  same k hk := by
    refine Schema.get_applyWrites_of_notMem _ fun hmem => ?_
    obtain ⟨w, hw, rfl⟩ := List.mem_map.mp hmem
    have hlocked : ∀ w ∈ o.loc.writes, w.1 ∈ o.loc.locks :=
      (h.reaches t o ho).2.grows.writes fun w hw => absurd hw List.not_mem_nil
    exact (h.apart u t o' o hu ho' ho).rows _ hk (hlocked w hw)
  more k hk := Schema.present_applyWrites _ hk

theorem Locked.commit (h : Locked P G st₀ s) {t : ℕ} {o : Open D α} {a : α}
    (ho : s.txs t = some o) (hrest : o.rest = .ret a) (hg : G s.store o.body) :
    Locked P G st₀ (s.commit t o a) where
  serial := by
    obtain ⟨hp, hr⟩ := h.reaches t o ho
    rw [hrest] at hr
    exact h.serial.snoc hp hg (hr.eval (.ret a _))
  log := by
    show s.log ++ o.loc.pend = _
    rw [h.log]
    simp [Sys.commit]
  apart u v o₁ o₂ huv := h.apart_setTx t none (by rintro _ ⟨⟩) huv
  reaches u o' ho' := by
    rcases setTx_cases ho' with ⟨-, ⟨⟩⟩ | ⟨hu, ho'⟩
    obtain ⟨hp, hr⟩ := h.reaches u o' ho'
    exact ⟨hp, hr.frame (h.keeps ho hu ho')⟩

theorem Locked.abort (h : Locked P G st₀ s) (t n : ℕ) :
    Locked P G st₀ (s.abort t n) where
  serial := h.serial
  log := h.log
  apart u v o₁ o₂ huv := h.apart_setTx t none (by rintro _ ⟨⟩) huv
  reaches u o ho := by
    rcases setTx_cases ho with ⟨-, ⟨⟩⟩ | ⟨-, ho⟩
    exact h.reaches u o ho

theorem Locked.step (h : Locked P G st₀ s) (hstep : Step P G s s') :
    Locked P G st₀ s' := by
  cases hstep with
  | begin t p _ hp => exact h.begin t hp
  | exec t o st k ans r l ho hrest hexec hwait =>
      exact h.advance ho hrest hexec hwait _
  | commit t o a ho hrest hg => exact h.commit ho hrest hg
  | abort t n => exact h.abort t n

/-- **Strict two-phase locking.** Whatever the interleaving, the committed
bodies in commit order are a serial run to the store, and the log is what they
appended, in that order. -/
theorem reachable_locked
    (hrun : Relation.ReflTransGen (Step P G) { store := st₀ } s) :
    Locked P G st₀ s :=
  run_invariant _ (fun _ _ h hstep => h.step hstep) hrun (locked_init st₀)

end System

end VideoStorage.Foundation
