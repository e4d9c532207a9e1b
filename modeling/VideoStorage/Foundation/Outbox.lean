import VideoStorage.Foundation.AppendLog

/-!
# Transactional outboxes

A consumer that replays a log keeps, for every key, the last value an entry
gives it (`replay`). An outbox is right when the replay is the table: then the
log is a second copy of it. Bodies that write a row and append its entry
together keep that (`Tracked`), piece by piece, and so does every reachable
state of a system of such bodies (`reachable_outbox`).
-/

namespace VideoStorage.Foundation

open Relation (ReflTransGen)

/-! ## Replay -/

section Replay

variable {E K V : Type} [DecidableEq K] (read : E → Option (K × V))

/-- The consumer's step: an entry it can read overwrites its key. -/
def replayStep (m : K → Option V) (e : E) : K → Option V :=
  match read e with
  | some (k, v) => Function.update m k (some v)
  | none => m

def replay (log : List E) : K → Option V :=
  log.foldl (replayStep read) fun _ => none

variable {read}

theorem replay_snoc (log : List E) (e : E) :
    replay read (log ++ [e]) = replayStep read (replay read log) e := by
  unfold replay
  rw [List.foldl_append]
  rfl

theorem replayStep_none {m : K → Option V} {e : E} (h : read e = none) :
    replayStep read m e = m := by
  unfold replayStep
  rw [h]

theorem replayStep_some {m : K → Option V} {e : E} {k : K} {v : V}
    (h : read e = some (k, v)) :
    replayStep read m e = Function.update m k (some v) := by
  unfold replayStep
  rw [h]

end Replay

/-! ## Writing with an entry -/

section Tracked

variable {D : Schema} {K V : Type} [DecidableEq K]
  {read : D.Event → Option (K × V)} {table : D.Store → K → Option V}
  {st : D.Store}

/-- The entries a transaction holds back. -/
def Loc.events (l : Loc D) : List D.Event := l.pend.map (·.2)

/-- Between `l` and `l'` a body keeps the replay equal to the table, and of the
entries the consumer reads it appends exactly `outs`. -/
structure Tracked (read : D.Event → Option (K × V))
    (table : D.Store → K → Option V) (st : D.Store) (l l' : Loc D)
    (outs : List (K × V)) : Prop where
  mirrors : ∀ log, replay read (log ++ l.events) = table (l.view st) →
    replay read (log ++ l'.events) = table (l'.view st)
  events : l'.events.filterMap read = l.events.filterMap read ++ outs

theorem Tracked.refl (l : Loc D) : Tracked read table st l l [] :=
  ⟨fun _ h => h, (List.append_nil _).symm⟩

theorem Tracked.trans {l₁ l₂ l₃ : Loc D} {xs ys : List (K × V)}
    (h₁ : Tracked read table st l₁ l₂ xs)
    (h₂ : Tracked read table st l₂ l₃ ys) :
    Tracked read table st l₁ l₃ (xs ++ ys) where
  mirrors log h := h₂.mirrors log (h₁.mirrors log h)
  events := by rw [h₂.events, h₁.events, List.append_assoc]

/-- A stretch that leaves the table and the log alone. -/
theorem Tracked.of_same {l l' : Loc D} (hpend : l'.pend = l.pend)
    (htable : table (l'.view st) = table (l.view st)) :
    Tracked read table st l l' [] := by
  have hevents : l'.events = l.events := by
    unfold Loc.events
    rw [hpend]
  refine ⟨fun log h => ?_, ?_⟩
  · rw [hevents, htable]
    exact h
  · rw [hevents, List.append_nil]

/-- An entry that is none of the consumer's. -/
theorem Tracked.of_other {l l' : Loc D} {n : ℕ} {e : D.Event}
    (hpend : l'.pend = l.pend ++ [(n, e)]) (hread : read e = none)
    (htable : table (l'.view st) = table (l.view st)) :
    Tracked read table st l l' [] := by
  have hevents : l'.events = l.events ++ [e] := by
    unfold Loc.events
    rw [hpend, List.map_append]
    rfl
  refine ⟨fun log h => ?_, ?_⟩
  · rw [hevents, ← List.append_assoc, replay_snoc, replayStep_none hread, h,
      htable]
  · rw [hevents, List.filterMap_append, List.filterMap_cons_none hread]
    rfl

/-- A row is written and its entry appended. -/
theorem Tracked.of_write {l l' : Loc D} {n : ℕ} {e : D.Event} {k : K} {v : V}
    (hpend : l'.pend = l.pend ++ [(n, e)]) (hread : read e = some (k, v))
    (htable : table (l'.view st)
      = Function.update (table (l.view st)) k (some v)) :
    Tracked read table st l l' [(k, v)] := by
  have hevents : l'.events = l.events ++ [e] := by
    unfold Loc.events
    rw [hpend, List.map_append]
    rfl
  refine ⟨fun log h => ?_, ?_⟩
  · rw [hevents, ← List.append_assoc, replay_snoc, replayStep_some hread, h,
      htable]
  · rw [hevents, List.filterMap_append, List.filterMap_cons_some hread]
    rfl

end Tracked

/-! ## Systems of such bodies -/

section System

variable {D : Schema} {α K V : Type} [DecidableEq K]
  {read : D.Event → Option (K × V)} {table : D.Store → K → Option V}
  {outs : α → List (K × V)} {P : Txn D α → Prop}
  {G : D.Store → Txn D α → Prop} {st₀ st : D.Store} {s : Sys D α}
  {cs : List (Commit D α)}

/-- The bodies of the system, as far as they may commit, keep the outbox. -/
def KeepsOutbox (read : D.Event → Option (K × V))
    (table : D.Store → K → Option V) (outs : α → List (K × V))
    (P : Txn D α → Prop) (G : D.Store → Txn D α → Prop) : Prop :=
  ∀ st p a l, P p → G st p → Eval st p {} a l →
    Tracked read table st {} l (outs a)

theorem Serial.outbox (h : Serial P G st₀ st cs)
    (hkeep : KeepsOutbox read table outs P G)
    (h₀ : table st₀ = fun _ => none) :
    replay read (cs.flatMap (·.loc.events)) = table st ∧
      ∀ c ∈ cs, c.loc.events.filterMap read = outs c.result := by
  induction h with
  | init => exact ⟨h₀.symm, fun c hc => absurd hc List.not_mem_nil⟩
  | snoc _ hp hg he ih =>
      obtain ⟨hrep, hall⟩ := ih
      have htr := hkeep _ _ _ _ hp hg he
      refine ⟨?_, ?_⟩
      · rw [List.flatMap_append, List.flatMap_singleton]
        refine htr.mirrors _ ?_
        -- before its first statement a transaction holds nothing back
        show replay read (_ ++ []) = _
        rw [List.append_nil]
        exact hrep
      · intro c hc
        rcases List.mem_append.mp hc with hc | hc
        · exact hall c hc
        · rw [List.mem_singleton.mp hc]
          exact htr.events

/-- **Outbox.** From empty tables, in every reachable state the replay of the
log in the order of its numbers is the table, and every committed transaction
appended what its result says. -/
theorem reachable_outbox {Q : D.Event → Prop}
    (hkeep : KeepsOutbox read table outs P G)
    (h₀ : table st₀ = fun _ => none)
    (hP : ∀ p, P p → Disciplined Q false p)
    (hrun : ReflTransGen (Step P G) { store := st₀ } s) :
    s.log.Pairwise (·.1 < ·.1) ∧
      replay read (s.log.map (·.2)) = table s.store ∧
      ∀ c ∈ s.commits, c.loc.events.filterMap read = outs c.result := by
  obtain ⟨hlocked, hordered⟩ := reachable_ordered hP hrun
  obtain ⟨hrep, hall⟩ := hlocked.serial.outbox hkeep h₀
  refine ⟨hordered.log.sorted, ?_, hall⟩
  rw [← hrep, hlocked.log, List.map_flatMap]
  rfl

end System

end VideoStorage.Foundation
