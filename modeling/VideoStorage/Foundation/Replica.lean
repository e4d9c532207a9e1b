import Mathlib.Data.List.Induction
import VideoStorage.Foundation.Outbox

/-!
# Replicas of an outbox

A replica keeps for every key the last value it has read from the log and asks
again above the last number it got. `ReplicaStep` runs the writers of an outbox
and any number of replicas side by side. For each key a replica has the last of
the values that were committed up to its cursor, it never goes back, and it
arrives at every value that is committed (`reachable_replicates`).
-/

namespace VideoStorage.Foundation

open Relation (ReflTransGen)

/-! ## The values of a key -/

section Values

variable {E K V : Type} [DecidableEq K] (read : E → Option (K × V))

/-- The values that the entries give a key, in their order. -/
def valuesAt (k : K) (log : List E) : List V :=
  (log.filterMap read).filterMap fun p => if p.1 = k then some p.2 else none

variable {read}

theorem valuesAt_append (k : K) (xs ys : List E) :
    valuesAt read k (xs ++ ys) = valuesAt read k xs ++ valuesAt read k ys := by
  unfold valuesAt
  rw [List.filterMap_append, List.filterMap_append]

theorem valuesAt_prefix {xs ys : List E} (h : xs <+: ys) (k : K) :
    valuesAt read k xs <+: valuesAt read k ys := by
  obtain ⟨zs, rfl⟩ := h
  rw [valuesAt_append]
  exact List.prefix_append _ _

/-- Replaying a log leaves each key with its last value. -/
theorem replay_apply (log : List E) (k : K) :
    replay read log k = (valuesAt read k log).getLast? := by
  induction log using List.reverseRecOn with
  | nil => rfl
  | append_singleton log e ih =>
      rw [replay_snoc, valuesAt_append]
      cases hread : read e with
      | none =>
          have hnil : valuesAt read k [e] = [] := by simp [valuesAt, hread]
          rw [replayStep_none hread, hnil, List.append_nil]
          exact ih
      | some p =>
          obtain ⟨k', v⟩ := p
          rw [replayStep_some hread]
          by_cases hk : k' = k
          · subst hk
            have hone : valuesAt read k' [e] = [v] := by simp [valuesAt, hread]
            rw [hone, Function.update_self, List.getLast?_concat]
          · have hnil : valuesAt read k [e] = [] := by simp [valuesAt, hread, hk]
            rw [Function.update_of_ne (Ne.symm hk), hnil, List.append_nil]
            exact ih

end Values

/-! ## One replica -/

section Replica

variable {E K V : Type} [DecidableEq K] (read : E → Option (K × V))

structure Replica (K V : Type) where
  after : ℕ := 0
  copy : K → Option V := fun _ => none
  /-- How often it has asked, which nothing reads. -/
  polls : ℕ := 0

/-- The replica goes on from the last number of the page. -/
def Replica.receive (r : Replica K V) (page : List (ℕ × E)) : Replica K V where
  after := (page.getLast?.map (·.1)).getD r.after
  copy := (page.map (·.2)).foldl (replayStep read) r.copy
  polls := r.polls + 1

/-- At most `n` of the entries above a number. -/
def pageAfter (feed : List (ℕ × E)) (after n : ℕ) : List (ℕ × E) :=
  (feed.filter fun e => after < e.1).take n

/-- The replica has replayed exactly `xs`, the first part of the feed. -/
structure Replica.At (feed : List (ℕ × E)) (r : Replica K V)
    (xs : List (ℕ × E)) : Prop where
  pre : xs <+: feed
  copy : r.copy = replay read (xs.map (·.2))
  after : r.after = lastNumber xs

variable {read} {feed feed' xs : List (ℕ × E)} {r : Replica K V}

theorem replica_at_init (feed : List (ℕ × E)) :
    Replica.At read feed ({} : Replica K V) [] :=
  ⟨List.nil_prefix, rfl, rfl⟩

theorem Replica.At.mono (h : Replica.At read feed r xs) (hfeed : feed <+: feed') :
    Replica.At read feed' r xs :=
  ⟨h.pre.trans hfeed, h.copy, h.after⟩

theorem Replica.At.page {m : ℕ} (h : Replica.At read feed r xs)
    (hm : Issued m feed) (n : ℕ) :
    pageAfter feed r.after n = (feed.drop xs.length).take n := by
  obtain ⟨ys, rfl⟩ := h.pre
  unfold pageAfter
  rw [h.after, hm.above_eq_drop, List.drop_left]

/-- **One page.** The replica moves on by what it has not replayed. -/
theorem Replica.At.receive {m : ℕ} (h : Replica.At read feed r xs)
    (hm : Issued m feed) (n : ℕ) :
    Replica.At read feed (r.receive read (pageAfter feed r.after n))
      (xs ++ (feed.drop xs.length).take n) := by
  rw [h.page hm]
  obtain ⟨ys, rfl⟩ := h.pre
  rw [List.drop_left]
  refine ⟨(List.prefix_append_right_inj xs).mpr (List.take_prefix _ _), ?_, ?_⟩
  · unfold Replica.receive
    rw [List.map_append, h.copy]
    exact List.foldl_append.symm
  · unfold Replica.receive
    rw [h.after]
    unfold lastNumber
    rcases List.eq_nil_or_concat (ys.take n) with e | ⟨zs, z, e⟩
    · rw [e, List.append_nil]
      rfl
    · rw [e]
      simp

/-- What is numbered up to the replica's cursor is what it has replayed. -/
theorem Replica.At.filter {m : ℕ} (h : Replica.At read feed r xs)
    (hm : Issued m feed) : feed.filter (fun e => e.1 ≤ r.after) = xs := by
  obtain ⟨ys, rfl⟩ := h.pre
  rw [List.filter_append, h.after]
  have hall : xs.filter (fun e => e.1 ≤ lastNumber xs) = xs :=
    List.filter_eq_self.mpr fun e he => by simpa using hm.left.le_lastNumber he
  have hnone : ys.filter (fun e => e.1 ≤ lastNumber xs) = [] :=
    List.filter_eq_nil_iff.mpr fun e he => by simpa using hm.lastNumber_lt he
  rw [hall, hnone, List.append_nil]

end Replica

/-! ## Writers and replicas -/

section System

variable {D : Schema} {α K V : Type} [DecidableEq K]

structure ReplicaSys (D : Schema) (α K V : Type) where
  db : Sys D α
  replicas : ℕ → Replica K V := fun _ => {}

/-- Replica `i` is answered with a page. -/
def ReplicaSys.poll (read : D.Event → Option (K × V)) (s : ReplicaSys D α K V)
    (i n : ℕ) : ReplicaSys D α K V :=
  { s with
    replicas := Function.update s.replicas i ((s.replicas i).receive read
      (pageAfter s.db.log (s.replicas i).after n)) }

@[simp] theorem ReplicaSys.poll_db (read : D.Event → Option (K × V))
    (s : ReplicaSys D α K V) (i n : ℕ) : (s.poll read i n).db = s.db := rfl

@[simp] theorem ReplicaSys.poll_self (read : D.Event → Option (K × V))
    (s : ReplicaSys D α K V) (i n : ℕ) :
    (s.poll read i n).replicas i = (s.replicas i).receive read
      (pageAfter s.db.log (s.replicas i).after n) :=
  Function.update_self ..

@[simp] theorem ReplicaSys.poll_of_ne (read : D.Event → Option (K × V))
    (s : ReplicaSys D α K V) {i j : ℕ} (h : i ≠ j) (n : ℕ) :
    (s.poll read j n).replicas i = s.replicas i :=
  Function.update_of_ne h ..

/-- One step of a writer, or one page answered to a replica. -/
inductive ReplicaStep (P : Txn D α → Prop) (G : D.Store → Txn D α → Prop)
    (read : D.Event → Option (K × V)) (s : ReplicaSys D α K V) :
    ReplicaSys D α K V → Prop
  | write (db : Sys D α) (h : Step P G s.db db) :
      ReplicaStep P G read s { s with db := db }
  | poll (i n : ℕ) (hn : 0 < n) : ReplicaStep P G read s (s.poll read i n)

/-- The values that were committed for a key. -/
def ReplicaSys.values (read : D.Event → Option (K × V))
    (s : ReplicaSys D α K V) (k : K) : List V :=
  valuesAt read k (s.db.log.map (·.2))

/-- Those of them that are numbered up to the replica's cursor. -/
def ReplicaSys.shown (read : D.Event → Option (K × V))
    (s : ReplicaSys D α K V) (i : ℕ) (k : K) : List V :=
  valuesAt read k
    ((s.db.log.filter fun e => e.1 ≤ (s.replicas i).after).map (·.2))

variable {read : D.Event → Option (K × V)} {table : D.Store → K → Option V}
  {outs : α → List (K × V)} {P : Txn D α → Prop}
  {G : D.Store → Txn D α → Prop} {Q : D.Event → Prop} {st₀ : D.Store}
  {s s' : ReplicaSys D α K V}

/-- The database keeps its locks and its numbers in order, and every replica is
somewhere along the feed. -/
structure ReplicaInv (read : D.Event → Option (K × V)) (P : Txn D α → Prop)
    (G : D.Store → Txn D α → Prop) (Q : D.Event → Prop) (st₀ : D.Store)
    (s : ReplicaSys D α K V) : Prop where
  run : ReflTransGen (Step P G) { store := st₀ } s.db
  locked : Locked P G st₀ s.db
  ordered : Ordered Q s.db
  somewhere : ∀ i, ∃ xs, Replica.At read s.db.log (s.replicas i) xs

theorem replicaInv_init (st₀ : D.Store) : ReplicaInv read P G Q st₀
    ({ db := { store := st₀ } } : ReplicaSys D α K V) where
  run := .refl
  locked := locked_init st₀
  ordered := ordered_init st₀
  somewhere _ := ⟨[], replica_at_init []⟩

/-- One step: a replica that asks moves on by a page, the others stay put, and
what they have replayed stays the first part of the feed. -/
theorem ReplicaInv.step_at (h : ReplicaInv read P G Q st₀ s)
    (hstep : ReplicaStep P G read s s') (i : ℕ) {xs : List (ℕ × D.Event)}
    (hxs : Replica.At read s.db.log (s.replicas i) xs) :
    s.db.log <+: s'.db.log ∧
    ∃ ys, Replica.At read s'.db.log (s'.replicas i) ys ∧ xs <+: ys ∧
      ((s'.replicas i).polls = (s.replicas i).polls ∨
        (s'.replicas i).polls = (s.replicas i).polls + 1 ∧
          min s.db.log.length (xs.length + 1) ≤ ys.length) := by
  cases hstep with
  | write db hdb =>
      exact ⟨hdb.log_prefix, xs, hxs.mono hdb.log_prefix, List.prefix_refl _,
        .inl rfl⟩
  | poll j n hn =>
      refine ⟨List.prefix_refl _, ?_⟩
      by_cases hij : i = j
      · subst hij
        refine ⟨xs ++ (s.db.log.drop xs.length).take n, ?_,
          List.prefix_append _ _, .inr ⟨?_, ?_⟩⟩
        · rw [ReplicaSys.poll_db, ReplicaSys.poll_self]
          exact hxs.receive h.ordered.log n
        · rw [ReplicaSys.poll_self]
          rfl
        · rw [List.length_append, List.length_take, List.length_drop]
          omega
      · rw [s.poll_of_ne read hij]
        exact ⟨xs, hxs, List.prefix_refl _, .inl rfl⟩

theorem ReplicaInv.step (hP : ∀ p, P p → Disciplined Q false p)
    (h : ReplicaInv read P G Q st₀ s) (hstep : ReplicaStep P G read s s') :
    ReplicaInv read P G Q st₀ s' := by
  have hsome : ∀ i, ∃ xs, Replica.At read s'.db.log (s'.replicas i) xs := by
    intro i
    obtain ⟨xs, hxs⟩ := h.somewhere i
    obtain ⟨-, ys, hys, -⟩ := h.step_at hstep i hxs
    exact ⟨ys, hys⟩
  cases hstep with
  | write db hdb =>
      exact ⟨h.run.tail hdb, h.locked.step hdb, h.ordered.step h.locked hP hdb,
        hsome⟩
  | poll j n hn => exact ⟨h.run, h.locked, h.ordered, hsome⟩

/-- Along a run a replica that asks `k` more times gets to the `k`-th entry, or
to the end of what was there when the run began. -/
theorem ReplicaInv.run_at (hP : ∀ p, P p → Disciplined Q false p)
    (h : ReplicaInv read P G Q st₀ s) (i : ℕ) {xs : List (ℕ × D.Event)}
    (hxs : Replica.At read s.db.log (s.replicas i) xs)
    (hrun : ReflTransGen (ReplicaStep P G read) s s') :
    ReplicaInv read P G Q st₀ s' ∧ s.db.log <+: s'.db.log ∧
    ∃ ys, Replica.At read s'.db.log (s'.replicas i) ys ∧ xs <+: ys ∧
      (s.replicas i).polls ≤ (s'.replicas i).polls ∧
      min s.db.log.length ((s'.replicas i).polls - (s.replicas i).polls)
        ≤ ys.length := by
  induction hrun with
  | refl =>
      refine ⟨h, List.prefix_refl _, xs, hxs, List.prefix_refl _, Nat.le_refl _,
        ?_⟩
      omega
  | tail _ hstep ih =>
      obtain ⟨hinv, hlog, ys, hys, hpre, hle, hlen⟩ := ih
      obtain ⟨hlog', zs, hzs, hpre', hpolls⟩ := hinv.step_at hstep i hys
      refine ⟨hinv.step hP hstep, hlog.trans hlog', zs, hzs, hpre.trans hpre', ?_, ?_⟩
      · rcases hpolls with hp | ⟨hp, -⟩ <;> omega
      · have hlog := hlog.length_le
        have hys := hpre'.length_le
        rcases hpolls with hp | ⟨hp, hz⟩ <;> omega

theorem ReplicaInv.shown (h : ReplicaInv read P G Q st₀ s) {i : ℕ}
    {xs : List (ℕ × D.Event)}
    (hxs : Replica.At read s.db.log (s.replicas i) xs) (k : K) :
    s.shown read i k = valuesAt read k (xs.map (·.2)) := by
  unfold ReplicaSys.shown
  rw [hxs.filter h.ordered.log]

/-- What replica `i` has of the table, now and from now on. -/
structure Replicates (read : D.Event → Option (K × V))
    (table : D.Store → K → Option V) (P : Txn D α → Prop)
    (G : D.Store → Txn D α → Prop) (s : ReplicaSys D α K V) (i : ℕ) : Prop where
  /-- Each key has the last of the values committed up to the cursor. -/
  copy : ∀ k, (s.replicas i).copy k = (s.shown read i k).getLast?
  current : ∀ k, table s.db.store k = (s.values read k).getLast?
  behind : ∀ k, s.shown read i k <+: s.values read k
  /-- No key ever goes back to an earlier value. -/
  onward : ∀ s', ReflTransGen (ReplicaStep P G read) s s' → ∀ k,
    s.shown read i k <+: s'.shown read i k
  /-- After as many pages as there are entries it has been through them all. -/
  arrives : ∀ s', ReflTransGen (ReplicaStep P G read) s s' →
    (s.replicas i).polls + s.db.log.length ≤ (s'.replicas i).polls → ∀ k,
    s.values read k <+: s'.shown read i k
  /-- A page that is not full makes it the table. -/
  short : ∀ n, (pageAfter s.db.log (s.replicas i).after n).length < n →
    ((s.replicas i).receive read
      (pageAfter s.db.log (s.replicas i).after n)).copy = table s.db.store

theorem ReplicaInv.replicates (hkeep : KeepsOutbox read table outs P G)
    (h₀ : table st₀ = fun _ => none) (hP : ∀ p, P p → Disciplined Q false p)
    (h : ReplicaInv read P G Q st₀ s) (i : ℕ) :
    Replicates read table P G s i := by
  obtain ⟨-, htable, -⟩ := reachable_outbox hkeep h₀ hP h.run
  obtain ⟨xs, hxs⟩ := h.somewhere i
  refine ⟨fun k => ?_, fun k => ?_, fun k => ?_, fun s' hrun k => ?_,
    fun s' hrun hpolls k => ?_, fun n hshort => ?_⟩
  · rw [h.shown hxs, hxs.copy, replay_apply]
  · rw [← htable, replay_apply]
    rfl
  · rw [h.shown hxs]
    exact valuesAt_prefix (hxs.pre.map _) k
  · obtain ⟨h', -, ys, hys, hpre, -⟩ := h.run_at hP i hxs hrun
    rw [h.shown hxs, h'.shown hys]
    exact valuesAt_prefix (hpre.map _) k
  · obtain ⟨h', hlog, ys, hys, -, -, hlen⟩ := h.run_at hP i hxs hrun
    rw [h'.shown hys]
    have hall : s.db.log <+: ys :=
      List.prefix_of_prefix_length_le hlog hys.pre (by omega)
    exact valuesAt_prefix (hall.map _) k
  · have hnext := hxs.receive h.ordered.log n
    rw [hxs.page h.ordered.log, List.length_take, List.length_drop] at hshort
    -- what was left fits into the page
    have hrest : (s.db.log.drop xs.length).take n = s.db.log.drop xs.length :=
      List.take_of_length_le (by rw [List.length_drop]; omega)
    rw [hnext.copy, hrest, ← htable]
    obtain ⟨ys, hys⟩ := hxs.pre
    rw [← hys, List.drop_left]

/-- **Replicas.** Whatever the writers and the replicas do, in every order. -/
theorem reachable_replicates (hkeep : KeepsOutbox read table outs P G)
    (h₀ : table st₀ = fun _ => none) (hP : ∀ p, P p → Disciplined Q false p)
    (hrun : ReflTransGen (ReplicaStep P G read)
      ({ db := { store := st₀ } } : ReplicaSys D α K V) s) (i : ℕ) :
    ReplicaInv read P G Q st₀ s ∧ Replicates read table P G s i := by
  have hinv := ((replicaInv_init st₀).run_at hP i
    (replica_at_init _) hrun).1
  exact ⟨hinv, hinv.replicates hkeep h₀ hP i⟩

end System

end VideoStorage.Foundation
