import Mathlib.Algebra.Group.Int.Defs
import Mathlib.Algebra.Group.Nat.Defs
import Mathlib.Logic.Function.Basic
import VideoStorage.Foundation.Program
import VideoStorage.MediaIndex.SweepLease

/-!
# The sweep worker

Any number of boxes run `run_one_pass` against one lease row. The lease is
looked at once, when a pass begins; it is renewed while a closure runs, and what
the renewal answers is ignored. So the single runner is as good as the renewals:
it holds in every run in which no lease runs out under its owner's pass
(`single_runner`).
-/

namespace VideoStorage.Jobs.Worker

open Foundation MediaIndex
open Relation (ReflTransGen)

/-- The longest duration, `2 ^ 63 - 1` milliseconds. -/
def durationMax : ℤ := (2 ^ 63 - 1) * 1000

/-- Elapsed time against the interval, saturating at the longest duration. -/
def discoveryDue (last : Option ℤ) (interval now : ℤ) : Bool :=
  match last with
  | none => true
  | some l => min interval durationMax ≤ now - l

theorem discoveryDue_iff {last : Option ℤ} {interval now : ℤ} :
    discoveryDue last interval now = true ↔
      ∀ l, last = some l → min interval durationMax ≤ now - l := by
  cases last with
  | none => simp [discoveryDue]
  | some l => simp [discoveryDue]

/-- What is due stays due. -/
theorem discoveryDue_mono {last : Option ℤ} {interval now now' : ℤ}
    (h : discoveryDue last interval now = true) (hle : now ≤ now') :
    discoveryDue last interval now' = true := by
  rw [discoveryDue_iff] at h ⊢
  intro l hl
  have hdue := h l hl
  omega

/-- Where a box is in its pass. -/
inductive Phase
  | idle
  /-- It owns the lease as far as it knows. -/
  | elected
  | draining
  | drained
  | discovering
  /-- Discovery ran; its time is still to be written. -/
  | recording
  | stopped
  deriving DecidableEq, Repr

/-- The drain or the discovery closure is running. -/
def Phase.Executing (p : Phase) : Prop := p = .draining ∨ p = .discovering

/-- From the election to the end of the last closure. -/
def Phase.InPass (p : Phase) : Prop :=
  p = .elected ∨ p = .draining ∨ p = .drained ∨ p = .discovering

instance : DecidablePred Phase.InPass := fun p => inferInstanceAs
  (Decidable (p = .elected ∨ p = .draining ∨ p = .drained ∨ p = .discovering))

/-- The database's clock and lease row, and the boxes by name. -/
structure Fleet where
  now : ℤ := 0
  lease : Option LeaseRow := none
  phase : String → Phase := fun _ => .idle

namespace Fleet

variable (s : Fleet)

def goto (b : String) (p : Phase) : Fleet :=
  { s with phase := Function.update s.phase b p }

def withLease (lease : Option LeaseRow) : Fleet := { s with lease := lease }

def tick (d : ℕ) : Fleet := { s with now := s.now + d }

@[simp] theorem phase_goto_self (b : String) (p : Phase) :
    (s.goto b p).phase b = p := Function.update_self ..

theorem phase_goto_ne {b c : String} (p : Phase) (h : c ≠ b) :
    (s.goto b p).phase c = s.phase c := Function.update_of_ne h ..

end Fleet

/-- What the boxes are configured with. -/
structure WorkerConfig where
  ttl : ℤ
  ttl_nonneg : 0 ≤ ttl
  discoveryInterval : ℤ

/-- One step of the fleet, in which the clock only moves as `G` allows. -/
inductive WorkerStep (cfg : WorkerConfig) (G : Fleet → Fleet → Prop)
    (s : Fleet) : Fleet → Prop
  | tick (d : ℕ) (hg : G s (s.tick d)) : WorkerStep cfg G s (s.tick d)
  /-- A pass begins; a box that is not elected returns. -/
  | elect (b : String) (hidle : s.phase b = .idle) : WorkerStep cfg G s
      ((s.withLease (acquireOrRenewLease cfg.ttl s.now b s.lease).2).goto b
        (if (acquireOrRenewLease cfg.ttl s.now b s.lease).1 then .elected
          else .idle))
  | startDrain (b : String) (h : s.phase b = .elected) :
      WorkerStep cfg G s (s.goto b .draining)
  /-- Nothing eligible, or a manual run holds the flag. -/
  | skipDrain (b : String) (h : s.phase b = .elected) :
      WorkerStep cfg G s (s.goto b .drained)
  | endDrain (b : String) (h : s.phase b = .draining) :
      WorkerStep cfg G s (s.goto b .drained)
  | startDiscovery (b : String) (utcNow : ℤ) (h : s.phase b = .drained)
      (hdue : discoveryDue (getLastDiscoveryAt s.lease) cfg.discoveryInterval
        utcNow = true) :
      WorkerStep cfg G s (s.goto b .discovering)
  /-- Not due, or a manual import holds the flag. -/
  | skipDiscovery (b : String) (h : s.phase b = .drained) :
      WorkerStep cfg G s (s.goto b .idle)
  | endDiscovery (b : String) (h : s.phase b = .discovering) :
      WorkerStep cfg G s (s.goto b .recording)
  | record (b : String) (utcNow : ℤ) (h : s.phase b = .recording) :
      WorkerStep cfg G s
        ((s.withLease (setLastDiscoveryAt b utcNow s.lease)).goto b .idle)
  /-- A renewal reaches the database, even after its task was aborted. One that
  fails is no step. -/
  | renew (b : String) : WorkerStep cfg G s
      (s.withLease (acquireOrRenewLease cfg.ttl s.now b s.lease).2)
  /-- A failed query, a panic or a crash ends the pass. -/
  | fail (b : String) (h : s.phase b ≠ .stopped) :
      WorkerStep cfg G s (s.goto b .idle)
  | shutdown (b : String) : WorkerStep cfg G s (s.goto b .stopped)
  | release (b : String) (h : s.phase b = .stopped) :
      WorkerStep cfg G s (s.withLease (releaseLease b s.lease))
  | restart (b : String) (h : s.phase b = .stopped) :
      WorkerStep cfg G s (s.goto b .idle)

/-! ## One runner -/

/-- At most one box is executing a closure. -/
def SingleRunner (s : Fleet) : Prop :=
  ∀ a b, (s.phase a).Executing → (s.phase b).Executing → a = b

/-- The step begins a closure of `b`. -/
def Starts (s s' : Fleet) (b : String) : Prop :=
  ¬ (s.phase b).Executing ∧ (s'.phase b).Executing

/-- The clock does not pass `heartbeat + ttl` of a lease whose owner is in its
pass. -/
def RenewedInTime (cfg : WorkerConfig) (s s' : Fleet) : Prop :=
  ∀ l, s.lease = some l → (s.phase l.owner).InPass →
    ¬ l.Expired cfg.ttl s'.now

/-- Every box in its pass holds the lease. -/
def Leased (cfg : WorkerConfig) (s : Fleet) : Prop :=
  ∀ b, (s.phase b).InPass → Holds cfg.ttl s.now b s.lease

section Runs

variable {cfg : WorkerConfig} {G : Fleet → Fleet → Prop} {s s' : Fleet}
  {b c : String} {p : Phase}

theorem Phase.Executing.inPass (h : p.Executing) : p.InPass := by
  rcases h with rfl | rfl
  · exact .inr (.inl rfl)
  · exact .inr (.inr (.inr rfl))

/-- A box that moves on within its pass, or out of it. -/
theorem Leased.goto (h : Leased cfg s)
    (hp : p.InPass → Holds cfg.ttl s.now b s.lease) :
    Leased cfg (s.goto b p) := by
  intro c hc
  by_cases hcb : c = b
  · subst hcb
    rw [Fleet.phase_goto_self] at hc
    exact hp hc
  · rw [Fleet.phase_goto_ne s p hcb] at hc
    exact h c hc

theorem Leased.step (h : Leased cfg s)
    (hstep : WorkerStep cfg (RenewedInTime cfg) s s') : Leased cfg s' := by
  cases hstep with
  | tick d hg =>
      intro b hb
      obtain ⟨l, hl, howner, -⟩ := h b hb
      refine ⟨l, hl, howner, hg l hl ?_⟩
      rw [howner]
      exact hb
  | elect b _ =>
      have hrenewed : Leased cfg
          (s.withLease (acquireOrRenewLease cfg.ttl s.now b s.lease).2) :=
        fun c hc => ((h c hc).acquire cfg.ttl_nonneg b).1
      apply hrenewed.goto
      intro hp
      split_ifs at hp with hacq
      · exact holds_of_acquired cfg.ttl_nonneg hacq
      · exact absurd hp (by decide)
  | startDrain b hb =>
      apply h.goto
      exact fun _ => h b (.inl hb)
  | skipDrain b hb =>
      apply h.goto
      exact fun _ => h b (.inl hb)
  | endDrain b hb =>
      apply h.goto
      exact fun _ => h b (.inr (.inl hb))
  | startDiscovery b utcNow hb _ =>
      apply h.goto
      exact fun _ => h b (.inr (.inr (.inl hb)))
  | skipDiscovery b _ =>
      apply h.goto
      exact fun hp => absurd hp (by decide)
  | endDiscovery b _ =>
      apply h.goto
      exact fun hp => absurd hp (by decide)
  | record b utcNow _ =>
      have hrecord : Leased cfg
          (s.withLease (setLastDiscoveryAt b utcNow s.lease)) :=
        fun c hc => (h c hc).record b utcNow
      apply hrecord.goto
      exact fun hp => absurd hp (by decide)
  | renew b => exact fun c hc => ((h c hc).acquire cfg.ttl_nonneg b).1
  | fail b _ =>
      apply h.goto
      exact fun hp => absurd hp (by decide)
  | shutdown b =>
      apply h.goto
      exact fun hp => absurd hp (by decide)
  | release b hb =>
      intro c hc
      refine (h c hc).release ?_
      -- a stopped box is not in its pass
      rintro rfl
      have hc' : (s.phase b).InPass := hc
      rw [hb] at hc'
      exact absurd hc' (by decide)
  | restart b _ =>
      apply h.goto
      exact fun hp => absurd hp (by decide)

theorem Leased.single (h : Leased cfg s) : SingleRunner s := by
  intro a b ha hb
  exact (h a ha.inPass).unique (h b hb.inPass)

/-- A step that begins a closure moves a box that is in its pass. -/
theorem starts_inPass (hstep : WorkerStep cfg G s s') (hstarts : Starts s s' b) :
    (s.phase b).InPass := by
  obtain ⟨hbefore, hafter⟩ := hstarts
  -- the box that starts is the one that the step moves
  have hmoved : ∀ (t : Fleet) (c : String) (p : Phase), t.phase = s.phase →
      ((t.goto c p).phase b).Executing → c = b ∧ p.Executing := by
    intro t c p ht hexec
    by_cases hbc : b = c
    · subst hbc
      rw [Fleet.phase_goto_self] at hexec
      exact ⟨rfl, hexec⟩
    · rw [Fleet.phase_goto_ne t p hbc, ht] at hexec
      exact absurd hexec hbefore
  cases hstep with
  | tick d _ => exact absurd hafter hbefore
  | renew c => exact absurd hafter hbefore
  | release c _ => exact absurd hafter hbefore
  | elect c _ =>
      obtain ⟨-, hexec⟩ := hmoved (s.withLease _) c _ rfl hafter
      split_ifs at hexec
      · exact hexec.elim nofun nofun
      · exact hexec.elim nofun nofun
  | startDrain c h =>
      obtain ⟨rfl, -⟩ := hmoved s c _ rfl hafter
      exact .inl h
  | startDiscovery c utcNow h _ =>
      obtain ⟨rfl, -⟩ := hmoved s c _ rfl hafter
      exact .inr (.inr (.inl h))
  | record c utcNow _ =>
      exact (hmoved (s.withLease _) c _ rfl hafter).2.elim nofun nofun
  | skipDrain c _ => exact (hmoved s c _ rfl hafter).2.elim nofun nofun
  | endDrain c _ => exact (hmoved s c _ rfl hafter).2.elim nofun nofun
  | skipDiscovery c _ => exact (hmoved s c _ rfl hafter).2.elim nofun nofun
  | endDiscovery c _ => exact (hmoved s c _ rfl hafter).2.elim nofun nofun
  | fail c _ => exact (hmoved s c _ rfl hafter).2.elim nofun nofun
  | shutdown c => exact (hmoved s c _ rfl hafter).2.elim nofun nofun
  | restart c _ => exact (hmoved s c _ rfl hafter).2.elim nofun nofun

/-- **Single runner.** In every run in which no lease runs out under its owner's
pass, at most one box executes a closure, and whoever begins one holds the
lease. -/
theorem single_runner {s₀ : Fleet} (hidle : ∀ b, s₀.phase b = .idle)
    (hrun : ReflTransGen (WorkerStep cfg (RenewedInTime cfg)) s₀ s) :
    SingleRunner s ∧ ∀ s' b, WorkerStep cfg (RenewedInTime cfg) s s' →
      Starts s s' b → Holds cfg.ttl s.now b s.lease := by
  have hinit : Leased cfg s₀ := by
    intro b hb
    rw [hidle b] at hb
    exact absurd hb (by decide)
  have hleased : Leased cfg s :=
    run_invariant (Leased cfg) (fun _ _ h hstep => h.step hstep) hrun hinit
  refine ⟨hleased.single, ?_⟩
  intro s' b hstep hstarts
  exact hleased b (starts_inPass hstep hstarts)

end Runs

/-! ## Two boxes -/

/-- Leases of ten minutes, discovery every six hours. -/
def twoBoxes : WorkerConfig where
  ttl := 600000000
  ttl_nonneg := by decide
  discoveryInterval := 21600000000

/-- The first box has been draining for a minute. -/
def draining (d : ℕ) : Fleet :=
  (((({} : Fleet).withLease (some ⟨"a", 0, none⟩)).goto "a" .elected).goto "a"
    .draining).tick d

theorem draining_run {G : Fleet → Fleet → Prop} (d : ℕ)
    (hg : G (draining 0) (draining d)) :
    ReflTransGen (WorkerStep twoBoxes G) {} (draining d) :=
  .tail (.tail (.single (.elect "a" rfl)) (.startDrain "a" rfl)) (.tick d hg)

theorem single_runner_renewed : SingleRunner ((draining 60000000).withLease
    (some ⟨"a", 60000000, none⟩)) := by
  have hrun : ReflTransGen (WorkerStep twoBoxes (RenewedInTime twoBoxes)) {}
      ((draining 60000000).withLease (some ⟨"a", 60000000, none⟩)) := by
    refine (draining_run 60000000 ?_).tail (.renew "a")
    rintro l ⟨⟩ -
    decide
  exact (single_runner (fun _ => rfl) hrun).1

/-- The first box's renewals fail, the second steals the lease and drains too;
then the first box goes on to discovery. -/
theorem stolen_lease :
    (∃ s, ReflTransGen (WorkerStep twoBoxes fun _ _ => True) {} s ∧
      ¬ SingleRunner s) ∧
    ∃ s s', ReflTransGen (WorkerStep twoBoxes fun _ _ => True) {} s ∧
      WorkerStep twoBoxes (fun _ _ => True) s s' ∧ Starts s s' "a" ∧
      ¬ Holds twoBoxes.ttl s.now "a" s.lease := by
  have hrun : ReflTransGen (WorkerStep twoBoxes fun _ _ => True) {}
      (draining 600000001) := draining_run _ trivial
  have hstolen := (hrun.tail (.elect "b" rfl)).tail (.startDrain "b" rfl)
  refine ⟨⟨_, hstolen, ?_⟩, _, _, hstolen.tail (.endDrain "a" rfl),
    .startDiscovery "a" 0 rfl rfl, ?_, ?_⟩
  · intro hsingle
    have hsame := hsingle "a" "b" (.inl rfl) (.inl rfl)
    exact absurd hsame (by decide)
  · exact ⟨fun h => h.elim nofun nofun, .inr rfl⟩
  · rintro ⟨l, hl, howner, -⟩
    cases hl
    exact absurd howner (by decide)

end VideoStorage.Jobs.Worker
