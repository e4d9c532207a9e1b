import VideoStorage.Foundation.Trace
import VideoStorage.Jobs.Worker

/-!
# Discovery cadence

The time of the last discovery lives on the lease row. Acquiring, renewing and
stealing carry it over; the release deletes the row and the time with it, and
the time is not looked at again when a discovery is recorded. So the cadence
holds in every run in which no young time is released and none was written
during a discovery that is recorded (`discovery_cadence`). All clocks agree.
-/

namespace VideoStorage.Jobs.Worker

open Foundation MediaIndex

/-- The fleet, the `last` that each box's pass read, and the times of the
discoveries that owners recorded, the newest first. -/
structure Cadence where
  fleet : Fleet := {}
  last : String → Option ℤ := fun _ => none
  recorded : List ℤ := []

namespace Cadence

variable (s : Cadence)

def now : ℤ := s.fleet.now

def lease : Option LeaseRow := s.fleet.lease

/-- `b` is the owner in the row. -/
def Owns (b : String) : Prop := ∃ l, s.lease = some l ∧ l.owner = b

instance (b : String) : Decidable (s.Owns b) :=
  decidable_of_iff (s.lease.any (·.owner = b))
    (by simp [Owns, Option.any_eq_true])

def withFleet (f : Fleet) : Cadence := { s with fleet := f }

end Cadence

/-- A pass that goes on, ends or fails without touching the row. -/
inductive Phase.Moves : Phase → Phase → Prop
  | startDrain : Moves .elected .draining
  | skipDrain : Moves .elected .drained
  | endDrain : Moves .draining .drained
  | skipDiscovery : Moves .drained .idle
  | endDiscovery : Moves .discovering .recording
  | fail {p : Phase} (h : p ≠ .stopped) : Moves p .idle
  | shutdown (p : Phase) : Moves p .stopped
  | restart : Moves .stopped .idle

inductive CadenceEvent
  | tick (d : ℕ)
  | elect (b : String)
  | move (b : String) (p : Phase)
  | startDiscovery (b : String)
  | record (b : String)
  | renew (b : String)
  | release (b : String)

/-- One step of the fleet with one clock, which stays where a `DateTime<Utc>`
can be. -/
inductive CadenceStep (cfg : WorkerConfig) (s : Cadence) :
    CadenceEvent → Cadence → Prop
  | tick (d : ℕ) (hrange : s.now + d < 2 ^ 63) :
      CadenceStep cfg s (.tick d) (s.withFleet (s.fleet.tick d))
  | elect (b : String) (hidle : s.fleet.phase b = .idle) :
      CadenceStep cfg s (.elect b) (s.withFleet
        ((s.fleet.withLease
          (acquireOrRenewLease cfg.ttl s.now b s.lease).2).goto b
          (if (acquireOrRenewLease cfg.ttl s.now b s.lease).1 then .elected
            else .idle)))
  | move (b : String) (p : Phase) (h : (s.fleet.phase b).Moves p) :
      CadenceStep cfg s (.move b p) (s.withFleet (s.fleet.goto b p))
  | startDiscovery (b : String) (h : s.fleet.phase b = .drained)
      (hdue : discoveryDue (getLastDiscoveryAt s.lease) cfg.discoveryInterval
        s.now = true) :
      CadenceStep cfg s (.startDiscovery b)
        { fleet := s.fleet.goto b .discovering
          last := Function.update s.last b (getLastDiscoveryAt s.lease)
          recorded := s.recorded }
  | record (b : String) (h : s.fleet.phase b = .recording) :
      CadenceStep cfg s (.record b)
        { fleet := (s.fleet.withLease
            (setLastDiscoveryAt b s.now s.lease)).goto b .idle
          last := s.last
          recorded := if s.Owns b then s.now :: s.recorded else s.recorded }
  | renew (b : String) :
      CadenceStep cfg s (.renew b) (s.withFleet
        (s.fleet.withLease (acquireOrRenewLease cfg.ttl s.now b s.lease).2))
  | release (b : String) (h : s.fleet.phase b = .stopped) :
      CadenceStep cfg s (.release b)
        (s.withFleet (s.fleet.withLease (releaseLease b s.lease)))

/-! ## The distance of discoveries -/

/-- Any two recorded discoveries are at least the interval apart. -/
def Spaced (cfg : WorkerConfig) (s : Cadence) : Prop :=
  s.recorded.Pairwise fun later earlier =>
    cfg.discoveryInterval ≤ later - earlier

/-- The owner releases no row whose time is younger than the interval, and
records no discovery during which another was written to the row, unless that is
an interval ago too. -/
def CarriesCadence (cfg : WorkerConfig) (s : Cadence) : CadenceEvent → Prop
  | .release b => s.Owns b →
      discoveryDue (getLastDiscoveryAt s.lease) cfg.discoveryInterval s.now
        = true
  | .record b => s.Owns b →
      getLastDiscoveryAt s.lease = s.last b ∨
      discoveryDue (getLastDiscoveryAt s.lease) cfg.discoveryInterval s.now
        = true
  | _ => True

section Runs

variable {cfg : WorkerConfig} {s s' : Cadence} {e : CadenceEvent}
  {es : List CadenceEvent} {b : String} {p q : Phase} {t : ℤ}

/-! ### The invariant -/

/-- From the check that discovery is due to the end of the pass. -/
def Phase.FoundDue (p : Phase) : Prop := p = .discovering ∨ p = .recording

/-- Every recorded time is an interval ago or still in the row, and a pass that
found discovery due may record it as far as it knows. -/
structure Carried (cfg : WorkerConfig) (s : Cadence) : Prop where
  range : 0 ≤ s.now ∧ s.now < 2 ^ 63
  past : ∀ t ∈ s.recorded, 0 ≤ t ∧ t ≤ s.now
  spaced : Spaced cfg s
  carried : ∀ t ∈ s.recorded,
    min cfg.discoveryInterval durationMax ≤ s.now - t ∨
      ∃ t', getLastDiscoveryAt s.lease = some t' ∧ t ≤ t'
  found : ∀ b, (s.fleet.phase b).FoundDue →
    discoveryDue (s.last b) cfg.discoveryInterval s.now = true

/-- A box that moves has found discovery due only where it had before. -/
theorem Phase.Moves.foundDue (h : p.Moves q) (hq : q.FoundDue) : p.FoundDue := by
  cases h with
  | endDiscovery => exact .inl rfl
  | startDrain => exact hq.elim nofun nofun
  | skipDrain => exact hq.elim nofun nofun
  | endDrain => exact hq.elim nofun nofun
  | skipDiscovery => exact hq.elim nofun nofun
  | fail _ => exact hq.elim nofun nofun
  | shutdown => exact hq.elim nofun nofun
  | restart => exact hq.elim nofun nofun

theorem not_foundDue_idle : ¬ Phase.FoundDue .idle :=
  fun h => h.elim nofun nofun

theorem foundDue_goto {f : Fleet} {c : String}
    (hp : p.FoundDue → (f.phase b).FoundDue)
    (h : ((f.goto b p).phase c).FoundDue) : (f.phase c).FoundDue := by
  by_cases hcb : c = b
  · subst hcb
    rw [Fleet.phase_goto_self] at h
    exact hp h
  · rw [Fleet.phase_goto_ne f p hcb] at h
    exact h

/-- A step that keeps the clock, the time in the row, and who found discovery
due. -/
theorem Carried.withFleet (h : Carried cfg s) {f : Fleet}
    (hnow : f.now = s.now)
    (hlast : getLastDiscoveryAt f.lease = getLastDiscoveryAt s.lease)
    (hphase : ∀ b, (f.phase b).FoundDue → (s.fleet.phase b).FoundDue) :
    Carried cfg (s.withFleet f) := by
  have hnow' : (s.withFleet f).now = s.now := hnow
  have hlast' : getLastDiscoveryAt (s.withFleet f).lease
      = getLastDiscoveryAt s.lease := hlast
  constructor
  · rw [hnow']
    exact h.range
  · rw [hnow']
    exact h.past
  · exact h.spaced
  · rw [hnow', hlast']
    exact h.carried
  · rw [hnow']
    exact fun b hb => h.found b (hphase b hb)

/-- When the row's time is an interval ago, so is every recorded one. -/
theorem Carried.all_past (h : Carried cfg s)
    (hdue : discoveryDue (getLastDiscoveryAt s.lease) cfg.discoveryInterval s.now
      = true) (ht : t ∈ s.recorded) :
    min cfg.discoveryInterval durationMax ≤ s.now - t := by
  rcases h.carried t ht with hpast | ⟨t', hlast, hle⟩
  · exact hpast
  · have hdue' := discoveryDue_iff.mp hdue t' hlast
    omega

theorem Carried.tick (h : Carried cfg s) {d : ℕ} (hrange : s.now + d < 2 ^ 63) :
    Carried cfg (s.withFleet (s.fleet.tick d)) := by
  have hnow : (s.withFleet (s.fleet.tick d)).now = s.now + d := rfl
  have hrange₀ := h.range.1
  constructor
  · exact ⟨by omega, hrange⟩
  · intro t ht
    have hpast := h.past t ht
    omega
  · exact h.spaced
  · intro t ht
    rcases h.carried t ht with hpast | hlast
    · left
      omega
    · exact .inr hlast
  · intro b hb
    exact discoveryDue_mono (h.found b hb) (by omega)

theorem Carried.startDiscovery (h : Carried cfg s)
    (hdue : discoveryDue (getLastDiscoveryAt s.lease) cfg.discoveryInterval s.now
      = true) :
    Carried cfg
      { fleet := s.fleet.goto b .discovering
        last := Function.update s.last b (getLastDiscoveryAt s.lease)
        recorded := s.recorded } where
  range := h.range
  past := h.past
  spaced := h.spaced
  carried := h.carried
  found c hc := by
    by_cases hcb : c = b
    · subst hcb
      show discoveryDue (Function.update s.last c _ c) _ _ = true
      rw [Function.update_self]
      exact hdue
    · show discoveryDue (Function.update s.last b _ c) _ _ = true
      rw [Function.update_of_ne hcb]
      have hphase : (s.fleet.goto b .discovering).phase c = s.fleet.phase c :=
        Fleet.phase_goto_ne s.fleet .discovering hcb
      exact h.found c (hphase ▸ hc)

/-- The release of a row whose time is an interval ago. -/
theorem Carried.release (h : Carried cfg s)
    (hold : s.Owns b → discoveryDue (getLastDiscoveryAt s.lease)
      cfg.discoveryInterval s.now = true) :
    Carried cfg (s.withFleet (s.fleet.withLease (releaseLease b s.lease))) := by
  by_cases howns : s.Owns b
  · refine ⟨h.range, h.past, h.spaced, ?_, h.found⟩
    intro t ht
    exact .inl (h.all_past (hold howns) ht)
  · refine h.withFleet rfl ?_ fun _ hb => hb
    show getLastDiscoveryAt (releaseLease b s.lease) = _
    rw [getLastDiscoveryAt_release]
    exact if_neg howns

/-- The owner records what is due by the row; anyone else records nothing. -/
theorem Carried.record (h : Carried cfg s) (hb : s.fleet.phase b = .recording)
    (hsame : s.Owns b → getLastDiscoveryAt s.lease = s.last b ∨
      discoveryDue (getLastDiscoveryAt s.lease) cfg.discoveryInterval s.now
        = true) :
    Carried cfg
      { fleet := (s.fleet.withLease
          (setLastDiscoveryAt b s.now s.lease)).goto b .idle
        last := s.last
        recorded := if s.Owns b then s.now :: s.recorded else s.recorded } := by
  -- no box comes to have found discovery due by this
  have hphase : ∀ c, (((s.fleet.withLease
      (setLastDiscoveryAt b s.now s.lease)).goto b .idle).phase c).FoundDue →
      (s.fleet.phase c).FoundDue := by
    intro c hc
    have hidle : Phase.FoundDue .idle →
        ((s.fleet.withLease (setLastDiscoveryAt b s.now s.lease)).phase
          b).FoundDue := fun h => absurd h not_foundDue_idle
    exact foundDue_goto hidle hc
  by_cases howns : s.Owns b
  · have hdue : discoveryDue (getLastDiscoveryAt s.lease) cfg.discoveryInterval
        s.now = true := by
      rcases hsame howns with hlast | hdue
      · rw [hlast]
        exact h.found b (.inr hb)
      · exact hdue
    have hset : getLastDiscoveryAt (setLastDiscoveryAt b s.now s.lease)
        = some s.now := by
      rw [getLastDiscoveryAt_set]
      exact if_pos howns
    rw [if_pos howns]
    refine ⟨h.range, ?_, ?_, ?_, fun c hc => h.found c (hphase c hc)⟩
    · intro t ht
      rcases List.mem_cons.mp ht with rfl | ht
      · exact ⟨h.range.1, le_refl _⟩
      · exact h.past t ht
    -- what is due by the row is an interval behind every recorded time
    · refine List.pairwise_cons.mpr ⟨?_, h.spaced⟩
      intro t ht
      have hpast := h.all_past hdue ht
      have hrange := h.range.2
      have hle := (h.past t ht).1
      unfold durationMax at hpast
      omega
    · intro t ht
      refine .inr ⟨s.now, hset, ?_⟩
      rcases List.mem_cons.mp ht with rfl | ht
      · exact le_refl _
      · exact (h.past t ht).2
  · rw [if_neg howns]
    -- the update finds no row of this box
    refine h.withFleet rfl ?_ hphase
    show getLastDiscoveryAt (setLastDiscoveryAt b s.now s.lease) = _
    rw [getLastDiscoveryAt_set]
    exact if_neg howns

theorem Carried.acquire (h : Carried cfg s) {f : Fleet} (hnow : f.now = s.now)
    (hlease : f.lease = (acquireOrRenewLease cfg.ttl s.now b s.lease).2)
    (hphase : ∀ b, (f.phase b).FoundDue → (s.fleet.phase b).FoundDue) :
    Carried cfg (s.withFleet f) := by
  refine h.withFleet hnow ?_ hphase
  rw [hlease]
  exact getLastDiscoveryAt_acquire

theorem Carried.step (h : Carried cfg s) (hmeet : CarriesCadence cfg s e)
    (hstep : CadenceStep cfg s e s') : Carried cfg s' := by
  cases hstep with
  | tick d hrange => exact h.tick hrange
  | elect b hidle =>
      refine h.acquire rfl rfl ?_
      intro c hc
      refine foundDue_goto (fun hnew => ?_) hc
      split_ifs at hnew
      · exact hnew.elim nofun nofun
      · exact absurd hnew not_foundDue_idle
  | move b p hmoves =>
      refine h.withFleet rfl rfl ?_
      intro c hc
      exact foundDue_goto hmoves.foundDue hc
  | startDiscovery b _ hdue => exact h.startDiscovery hdue
  | record b hb => exact h.record hb hmeet
  | renew b => exact h.acquire rfl rfl fun _ hb => hb
  | release b _ => exact h.release hmeet

/-- **Cadence.** In every run whose releases and records carry the cadence, from
idle boxes and any lease row, recorded discoveries are the interval apart. -/
theorem discovery_cadence {s₀ : Cadence}
    (hidle : ∀ b, s₀.fleet.phase b = .idle) (hrecorded : s₀.recorded = [])
    (hclock : 0 ≤ s₀.now ∧ s₀.now < 2 ^ 63)
    (hrun : Trace (Meeting (CarriesCadence cfg) (CadenceStep cfg)) s₀ es s) :
    Spaced cfg s := by
  have hstart : Carried cfg s₀ := by
    refine ⟨hclock, ?_, ?_, ?_, ?_⟩
    · rw [hrecorded]
      exact fun t ht => absurd ht List.not_mem_nil
    · unfold Spaced
      rw [hrecorded]
      exact .nil
    · rw [hrecorded]
      exact fun t ht => absurd ht List.not_mem_nil
    · intro b hb
      rw [hidle b] at hb
      exact absurd hb not_foundDue_idle
  have hcarried : Carried cfg s :=
    hrun.invariant (Carried cfg) (fun _ _ _ h hab => h.step hab.1 hab.2) hstart
  exact hcarried.spaced

end Runs

/-! ## Handovers -/

/-- A box without work to drain runs its discovery and records it. -/
def discoveryPass (b : String) : List CadenceEvent :=
  [.elect b, .move b .drained, .startDiscovery b, .move b .recording, .record b]

/-- The first box discovers, and again six hours later. -/
theorem discovery_cadence_twice : ∃ s, Spaced twoBoxes s ∧
    s.recorded = [21600000000, 0] := by
  have hrun : Trace (Meeting (CarriesCadence twoBoxes) (CadenceStep twoBoxes)) {}
      (discoveryPass "a" ++ .tick 21600000000 :: discoveryPass "a") _ :=
    .cons ⟨trivial, .elect "a" rfl⟩ <|
    .cons ⟨trivial, .move "a" _ .skipDrain⟩ <|
    .cons ⟨trivial, .startDiscovery "a" rfl rfl⟩ <|
    .cons ⟨trivial, .move "a" _ .endDiscovery⟩ <|
    .cons ⟨fun _ => .inl rfl, .record "a" rfl⟩ <|
    .cons ⟨trivial, .tick 21600000000 (by decide)⟩ <|
    .cons ⟨trivial, .elect "a" rfl⟩ <|
    .cons ⟨trivial, .move "a" _ .skipDrain⟩ <|
    .cons ⟨trivial, .startDiscovery "a" rfl rfl⟩ <|
    .cons ⟨trivial, .move "a" _ .endDiscovery⟩ <|
    .cons ⟨fun _ => .inl rfl, .record "a" rfl⟩ <|
    .nil _
  exact ⟨_, discovery_cadence (fun _ => rfl) rfl (by decide) hrun, by decide⟩

/-- The first box discovers and is shut down. Its release deletes the row, and a
minute later the second box finds that no discovery ever ran. -/
theorem released_cadence : ∃ es s, Trace (CadenceStep twoBoxes) {} es s ∧
    ¬ Spaced twoBoxes s := by
  have hrun : Trace (CadenceStep twoBoxes) {} (discoveryPass "a" ++
      .move "a" .stopped :: .release "a" :: .tick 60000000 ::
        discoveryPass "b") _ :=
    .cons (.elect "a" rfl) <|
    .cons (.move "a" _ .skipDrain) <|
    .cons (.startDiscovery "a" rfl rfl) <|
    .cons (.move "a" _ .endDiscovery) <|
    .cons (.record "a" rfl) <|
    .cons (.move "a" _ (.shutdown _)) <|
    .cons (.release "a" rfl) <|
    .cons (.tick 60000000 (by decide)) <|
    .cons (.elect "b" rfl) <|
    .cons (.move "b" _ .skipDrain) <|
    .cons (.startDiscovery "b" rfl rfl) <|
    .cons (.move "b" _ .endDiscovery) <|
    .cons (.record "b" rfl) <|
    .nil _
  refine ⟨_, _, hrun, ?_⟩
  intro hspaced
  have hapart := List.rel_of_pairwise_cons hspaced List.mem_cons_self
  exact absurd hapart (by decide)

end VideoStorage.Jobs.Worker
