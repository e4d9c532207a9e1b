import Mathlib.Data.Int.Order.Basic

/-!
# `sweep_lease`

The single row that elects the box that sweeps: acquiring, renewing and stealing
in one statement, the owner's release, and the time of the last discovery. The
times are the database's, in microseconds.
-/

namespace VideoStorage.MediaIndex

structure LeaseRow where
  owner : String
  heartbeat : ℤ
  lastDiscoveryAt : Option ℤ := none
  deriving DecidableEq, Repr

/-- `heartbeat < now() - ttl`. -/
def LeaseRow.Expired (ttl now : ℤ) (l : LeaseRow) : Prop := l.heartbeat < now - ttl

instance (ttl now : ℤ) (l : LeaseRow) : Decidable (l.Expired ttl now) :=
  inferInstanceAs (Decidable (l.heartbeat < now - ttl))

/-- Whether `owner` now holds the lease, and the row. -/
def acquireOrRenewLease (ttl now : ℤ) (owner : String) :
    Option LeaseRow → Bool × Option LeaseRow
  | none => (true, some { owner := owner, heartbeat := now })
  | some l =>
      if l.owner = owner ∨ l.Expired ttl now then
        (true, some { l with owner := owner, heartbeat := now })
      else (false, some l)

/-- `DELETE … WHERE owner = $1`. -/
def releaseLease (owner : String) : Option LeaseRow → Option LeaseRow
  | none => none
  | some l => if l.owner = owner then none else some l

def getLastDiscoveryAt (lease : Option LeaseRow) : Option ℤ :=
  lease.bind (·.lastDiscoveryAt)

/-- The update of the owner; anyone else's finds no row. -/
def setLastDiscoveryAt (owner : String) (ts : ℤ) :
    Option LeaseRow → Option LeaseRow
  | none => none
  | some l =>
      if l.owner = owner then some { l with lastDiscoveryAt := some ts }
      else some l

/-! ## What each does to the time of the last discovery -/

section LastDiscovery

variable {ttl now : ℤ} {owner : String} {lease : Option LeaseRow}

/-- Renewing and stealing keep the time, and a new row has none. -/
theorem getLastDiscoveryAt_acquire :
    getLastDiscoveryAt (acquireOrRenewLease ttl now owner lease).2
      = getLastDiscoveryAt lease := by
  cases lease with
  | none => rfl
  | some l =>
      unfold acquireOrRenewLease
      dsimp only
      split <;> rfl

/-- The owner's release loses the time; anyone else's does nothing. -/
theorem getLastDiscoveryAt_release :
    getLastDiscoveryAt (releaseLease owner lease)
      = if ∃ l, lease = some l ∧ l.owner = owner then none
        else getLastDiscoveryAt lease := by
  cases lease with
  | none => simp [releaseLease]
  | some l =>
      by_cases hl : l.owner = owner
      · simp [releaseLease, hl, getLastDiscoveryAt]
      · simp [releaseLease, hl, getLastDiscoveryAt]

theorem getLastDiscoveryAt_set {ts : ℤ} :
    getLastDiscoveryAt (setLastDiscoveryAt owner ts lease)
      = if ∃ l, lease = some l ∧ l.owner = owner then some ts
        else getLastDiscoveryAt lease := by
  cases lease with
  | none => simp [setLastDiscoveryAt]
  | some l =>
      by_cases hl : l.owner = owner
      · simp [setLastDiscoveryAt, hl, getLastDiscoveryAt]
      · simp [setLastDiscoveryAt, hl, getLastDiscoveryAt]

end LastDiscovery

/-- `owner` holds the lease, and nobody may take it. -/
def Holds (ttl now : ℤ) (owner : String) (lease : Option LeaseRow) : Prop :=
  ∃ l, lease = some l ∧ l.owner = owner ∧ ¬ l.Expired ttl now

section Holds

variable {ttl now : ℤ} {a b : String} {lease : Option LeaseRow}

theorem Holds.unique (ha : Holds ttl now a lease) (hb : Holds ttl now b lease) :
    a = b := by
  obtain ⟨l, rfl, rfl, -⟩ := ha
  obtain ⟨l', hl', rfl, -⟩ := hb
  rw [Option.some.inj hl']

/-- Whoever acquires the lease holds it. -/
theorem holds_of_acquired (httl : 0 ≤ ttl)
    (h : (acquireOrRenewLease ttl now a lease).1 = true) :
    Holds ttl now a (acquireOrRenewLease ttl now a lease).2 := by
  have hfresh : ¬ now < now - ttl := by omega
  cases lease with
  | none => exact ⟨_, rfl, rfl, hfresh⟩
  | some l =>
      simp only [acquireOrRenewLease] at h ⊢
      split_ifs at h ⊢
      exact ⟨_, rfl, rfl, hfresh⟩

/-- A lease that is held can be renewed by its owner and taken by nobody. -/
theorem Holds.acquire (httl : 0 ≤ ttl) (h : Holds ttl now a lease) (b : String) :
    Holds ttl now a (acquireOrRenewLease ttl now b lease).2 ∧
      ((acquireOrRenewLease ttl now b lease).1 = true → b = a) := by
  obtain ⟨l, rfl, rfl, hfresh⟩ := h
  simp only [acquireOrRenewLease]
  by_cases hb : l.owner = b
  · rw [if_pos (.inl hb)]
    refine ⟨⟨_, rfl, hb.symm, ?_⟩, fun _ => hb.symm⟩
    show ¬ now < now - ttl
    omega
  · rw [if_neg (not_or.mpr ⟨hb, hfresh⟩)]
    exact ⟨⟨l, rfl, rfl, hfresh⟩, nofun⟩

theorem Holds.release (h : Holds ttl now a lease) (hne : b ≠ a) :
    Holds ttl now a (releaseLease b lease) := by
  obtain ⟨l, rfl, rfl, hfresh⟩ := h
  simp only [releaseLease]
  rw [if_neg hne.symm]
  exact ⟨l, rfl, rfl, hfresh⟩

theorem Holds.record (h : Holds ttl now a lease) (b : String) (ts : ℤ) :
    Holds ttl now a (setLastDiscoveryAt b ts lease) := by
  obtain ⟨l, rfl, rfl, hfresh⟩ := h
  simp only [setLastDiscoveryAt]
  by_cases hb : l.owner = b
  · rw [if_pos hb]
    exact ⟨_, rfl, rfl, hfresh⟩
  · rw [if_neg hb]
    exact ⟨l, rfl, rfl, hfresh⟩

end Holds

end VideoStorage.MediaIndex
