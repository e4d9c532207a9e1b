import VideoStorage.MediaIndex.SweepLease

/-!
# Who holds the lease

The statements on `sweep_lease`, over the table itself and in any order. There is
one row at most, as the other modules take for granted (`exec_tableOf`), and its
owner loses it to another box only when its heartbeat is old: older than the
`ttl` of the box that takes it, which need not be the `ttl` of a box that comes
after that one (`lease_exclusion`).
-/

namespace VideoStorage.MediaIndex

/-! ## The table -/

/-- The rows of `sweep_lease`, each with its `id`. -/
abbrev LeaseTable : Type := List (ℤ × LeaseRow)

inductive LeaseStmt
  | acquireOrRenew (owner : String) (ttl : ℤ)
  | release (owner : String)
  | setLastDiscovery (owner : String) (ts : ℤ)
  deriving DecidableEq, Repr

/-- A statement, run when the clock of the database shows `now`. -/
structure LeaseEvent where
  now : ℤ
  stmt : LeaseStmt
  deriving DecidableEq, Repr

namespace LeaseTable

/-- `INSERT … VALUES (1, …) ON CONFLICT (id) DO UPDATE … WHERE … RETURNING`. -/
def acquireOrRenew (ttl now : ℤ) (owner : String) (t : LeaseTable) :
    Bool × LeaseTable :=
  match t.find? (·.1 = 1) with
  | none => (true, t ++ [(1, { owner := owner, heartbeat := now })])
  | some r =>
      if r.2.owner = owner ∨ r.2.Expired ttl now then
        (true, t.map fun r =>
          if r.1 = 1 then (1, { r.2 with owner := owner, heartbeat := now }) else r)
      else (false, t)

/-- `DELETE … WHERE id = 1 AND owner = $1`. -/
def release (owner : String) (t : LeaseTable) : LeaseTable :=
  t.filter fun r => ¬ (r.1 = 1 ∧ r.2.owner = owner)

/-- `UPDATE … WHERE id = 1 AND owner = $2`. -/
def setLastDiscovery (owner : String) (ts : ℤ) (t : LeaseTable) : LeaseTable :=
  t.map fun r =>
    if r.1 = 1 ∧ r.2.owner = owner then
      (r.1, { r.2 with lastDiscoveryAt := some ts })
    else r

/-- The box that a row makes the owner. -/
def owner (t : LeaseTable) : Option String := t.head?.map (·.2.owner)

end LeaseTable

namespace LeaseEvent

def exec (e : LeaseEvent) (t : LeaseTable) : LeaseTable :=
  match e.stmt with
  | .acquireOrRenew owner ttl => (t.acquireOrRenew ttl e.now owner).2
  | .release owner => t.release owner
  | .setLastDiscovery owner ts => t.setLastDiscovery owner ts

/-- The box whose acquire or renew it is, when that returned `true`. -/
def taker (e : LeaseEvent) (t : LeaseTable) : Option String :=
  match e.stmt with
  | .acquireOrRenew owner ttl =>
      if (t.acquireOrRenew ttl e.now owner).1 then some owner else none
  | _ => none

end LeaseEvent

def tableAfter (t : LeaseTable) (events : List LeaseEvent) : LeaseTable :=
  events.foldl (fun t e => e.exec t) t

/-- The events with the tables they met. -/
def leaseLog : LeaseTable → List LeaseEvent → List (LeaseEvent × LeaseTable)
  | _, [] => []
  | t, e :: events => (e, t) :: leaseLog (e.exec t) events

/-! ## One row -/

/-- The table of the one row, or of none. -/
def tableOf : Option LeaseRow → LeaseTable
  | none => []
  | some l => [(1, l)]

section Table

variable {ttl now ts : ℤ} {owner : String} {lease : Option LeaseRow}

theorem acquireOrRenewLease_taken {l : LeaseRow}
    (h : l.owner = owner ∨ l.Expired ttl now) :
    acquireOrRenewLease ttl now owner (some l)
      = (true, some { l with owner := owner, heartbeat := now }) :=
  if_pos h

theorem acquireOrRenewLease_kept {l : LeaseRow}
    (h : ¬ (l.owner = owner ∨ l.Expired ttl now)) :
    acquireOrRenewLease ttl now owner (some l) = (false, some l) :=
  if_neg h

theorem acquireOrRenew_tableOf :
    (tableOf lease).acquireOrRenew ttl now owner
      = ((acquireOrRenewLease ttl now owner lease).1,
        tableOf (acquireOrRenewLease ttl now owner lease).2) := by
  cases lease with
  | none => rfl
  | some l =>
      unfold LeaseTable.acquireOrRenew
      by_cases h : l.owner = owner ∨ l.Expired ttl now
      · simp [tableOf, acquireOrRenewLease_taken h, if_pos h]
      · simp [tableOf, acquireOrRenewLease_kept h, if_neg h]

theorem release_tableOf :
    (tableOf lease).release owner = tableOf (releaseLease owner lease) := by
  cases lease with
  | none => rfl
  | some l =>
      unfold LeaseTable.release releaseLease
      by_cases h : l.owner = owner
      · simp [tableOf, h]
      · simp [tableOf, h]

theorem setLastDiscovery_tableOf : (tableOf lease).setLastDiscovery owner ts
    = tableOf (setLastDiscoveryAt owner ts lease) := by
  cases lease with
  | none => rfl
  | some l =>
      unfold LeaseTable.setLastDiscovery setLastDiscoveryAt
      by_cases h : l.owner = owner
      · simp [tableOf, h]
      · simp [tableOf, h]

/-- **One row.** A statement makes of a table with one row at most such a table
again, as the functions on the row say. -/
theorem exec_tableOf (e : LeaseEvent) (lease : Option LeaseRow) :
    ∃ lease', e.exec (tableOf lease) = tableOf lease' := by
  unfold LeaseEvent.exec
  cases e.stmt with
  | acquireOrRenew owner ttl => exact ⟨_, congrArg Prod.snd acquireOrRenew_tableOf⟩
  | release owner => exact ⟨_, release_tableOf⟩
  | setLastDiscovery owner ts => exact ⟨_, setLastDiscovery_tableOf⟩

theorem tableAfter_tableOf (events : List LeaseEvent) (lease : Option LeaseRow) :
    ∃ lease', tableAfter (tableOf lease) events = tableOf lease' := by
  induction events generalizing lease with
  | nil => exact ⟨lease, rfl⟩
  | cons e events ih =>
      obtain ⟨lease₁, he⟩ := exec_tableOf e lease
      obtain ⟨lease', h⟩ := ih lease₁
      refine ⟨lease', ?_⟩
      rw [← h, ← he]
      rfl

end Table

/-! ## One statement -/

section Statement

variable {ttl now ts t : ℤ} {owner a : String} {lease : Option LeaseRow}

/-- An acquire returns `true` to the box that then is the owner, and to no
other. -/
theorem acquireOrRenew_iff : ((tableOf lease).acquireOrRenew ttl now owner).1 = true ↔
    ((tableOf lease).acquireOrRenew ttl now owner).2.owner = some owner := by
  rw [acquireOrRenew_tableOf]
  cases lease with
  | none => simp [acquireOrRenewLease, tableOf, LeaseTable.owner]
  | some l =>
      by_cases h : l.owner = owner ∨ l.Expired ttl now
      · rw [acquireOrRenewLease_taken h]
        simp [tableOf, LeaseTable.owner]
      · have hne : l.owner ≠ owner := fun heq => h (.inl heq)
        rw [acquireOrRenewLease_kept h]
        simp [tableOf, LeaseTable.owner, hne]

theorem foreign_unchanged (h : (tableOf lease).owner ≠ some owner) :
    (tableOf lease).release owner = tableOf lease ∧
      ∀ ts, (tableOf lease).setLastDiscovery owner ts = tableOf lease := by
  cases lease with
  | none => exact ⟨rfl, fun _ => rfl⟩
  | some l =>
      have hne : l.owner ≠ owner := by simpa [tableOf, LeaseTable.owner] using h
      constructor
      · simp [LeaseTable.release, tableOf, hne]
      · intro ts
        simp [LeaseTable.setLastDiscovery, tableOf, hne]

/-- The row is this box's, with the heartbeat of this time. -/
def Held (a : String) (t : ℤ) (table : LeaseTable) : Prop :=
  ∃ l, table = tableOf (some l) ∧ l.owner = a ∧ l.heartbeat = t

/-- This event takes the lease from `a`, whose heartbeat is of time `t`. -/
def Steals (a : String) (t : ℤ) (e : LeaseEvent) (table : LeaseTable) : Prop :=
  ∃ b ttl, e.stmt = .acquireOrRenew b ttl ∧ b ≠ a ∧ e.taker table = some b ∧
    t < e.now - ttl

theorem held_of_taker {e : LeaseEvent} (h : e.taker (tableOf lease) = some a) :
    Held a e.now (e.exec (tableOf lease)) := by
  unfold LeaseEvent.taker at h
  unfold LeaseEvent.exec
  cases hstmt : e.stmt with
  | acquireOrRenew b ttl =>
      rw [hstmt] at h
      simp only [acquireOrRenew_tableOf] at h ⊢
      split_ifs at h with hok
      obtain rfl := Option.some.inj h
      unfold acquireOrRenewLease at hok ⊢
      cases lease with
      | none => exact ⟨_, rfl, rfl, rfl⟩
      | some l =>
          dsimp only at hok ⊢
          split_ifs at hok ⊢
          exact ⟨_, rfl, rfl, rfl⟩
  | release _ =>
      rw [hstmt] at h
      cases h
  | setLastDiscovery _ _ =>
      rw [hstmt] at h
      cases h

/-- **One statement** that is not the owner's release or renewal: the row stays
the owner's, or is taken because its heartbeat is old. -/
theorem Held.exec {e : LeaseEvent} {table : LeaseTable} (h : Held a t table)
    (hrelease : e.stmt ≠ .release a) (hlatest : e.taker table ≠ some a) :
    Held a t (e.exec table) ∨ Steals a t e table := by
  obtain ⟨l, rfl, rfl, rfl⟩ := h
  cases hstmt : e.stmt with
  | acquireOrRenew b ttl =>
      have hexec : e.exec (tableOf (some l))
          = tableOf (acquireOrRenewLease ttl e.now b (some l)).2 := by
        unfold LeaseEvent.exec
        rw [hstmt]
        dsimp only
        rw [acquireOrRenew_tableOf]
      have htaker : e.taker (tableOf (some l))
          = if (acquireOrRenewLease ttl e.now b (some l)).1 then some b else none := by
        unfold LeaseEvent.taker
        rw [hstmt]
        dsimp only
        rw [acquireOrRenew_tableOf]
      rw [hexec]
      by_cases hown : l.owner = b
      · rw [acquireOrRenewLease_taken (.inl hown)] at htaker
        exact absurd (htaker.trans (congrArg some hown.symm)) hlatest
      · by_cases hexpired : l.Expired ttl e.now
        · rw [acquireOrRenewLease_taken (.inr hexpired)] at htaker
          exact .inr ⟨b, ttl, hstmt, Ne.symm hown, htaker, hexpired⟩
        · rw [acquireOrRenewLease_kept (not_or.mpr ⟨hown, hexpired⟩)]
          exact .inl ⟨l, rfl, rfl, rfl⟩
  | release b =>
      have hne : l.owner ≠ b := by
        rintro rfl
        exact hrelease hstmt
      refine .inl ⟨l, ?_, rfl, rfl⟩
      unfold LeaseEvent.exec
      rw [hstmt]
      dsimp only
      rw [release_tableOf]
      simp [releaseLease, hne]
  | setLastDiscovery b ts =>
      left
      unfold LeaseEvent.exec
      rw [hstmt]
      dsimp only
      rw [setLastDiscovery_tableOf]
      unfold setLastDiscoveryAt
      by_cases hown : l.owner = b
      · exact ⟨{ l with lastDiscoveryAt := some ts }, by simp [hown], rfl, rfl⟩
      · exact ⟨l, by simp [hown], rfl, rfl⟩

end Statement

/-! ## Any number of statements -/

section History

variable {a : String} {t : ℤ} {table : LeaseTable} {events : List LeaseEvent}

/-- Between a box's latest heartbeat and its release the row is the box's, or was
taken because that heartbeat was old. -/
theorem Held.after (h : Held a t table)
    (hrelease : ∀ e ∈ events, e.stmt ≠ .release a)
    (hlatest : ∀ x ∈ leaseLog table events, x.1.taker x.2 ≠ some a) :
    Held a t (tableAfter table events) ∨
      ∃ x ∈ leaseLog table events, Steals a t x.1 x.2 := by
  induction events generalizing table with
  | nil => exact .inl h
  | cons e events ih =>
      rcases h.exec (hrelease e List.mem_cons_self)
        (hlatest (e, table) List.mem_cons_self) with hheld | hsteal
      · rcases ih hheld (fun x hx => hrelease x (List.mem_cons_of_mem _ hx))
          (fun x hx => hlatest x (List.mem_cons_of_mem _ hx)) with hend | ⟨x, hx, hs⟩
        · exact .inl hend
        · exact .inr ⟨x, List.mem_cons_of_mem _ hx, hs⟩
      · exact .inr ⟨_, List.mem_cons_self, hsteal⟩

theorem mem_of_mem_leaseLog {x : LeaseEvent × LeaseTable}
    (h : x ∈ leaseLog table events) : x.1 ∈ events := by
  induction events generalizing table with
  | nil => cases h
  | cons e events ih =>
      rcases List.mem_cons.mp h with rfl | h
      · exact List.mem_cons_self
      · exact List.mem_cons_of_mem _ (ih h)

/-- What holds after any statements, of which `pre`, a heartbeat of `a` and `mid`
are all; and of the acquire of another box that comes next. -/
structure Exclusive (events : List LeaseEvent) : Prop where
  single : (tableAfter [] events).length ≤ 1
  acquired : ∀ owner ttl now,
    ((tableAfter [] events).acquireOrRenew ttl now owner).1 = true ↔
      ((tableAfter [] events).acquireOrRenew ttl now owner).2.owner = some owner
  foreign : ∀ owner, (tableAfter [] events).owner ≠ some owner →
    (tableAfter [] events).release owner = tableAfter [] events ∧
      ∀ ts, (tableAfter [] events).setLastDiscovery owner ts = tableAfter [] events
  taken : ∀ pre heartbeat mid a, events = pre ++ heartbeat :: mid →
    heartbeat.taker (tableAfter [] pre) = some a →
    (∀ e ∈ mid, e.stmt ≠ .release a) →
    (∀ x ∈ leaseLog (tableAfter [] (pre ++ [heartbeat])) mid,
      x.1.taker x.2 ≠ some a) →
    ∀ b ttl now, b ≠ a → (∀ e ∈ events, e.now ≤ now) →
      ((tableAfter [] events).acquireOrRenew ttl now b).1 = true →
      heartbeat.now < now - ttl ∨
        ∃ x ∈ leaseLog (tableAfter [] (pre ++ [heartbeat])) mid, ∃ c ttl₂,
          x.1.stmt = .acquireOrRenew c ttl₂ ∧ c ≠ a ∧ x.1.taker x.2 = some c ∧
            heartbeat.now < x.1.now - ttl₂ ∧ ttl₂ < ttl

/-- **Exclusion.** Whatever statements run, by whatever boxes, with whatever
`ttl`s: there is one row at most, an acquire succeeds for the box that then is the
owner, a box that is not changes nothing. And after a box's latest heartbeat, if it
does not release the lease, another gets it only when that heartbeat is older than
its `ttl`, or was found older than a shorter `ttl` before. -/
theorem lease_exclusion (events : List LeaseEvent) : Exclusive events := by
  obtain ⟨lease, htable⟩ := tableAfter_tableOf events none
  have htable' : tableAfter [] events = tableOf lease := htable
  constructor
  · rw [htable']
    cases lease <;> simp [tableOf]
  · intro owner ttl now
    rw [htable']
    exact acquireOrRenew_iff
  · intro owner howner
    rw [htable'] at howner ⊢
    exact foreign_unchanged howner
  · rintro pre heartbeat mid a rfl htaker hrelease hlatest b ttl now hne hnow hok
    obtain ⟨before, hbefore⟩ := tableAfter_tableOf pre none
    have hbefore' : tableAfter [] pre = tableOf before := hbefore
    rw [hbefore'] at htaker
    have hheld := held_of_taker htaker
    have hstart : tableAfter [] (pre ++ [heartbeat])
        = heartbeat.exec (tableOf before) := by
      unfold tableAfter at hbefore' ⊢
      rw [List.foldl_append, hbefore']
      rfl
    have hend : tableAfter [] (pre ++ heartbeat :: mid)
        = tableAfter (heartbeat.exec (tableOf before)) mid := by
      unfold tableAfter at hbefore' ⊢
      rw [List.foldl_append, hbefore']
      rfl
    rw [hstart] at hlatest ⊢
    rcases hheld.after hrelease hlatest with hstill | ⟨x, hx, c, ttl₂, hstmt, hc, hs, hold⟩
    · -- the row is still the box's, so the other one found it expired
      obtain ⟨l, hl, howner, hheartbeat⟩ := hstill
      rw [hend, hl, acquireOrRenew_tableOf] at hok
      by_cases hexpired : l.Expired ttl now
      · left
        rw [← hheartbeat]
        exact hexpired
      · rw [acquireOrRenewLease_kept] at hok
        · cases hok
        · rintro (heq | hexp)
          · exact hne (heq.symm.trans howner)
          · exact hexpired hexp
    · by_cases hshort : ttl₂ < ttl
      · exact .inr ⟨x, hx, c, ttl₂, hstmt, hc, hs, hold, hshort⟩
      · left
        have htime := hnow x.1 (List.mem_append_right _
          (List.mem_cons_of_mem _ (mem_of_mem_leaseLog hx)))
        omega

/-- Box `c` finds the heartbeat of `a` older than its five seconds and gives the
lease back; box `b`, which would have waited for a minute, gets it at once. -/
theorem lease_taken_early :
    let events : List LeaseEvent := [⟨0, .acquireOrRenew "a" 60⟩,
      ⟨10, .acquireOrRenew "c" 5⟩, ⟨10, .release "c"⟩]
    (events.map (·.now)).Pairwise (· ≤ ·) ∧
      (⟨0, .acquireOrRenew "a" 60⟩ : LeaseEvent).taker [] = some "a" ∧
      (∀ e ∈ events, e.stmt ≠ .release "a") ∧
      ((tableAfter [] events).acquireOrRenew 60 10 "b").1 = true ∧
      ¬ ((0 : ℤ) < 10 - 60) := by
  decide

end History

end VideoStorage.MediaIndex
