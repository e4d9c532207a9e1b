import VideoStorage.Foundation.Locking

/-!
# An append log read by cursor

Sequence values are given out in the order of the inserts, while entries become
visible in the order of the commits. The two orders agree when every body takes
the log lock before it inserts (`Disciplined`): then the committed numbers
increase along the log and an open transaction's numbers lie above all of them
(`reachable_ordered`). A reader that asks for the entries above the last number
it saw therefore gets exactly the rest of the log (`Issued.above_eq_drop`).
-/

namespace VideoStorage.Foundation

open Relation (ReflTransGen)

/-! ## Numbered lists -/

section Issued

variable {E : Type} {n m : ℕ} {xs ys : List (ℕ × E)}

/-- Numbers drawn from a sequence that is at `n`: increasing, from 1 on. -/
structure Issued (n : ℕ) (xs : List (ℕ × E)) : Prop where
  sorted : xs.Pairwise (·.1 < ·.1)
  range : ∀ x ∈ xs, 0 < x.1 ∧ x.1 < n

theorem issued_nil (n : ℕ) : Issued n ([] : List (ℕ × E)) :=
  ⟨.nil, fun _ h => absurd h List.not_mem_nil⟩

theorem Issued.mono (h : Issued n xs) (hnm : n ≤ m) : Issued m xs :=
  ⟨h.sorted, fun x hx => ⟨(h.range x hx).1, Nat.lt_of_lt_of_le (h.range x hx).2 hnm⟩⟩

theorem Issued.snoc (h : Issued n xs) (hn : 0 < n) (e : E) :
    Issued (n + 1) (xs ++ [(n, e)]) where
  sorted := by
    refine List.pairwise_append.mpr ⟨h.sorted, List.pairwise_singleton _ _, ?_⟩
    rintro x hx _ (_ | ⟨_, ⟨⟩⟩)
    exact (h.range x hx).2
  range x hx := by
    rcases List.mem_append.mp hx with hx | hx
    · exact ⟨(h.range x hx).1, Nat.lt_succ_of_lt (h.range x hx).2⟩
    · rw [List.mem_singleton.mp hx]
      exact ⟨hn, n.lt_succ_self⟩

theorem Issued.left (h : Issued n (xs ++ ys)) : Issued n xs :=
  ⟨(List.pairwise_append.mp h.sorted).1,
    fun x hx => h.range x (List.mem_append_left _ hx)⟩

theorem Issued.lt_of_append (h : Issued n (xs ++ ys)) {x y : ℕ × E}
    (hx : x ∈ xs) (hy : y ∈ ys) : x.1 < y.1 :=
  (List.pairwise_append.mp h.sorted).2.2 x hx y hy

/-- The number a reader of `xs` asks to go on from: its last one, or 0. -/
def lastNumber (xs : List (ℕ × E)) : ℕ := (xs.getLast?.map (·.1)).getD 0

theorem Issued.le_lastNumber (h : Issued n xs) {x : ℕ × E} (hx : x ∈ xs) :
    x.1 ≤ lastNumber xs := by
  rcases List.eq_nil_or_concat xs with rfl | ⟨ys, y, rfl⟩
  · cases hx
  · rw [List.concat_eq_append] at *
    have hlast : lastNumber (ys ++ [y]) = y.1 := by simp [lastNumber]
    rw [hlast]
    rcases List.mem_append.mp hx with hx | hx
    · exact Nat.le_of_lt (h.lt_of_append hx List.mem_cons_self)
    · exact Nat.le_of_eq (congrArg _ (List.mem_singleton.mp hx))

theorem Issued.lastNumber_lt (h : Issued n (xs ++ ys)) {y : ℕ × E}
    (hy : y ∈ ys) : lastNumber xs < y.1 := by
  rcases List.eq_nil_or_concat xs with rfl | ⟨zs, z, rfl⟩
  · exact (h.range y hy).1
  · rw [List.concat_eq_append] at *
    have hlast : lastNumber (zs ++ [z]) = z.1 := by simp [lastNumber]
    rw [hlast]
    exact h.lt_of_append (by simp) hy

/-- **Reading by cursor.** Past the numbers of a first part, a numbered list has
exactly its second part. -/
theorem Issued.above_eq_drop (h : Issued n (xs ++ ys)) :
    (xs ++ ys).filter (fun x => lastNumber xs < x.1) = ys := by
  rw [List.filter_append]
  have hxs : xs.filter (fun x => lastNumber xs < x.1) = [] := by
    refine List.filter_eq_nil_iff.mpr fun x hx => ?_
    simpa using h.left.le_lastNumber hx
  have hys : ys.filter (fun x => lastNumber xs < x.1) = ys :=
    List.filter_eq_self.mpr fun y hy => by simpa using h.lastNumber_lt hy
  rw [hxs, hys, List.nil_append]

end Issued

/-! ## Bodies that lock before they append -/

section Discipline

variable {D : Schema} {α β : Type}

/-- `Disciplined Q held p`: run by a transaction that holds the log lock iff
`held`, the body `p` inserts log entries only while it holds the lock, and only
entries in `Q`. -/
def Disciplined (Q : D.Event → Prop) : Bool → Txn D α → Prop
  | _, .ret _ => True
  | held, .call (.insertLog e) k => held ∧ Q e ∧ ∀ n, Disciplined Q held (k n)
  | _, .call .lockLog k => Disciplined Q true (k ())
  | held, .call (.insertIfAbsent _ _) k => ∀ b, Disciplined Q held (k b)
  | held, .call (.selectForUpdate _) k => ∀ r, Disciplined Q held (k r)
  | held, .call (.update _ _) k => Disciplined Q held (k ())
  | held, .call .markLog k => Disciplined Q held (k ())
  | held, .call (.work _) k => ∀ r, Disciplined Q held (k r)

variable {Q : D.Event → Prop}

theorem Disciplined.lock {held : Bool} {p : Txn D α} (h : Disciplined Q held p) :
    Disciplined Q true p := by
  induction p generalizing held with
  | ret a => trivial
  | call s k ih =>
      cases s with
      | insertIfAbsent key row => exact fun b => ih b (h b)
      | selectForUpdate key => exact fun r => ih r (h r)
      | update key f => exact ih () h
      | lockLog => exact h
      | markLog => exact ih () h
      | insertLog e => exact ⟨rfl, h.2.1, fun n => ih n (h.2.2 n)⟩
      | work w => exact fun r => ih r (h r)

theorem Disciplined.bind {held : Bool} {p : Txn D α} {f : α → Txn D β}
    (h : Disciplined Q held p) (hf : ∀ a, Disciplined Q held (f a)) :
    Disciplined Q held (p.bind f) := by
  induction p generalizing held with
  | ret a => exact hf a
  | call s k ih =>
      cases s with
      | insertIfAbsent key row => exact fun b => ih b (h b) hf
      | selectForUpdate key => exact fun r => ih r (h r) hf
      | update key f => exact ih () h hf
      | lockLog => exact ih () h fun a => (hf a).lock
      | markLog => exact ih () h hf
      | insertLog e => exact ⟨h.1, h.2.1, fun n => ih n (h.2.2 n) hf⟩
      | work w => exact fun r => ih r (h r) hf

theorem disciplined_insertIfAbsent (held : Bool) (k : D.Key) (r : D.Row k) :
    Disciplined Q held (insertIfAbsent k r) := fun _ => trivial

theorem disciplined_selectForUpdate (held : Bool) (k : D.Key) :
    Disciplined Q held (selectForUpdate k) := fun _ => trivial

theorem disciplined_update (held : Bool) (k : D.Key)
    (f : D.Row k → D.Row k) : Disciplined Q held (update k f) := trivial

theorem disciplined_work (held : Bool) (w : D.Work) :
    Disciplined Q held (work w) := fun _ => trivial

variable {st : D.Store} {ans : Oracle D} {c : ℕ} {l l' : Loc D}

/-- One statement of a disciplined body: it leaves a disciplined rest, and it
gets a number only under the lock. -/
theorem Disciplined.exec {s : Stmt D} {k : s.Reply → Txn D α} {r : s.Reply}
    (h : Disciplined Q l.logLock (.call s k))
    (he : exec st ans c l s = .ok (r, l')) :
    Disciplined Q l'.logLock (k r) ∧
      (l'.pend = l.pend ∨ (l'.logLock ∧ s.draws = 1 ∧
        ∃ e, Q e ∧ l'.pend = l.pend ++ [(c, e)])) := by
  cases s with
  | insertIfAbsent key row =>
      rcases exec_insertIfAbsent.mp he with ⟨-, -, rfl⟩ | ⟨-, -, -, rfl⟩
      · exact ⟨h r, .inl rfl⟩
      · exact ⟨h r, .inl rfl⟩
  | selectForUpdate key =>
      obtain ⟨-, rfl⟩ := exec_selectForUpdate.mp he
      exact ⟨h r, .inl rfl⟩
  | update key f =>
      obtain ⟨row, -, rfl⟩ := exec_update.mp he
      exact ⟨h, .inl rfl⟩
  | lockLog =>
      cases he
      exact ⟨h, .inl rfl⟩
  | markLog =>
      cases he
      exact ⟨h, .inl rfl⟩
  | insertLog e =>
      obtain ⟨-, -, -, rfl⟩ := exec_insertLog.mp he
      exact ⟨h.2.2 r, .inr ⟨h.1, rfl, e, h.2.1, rfl⟩⟩
  | work w =>
      cases he
      exact ⟨h _, .inl rfl⟩

end Discipline

/-! ## The log of a running system -/

section System

variable {D : Schema} {α : Type} {Q : D.Event → Prop} {P : Txn D α → Prop}
  {G : D.Store → Txn D α → Prop} {st₀ : D.Store} {s s' : Sys D α}

/-- Committed numbers increase, and the numbers an open transaction holds back
come after all of them. -/
structure Ordered (Q : D.Event → Prop) (s : Sys D α) : Prop where
  seq : 0 < s.seq
  log : Issued s.seq s.log
  events : ∀ x ∈ s.log, Q x.2
  rest : ∀ t o, s.txs t = some o → Disciplined Q o.loc.logLock o.rest
  held : ∀ t o, s.txs t = some o → o.loc.pend ≠ [] → o.loc.logLock
  pend : ∀ t o, s.txs t = some o → Issued s.seq (s.log ++ o.loc.pend)
  pendEvents : ∀ t o, s.txs t = some o → ∀ x ∈ o.loc.pend, Q x.2

theorem ordered_init (st₀ : D.Store) : Ordered Q ({ store := st₀ } : Sys D α) where
  seq := Nat.zero_lt_one
  log := issued_nil 1
  events x hx := absurd hx List.not_mem_nil
  rest t o h := by cases h
  held t o h := by cases h
  pend t o h := by cases h
  pendEvents t o h := by cases h

theorem Ordered.begin (h : Ordered Q s) (t : ℕ) {p : Txn D α}
    (hp : Disciplined Q false p) : Ordered Q (s.begin t p) where
  seq := h.seq
  log := h.log
  events := h.events
  rest u o ho := by
    rcases setTx_cases ho with ⟨rfl, ⟨⟩⟩ | ⟨-, ho⟩
    · exact hp
    · exact h.rest u o ho
  held u o ho hne := by
    rcases setTx_cases ho with ⟨rfl, ⟨⟩⟩ | ⟨-, ho⟩
    · exact absurd rfl hne
    · exact h.held u o ho hne
  pend u o ho := by
    rcases setTx_cases ho with ⟨rfl, ⟨⟩⟩ | ⟨-, ho⟩
    · show Issued s.seq (s.log ++ [])
      rw [List.append_nil]
      exact h.log
    · exact h.pend u o ho
  pendEvents u o ho x hx := by
    rcases setTx_cases ho with ⟨rfl, ⟨⟩⟩ | ⟨-, ho⟩
    · exact absurd hx List.not_mem_nil
    · exact h.pendEvents u o ho x hx

theorem Ordered.advance (h : Ordered Q s) {t : ℕ} {o : Open D α} {st : Stmt D}
    {k : st.Reply → Txn D α} {ans : Oracle D} {r : st.Reply} {l : Loc D}
    (ho : s.txs t = some o) (hrest : o.rest = .call st k)
    (hexec : exec s.store ans s.seq o.loc st = .ok (r, l)) :
    Ordered Q (s.advance t o (k r) l st.draws) := by
  have hdisc : Disciplined Q o.loc.logLock (.call st k) :=
    hrest ▸ h.rest t o ho
  obtain ⟨hk, hpend⟩ := hdisc.exec hexec
  have hseq : s.seq ≤ s.seq + st.draws := Nat.le_add_right _ _
  refine ⟨Nat.lt_of_lt_of_le h.seq hseq, h.log.mono hseq, h.events, ?_, ?_, ?_,
    ?_⟩
  · intro u o' ho'
    rcases setTx_cases ho' with ⟨rfl, ⟨⟩⟩ | ⟨-, ho'⟩
    · exact hk
    · exact h.rest u o' ho'
  · intro u o' ho' hne
    rcases setTx_cases ho' with ⟨rfl, ⟨⟩⟩ | ⟨-, ho'⟩
    -- numbers are only drawn under the lock
    · rcases hpend with e | ⟨hl, -⟩
      · exact (exec_grows hexec).logLock (h.held _ o ho (e ▸ hne))
      · exact hl
    · exact h.held u o' ho' hne
  · intro u o' ho'
    rcases setTx_cases ho' with ⟨rfl, ⟨⟩⟩ | ⟨-, ho'⟩
    · show Issued (s.seq + st.draws) (s.log ++ l.pend)
      rcases hpend with e | ⟨-, hd, ev, -, e⟩
      · rw [e]
        exact (h.pend _ o ho).mono hseq
      · rw [e, hd, ← List.append_assoc]
        exact (h.pend _ o ho).snoc h.seq ev
    · exact (h.pend u o' ho').mono hseq
  · intro u o' ho' x hx
    rcases setTx_cases ho' with ⟨rfl, ⟨⟩⟩ | ⟨-, ho'⟩
    · change x ∈ l.pend at hx
      rcases hpend with e | ⟨-, -, ev, hev, e⟩
      · exact h.pendEvents _ o ho x (e ▸ hx)
      · rw [e, List.mem_append, List.mem_singleton] at hx
        rcases hx with hx | rfl
        · exact h.pendEvents _ o ho x hx
        · exact hev
    · exact h.pendEvents u o' ho' x hx

/-- The committed entries of one transaction push nobody else's numbers out of
order: whoever holds numbers holds the lock. -/
theorem Ordered.commit (h : Ordered Q s) (hl : Locked P G st₀ s) {t : ℕ}
    {o : Open D α} (a : α) (ho : s.txs t = some o) :
    Ordered Q (s.commit t o a) := by
  refine ⟨h.seq, h.pend t o ho, ?_, ?_, ?_, ?_, ?_⟩
  · intro x hx
    rcases List.mem_append.mp hx with hx | hx
    · exact h.events x hx
    · exact h.pendEvents t o ho x hx
  · intro u o' ho'
    rcases setTx_cases ho' with ⟨-, ⟨⟩⟩ | ⟨-, ho'⟩
    exact h.rest u o' ho'
  · intro u o' ho'
    rcases setTx_cases ho' with ⟨-, ⟨⟩⟩ | ⟨-, ho'⟩
    exact h.held u o' ho'
  · intro u o' ho'
    rcases setTx_cases ho' with ⟨-, ⟨⟩⟩ | ⟨hu, ho'⟩
    show Issued s.seq ((s.log ++ o.loc.pend) ++ o'.loc.pend)
    by_cases hu' : o'.loc.pend = []
    · rw [hu', List.append_nil]
      exact h.pend t o ho
    · have ht : o.loc.pend = [] := by
        by_contra hne
        exact (hl.apart t u o o' hu.symm ho ho').log
          ⟨h.held t o ho hne, h.held u o' ho' hu'⟩
      rw [ht, List.append_nil]
      exact h.pend u o' ho'
  · intro u o' ho'
    rcases setTx_cases ho' with ⟨-, ⟨⟩⟩ | ⟨-, ho'⟩
    exact h.pendEvents u o' ho'

theorem Ordered.abort (h : Ordered Q s) (t n : ℕ) : Ordered Q (s.abort t n) := by
  have hseq : s.seq ≤ s.seq + n := Nat.le_add_right _ _
  refine ⟨Nat.lt_of_lt_of_le h.seq hseq, h.log.mono hseq, h.events, ?_, ?_, ?_,
    ?_⟩ <;> intro u o ho <;> rcases setTx_cases ho with ⟨-, ⟨⟩⟩ | ⟨-, ho⟩
  · exact h.rest u o ho
  · exact h.held u o ho
  · exact (h.pend u o ho).mono hseq
  · exact h.pendEvents u o ho

theorem Ordered.step (h : Ordered Q s) (hl : Locked P G st₀ s)
    (hP : ∀ p, P p → Disciplined Q false p) (hstep : Step P G s s') :
    Ordered Q s' := by
  cases hstep with
  | begin t p _ hp => exact h.begin t (hP p hp)
  | exec t o st k ans r l ho hrest hexec _ => exact h.advance ho hrest hexec
  | commit t o a ho _ _ => exact h.commit hl a ho
  | abort t n => exact h.abort t n

theorem reachable_ordered (hP : ∀ p, P p → Disciplined Q false p)
    (hrun : ReflTransGen (Step P G) { store := st₀ } s) :
    Locked P G st₀ s ∧ Ordered Q s := by
  refine run_invariant (fun s => Locked P G st₀ s ∧ Ordered Q s) ?_ hrun
    ⟨locked_init st₀, ordered_init st₀⟩
  intro a b h hstep
  exact ⟨h.1.step hstep, h.2.step h.1 hP hstep⟩

/-- Only a commit changes the store or the log. -/
theorem Step.eq_or_commit (h : Step P G s s') :
    (s'.store = s.store ∧ s'.log = s.log ∧ s'.commits = s.commits) ∨
      ∃ t o a, s.txs t = some o ∧ o.rest = .ret a ∧ G s.store o.body ∧
        s' = s.commit t o a := by
  cases h with
  | begin => exact .inl ⟨rfl, rfl, rfl⟩
  | exec => exact .inl ⟨rfl, rfl, rfl⟩
  | commit t o a ho hrest hg => exact .inr ⟨t, o, a, ho, hrest, hg, rfl⟩
  | abort => exact .inl ⟨rfl, rfl, rfl⟩

theorem Step.log_prefix (h : Step P G s s') : s.log <+: s'.log := by
  rcases h.eq_or_commit with ⟨-, e, -⟩ | ⟨t, o, a, -, -, -, rfl⟩
  · exact e ▸ List.prefix_refl _
  · exact List.prefix_append _ _

end System

end VideoStorage.Foundation
