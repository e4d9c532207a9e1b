import VideoStorage.Foundation.Locking

/-!
# A body by itself

`perform` runs a transaction body with nobody else about. What it does is what
`Eval` says of the body (`perform_eval`), and a body that succeeds so is a run
of the system with all its transactions (`alone_run`). `Performs` is total
correctness for such bodies, with a rule for each statement and one for `bind`.
-/

namespace VideoStorage.Foundation

variable {D : Schema} {α β : Type} {P : Txn D α → Prop}
  {G : D.Store → Txn D α → Prop} {s : Sys D α}

/-! ## Running a body -/

variable {ε X : Type} {p : Txn D α} {a : α} {c c' : ℕ} {l l' : Loc D} {x x' : X}

/-- Run a body to its end with nobody else about: `act` answers the statements
outside the tables and the log from a state of its own. -/
def perform (fault : Fault → ε)
    (act : (w : D.Work) → X → Except ε (D.Answer w × X)) (ans : Oracle D)
    (st : D.Store) :
    Txn D α → ℕ → Loc D → X → Except ε (α × ℕ × Loc D × X)
  | .ret a, c, l, x => .ok (a, c, l, x)
  | .call (.work w) k, c, l, x =>
      match act w x with
      | .ok (r, x') => perform fault act ans st (k r) c l x'
      | .error e => .error e
  | .call s k, c, l, x =>
      match exec st ans c l s with
      | .ok (r, l') => perform fault act ans st (k r) (c + s.draws) l' x
      | .error f => .error (fault f)

variable {fault : Fault → ε} {act : (w : D.Work) → X → Except ε (D.Answer w × X)}
  {ans : Oracle D}

/-- What `perform` does with its first statement. -/
theorem perform_call {st : D.Store} {s₁ : Stmt D} {k : s₁.Reply → Txn D α}
    (h : perform fault act ans st (.call s₁ k) c l x = .ok (a, c', l', x')) :
    ∃ ans' r l₁ x₁, exec st ans' c l s₁ = .ok (r, l₁) ∧
      perform fault act ans st (k r) (c + s₁.draws) l₁ x₁
        = .ok (a, c', l', x') := by
  cases s₁ with
  | work w =>
      simp only [perform] at h
      split at h
      · rename_i r x₁ _
        classical
        refine ⟨Function.update ans w r, r, l, x₁, ?_, h⟩
        simp only [exec, Function.update_self]
      · cases h
  | insertIfAbsent key row =>
      simp only [perform] at h
      split at h
      · exact ⟨ans, _, _, x, ‹_›, h⟩
      · cases h
  | selectForUpdate key =>
      simp only [perform] at h
      split at h
      · exact ⟨ans, _, _, x, ‹_›, h⟩
      · cases h
  | update key f =>
      simp only [perform] at h
      split at h
      · exact ⟨ans, _, _, x, ‹_›, h⟩
      · cases h
  | lockLog => exact ⟨ans, (), _, x, rfl, h⟩
  | markLog => exact ⟨ans, (), _, x, rfl, h⟩
  | insertLog e =>
      simp only [perform] at h
      split at h
      · exact ⟨ans, _, _, x, ‹_›, h⟩
      · cases h

theorem perform_eval {st : D.Store}
    (h : perform fault act ans st p c l x = .ok (a, c', l', x')) :
    Eval st p l a l' := by
  induction p generalizing c l x with
  | ret b =>
      cases h
      exact .ret _ _
  | call s₁ k ih =>
      obtain ⟨ans', r, l₁, x₁, hexec, hk⟩ := perform_call h
      exact .call hexec (ih r hk)

theorem perform_bind {st : D.Store} {f : α → Txn D β} :
    perform fault act ans st (p.bind f) c l x
      = (perform fault act ans st p c l x).bind fun r =>
          perform fault act ans st (f r.1) r.2.1 r.2.2.1 r.2.2.2 := by
  induction p generalizing c l x with
  | ret b => rfl
  | call s₁ k ih =>
      rw [Prog.call_bind]
      cases s₁ with
      | work w =>
          simp only [perform]
          cases act w x with
          | error e => rfl
          | ok r => exact ih _
      | _ =>
          simp only [perform]
          split
          · exact ih _
          · rfl

theorem perform_exec {s₁ : Stmt D} {f : s₁.Reply → Txn D α} {r : s₁.Reply}
    (hwork : ∀ w, s₁ ≠ .work w) (h : exec st ans c l s₁ = .ok (r, l')) :
    perform fault act ans st (.call s₁ f) c l x
      = perform fault act ans st (f r) (c + s₁.draws) l' x := by
  cases s₁ with
  | work w => exact absurd rfl (hwork w)
  | _ => simp only [perform, h]

/-- The system after one more body ran from beginning to end with no other
transaction open. -/
def Sys.alone (s : Sys D α) (p : Txn D α) (a : α) (c : ℕ) (l : Loc D) :
    Sys D α where
  store := l.view s.store
  log := s.log ++ l.pend
  seq := c
  commits := s.commits ++ [⟨p, a, l⟩]

theorem perform_steps {t : ℕ} {body : Txn D α}
    (h : perform fault act ans s.store p s.seq l x = .ok (a, c', l', x'))
    (ht : s.txs = fun u => if u = t then some ⟨body, p, l⟩ else none) :
    Relation.ReflTransGen (Step P G) s { s with
      seq := c'
      txs := fun u => if u = t then some ⟨body, .ret a, l'⟩ else none } := by
  induction p generalizing s l x with
  | ret b =>
      cases h
      rw [← ht]
  | call s₁ k ih =>
      obtain ⟨ans', r, l₁, x₁, hexec, hk⟩ := perform_call h
      have ho : s.txs t = some ⟨body, .call s₁ k, l⟩ := by
        rw [ht]
        exact if_pos rfl
      have hfree : ∀ u o', u ≠ t → s.txs u = some o' → l₁.Apart o'.loc := by
        intro u o' hu ho'
        rw [ht] at ho'
        simp [hu] at ho'
      refine .head (.exec t _ s₁ k ans' r l₁ ho rfl hexec hfree) ?_
      refine ih (s := s.advance t _ (k r) l₁ s₁.draws) r hk ?_
      funext u
      by_cases hu : u = t
      · subst hu
        simp [Sys.advance, Sys.setTx]
      · simp [Sys.advance, Sys.setTx, ht, hu]

/-- A body that succeeds by itself is a run of the system. -/
theorem alone_run (hidle : s.txs = fun _ => none) (hp : P p) (hg : G s.store p)
    (h : perform fault act ans s.store p s.seq {} x = .ok (a, c', l', x')) :
    Relation.ReflTransGen (Step P G) s (s.alone p a c' l') := by
  have hbegin : Step P G s (s.begin 0 p) := .begin 0 p (by rw [hidle]) hp
  have htxs : (s.begin 0 p).txs
      = fun u => if u = 0 then some ⟨p, p, {}⟩ else none := by
    funext u
    simp [Sys.begin, Sys.setTx, hidle, Function.update_apply]
  have hsteps := perform_steps (P := P) (G := G) (s := s.begin 0 p) h htxs
  refine (Relation.ReflTransGen.head hbegin hsteps).tail ?_
  have hcommit := Step.commit (P := P) (G := G)
    (s := { s.begin 0 p with
      seq := c'
      txs := fun u => if u = 0 then some ⟨p, .ret a, l'⟩ else none })
    0 ⟨p, .ret a, l'⟩ a rfl rfl hg
  convert hcommit using 1
  simp only [Sys.alone, Sys.commit, Sys.setTx, Sys.begin, Sys.mk.injEq,
    true_and, and_true]
  funext u
  by_cases hu : u = 0
  · subst hu
    simp
  · simp [hu]

/-! ## The same body elsewhere

A body that looks at no number of the log does the same wherever its view of the
store is the same: from the store itself or on top of what its transaction wrote
before, and wherever the sequence is.
-/

/-- What the body does does not depend on the numbers its log entries get. -/
def Numberless : Txn D α → Prop
  | .ret _ => True
  | .call (.insertLog _) k => ∀ n, Numberless (k n) ∧ ∀ m, k m = k n
  | .call (.insertIfAbsent _ _) k => ∀ b, Numberless (k b)
  | .call (.selectForUpdate _) k => ∀ r, Numberless (k r)
  | .call (.update _ _) k => Numberless (k ())
  | .call .lockLog k => Numberless (k ())
  | .call .markLog k => Numberless (k ())
  | .call (.work _) k => ∀ r, Numberless (k r)

theorem Numberless.bind {f : α → Txn D β} (h : Numberless p)
    (hf : ∀ a, Numberless (f a)) : Numberless (p.bind f) := by
  induction p with
  | ret a => exact hf a
  | call s k ih =>
      cases s with
      | insertIfAbsent key row => exact fun b => ih b (h b)
      | selectForUpdate key => exact fun r => ih r (h r)
      | update key f => exact ih () h
      | lockLog => exact ih () h
      | markLog => exact ih () h
      | insertLog e =>
          exact fun n => ⟨ih n (h n).1, fun m => congrArg (Prog.bind · f) ((h n).2 m)⟩
      | work w => exact fun r => ih r (h r)

/-- From `l` to `l'` a transaction did what another did from `l₂` to `l₂'`. -/
structure Loc.SameEffect (l l' l₂ l₂' : Loc D) : Prop where
  writes : ∃ ws, l'.writes = l.writes ++ ws ∧ l₂'.writes = l₂.writes ++ ws
  pend : ∃ es es₂, l'.pend = l.pend ++ es ∧ l₂'.pend = l₂.pend ++ es₂ ∧
    es₂.map Prod.snd = es.map Prod.snd
  marked : l'.marked → l₂'.marked

namespace Loc.SameEffect

variable {st st₂ : D.Store} {l₂ l₂' l₁ l₃ : Loc D}

theorem refl (hmarked : l.marked → l₂.marked) : SameEffect l l l₂ l₂ :=
  ⟨⟨[], (List.append_nil _).symm, (List.append_nil _).symm⟩,
    ⟨[], [], (List.append_nil _).symm, (List.append_nil _).symm, rfl⟩, hmarked⟩

theorem trans (h : SameEffect l l₁ l₂ l₃) (h' : SameEffect l₁ l' l₃ l₂') :
    SameEffect l l' l₂ l₂' := by
  obtain ⟨ws, hw, hw₂⟩ := h.writes
  obtain ⟨ws', hw', hw₂'⟩ := h'.writes
  obtain ⟨es, es₂, he, he₂, hes⟩ := h.pend
  obtain ⟨es', es₂', he', he₂', hes'⟩ := h'.pend
  refine ⟨⟨ws ++ ws', ?_, ?_⟩, ⟨es ++ es', es₂ ++ es₂', ?_, ?_, ?_⟩, h'.marked⟩
  · rw [hw', hw, List.append_assoc]
  · rw [hw₂', hw₂, List.append_assoc]
  · rw [he', he, List.append_assoc]
  · rw [he₂', he₂, List.append_assoc]
  · rw [List.map_append, List.map_append, hes, hes']

theorem view (h : SameEffect l l' l₂ l₂') (hview : l₂.view st₂ = l.view st) :
    l₂'.view st₂ = l'.view st := by
  obtain ⟨ws, hw, hw₂⟩ := h.writes
  unfold Loc.view at hview ⊢
  rw [hw, hw₂, Schema.applyWrites_append, Schema.applyWrites_append, hview]

theorem write (hmarked : l.marked → l₂.marked) {k : D.Key} (r : D.Row k) :
    SameEffect l (l.write k r) l₂ (l₂.write k r) :=
  ⟨⟨[⟨k, r⟩], rfl, rfl⟩,
    ⟨[], [], (List.append_nil _).symm, (List.append_nil _).symm, rfl⟩, hmarked⟩

end Loc.SameEffect

section Elsewhere

variable {st st₂ : D.Store} {l₂ : Loc D}

/-- One statement elsewhere: only a number may differ in its answer. -/
theorem exec_elsewhere {s₁ : Stmt D} {r : s₁.Reply}
    (hview : l₂.view st₂ = l.view st) (hmarked : l.marked → l₂.marked)
    (h : exec st ans c l s₁ = .ok (r, l')) (c₂ : ℕ) :
    ∃ r₂ l₂', exec st₂ ans c₂ l₂ s₁ = .ok (r₂, l₂') ∧
      ((∀ e, s₁ ≠ .insertLog e) → r₂ = r) ∧ Loc.SameEffect l l' l₂ l₂' := by
  cases s₁ with
  | insertIfAbsent k row =>
      rcases exec_insertIfAbsent.mp h with ⟨hp, rfl, rfl⟩ | ⟨hp, hpar, rfl, rfl⟩
      · exact ⟨false, l₂, exec_insertIfAbsent.mpr (.inl ⟨hview ▸ hp, rfl, rfl⟩),
          fun _ => rfl, .refl hmarked⟩
      · exact ⟨true, l₂.write k row,
          exec_insertIfAbsent.mpr (.inr ⟨hview ▸ hp, hview ▸ hpar, rfl, rfl⟩),
          fun _ => rfl, .write hmarked row⟩
  | selectForUpdate k =>
      obtain ⟨hrow, rfl⟩ := exec_selectForUpdate.mp h
      exact ⟨r, l₂.lock k, exec_selectForUpdate.mpr ⟨hview ▸ hrow, rfl⟩,
        fun _ => rfl, (Loc.SameEffect.refl hmarked).writes,
        (Loc.SameEffect.refl hmarked).pend, hmarked⟩
  | update k f =>
      obtain ⟨row, hrow, rfl⟩ := exec_update.mp h
      exact ⟨(), l₂.write k (f row), exec_update.mpr ⟨row, hview ▸ hrow, rfl⟩,
        fun _ => rfl, .write hmarked (f row)⟩
  | lockLog =>
      cases h
      exact ⟨(), _, rfl, fun _ => rfl, (Loc.SameEffect.refl hmarked).writes,
        (Loc.SameEffect.refl hmarked).pend, hmarked⟩
  | markLog =>
      cases h
      exact ⟨(), _, rfl, fun _ => rfl, (Loc.SameEffect.refl hmarked).writes,
        (Loc.SameEffect.refl hmarked).pend, fun _ => rfl⟩
  | insertLog e =>
      obtain ⟨hm, hpar, rfl, rfl⟩ := exec_insertLog.mp h
      exact ⟨c₂, l₂.push c₂ e,
        exec_insertLog.mpr ⟨hmarked hm, hview ▸ hpar, rfl, rfl⟩,
        fun hne => absurd rfl (hne e), (Loc.SameEffect.refl hmarked).writes,
        ⟨_, _, rfl, rfl, rfl⟩, hmarked⟩
  | work w =>
      cases h
      exact ⟨ans w, l₂, rfl, fun _ => rfl, .refl hmarked⟩

/-- The rest of a numberless body is the same after an answer elsewhere. -/
theorem Numberless.next {s₁ : Stmt D} {k : s₁.Reply → Txn D α}
    {r r₂ : s₁.Reply} (h : Numberless (.call s₁ k))
    (hr : (∀ e, s₁ ≠ .insertLog e) → r₂ = r) :
    Numberless (k r) ∧ k r₂ = k r := by
  cases s₁ with
  | insertLog e => exact ⟨(h r).1, (h r).2 r₂⟩
  | insertIfAbsent key row =>
      obtain rfl := hr (fun _ => nofun)
      exact ⟨h r₂, rfl⟩
  | selectForUpdate key =>
      obtain rfl := hr (fun _ => nofun)
      exact ⟨h r₂, rfl⟩
  | update key f => exact ⟨h, rfl⟩
  | lockLog => exact ⟨h, rfl⟩
  | markLog => exact ⟨h, rfl⟩
  | work w =>
      obtain rfl := hr (fun _ => nofun)
      exact ⟨h r₂, rfl⟩

theorem perform_call_exec {s₁ : Stmt D} {k : s₁.Reply → Txn D α}
    (hwork : ∀ w, s₁ ≠ .work w)
    (h : perform fault act ans st (.call s₁ k) c l x = .ok (a, c', l', x')) :
    ∃ r l₁, exec st ans c l s₁ = .ok (r, l₁) ∧
      perform fault act ans st (k r) (c + s₁.draws) l₁ x
        = .ok (a, c', l', x') := by
  cases hexec : exec st ans c l s₁ with
  | ok r => exact ⟨r.1, r.2, rfl, (perform_exec hwork hexec).symm.trans h⟩
  | error f =>
      cases s₁ with
      | work w => exact absurd rfl (hwork w)
      | _ =>
          simp only [perform, hexec] at h
          cases h

/-- **A body elsewhere** succeeds with the same answer and the same effect. -/
theorem perform_elsewhere (hp : Numberless p) (hview : l₂.view st₂ = l.view st)
    (hmarked : l.marked → l₂.marked)
    (h : perform fault act ans st p c l x = .ok (a, c', l', x')) (c₂ : ℕ) :
    ∃ c₂' l₂', perform fault act ans st₂ p c₂ l₂ x = .ok (a, c₂', l₂', x') ∧
      Loc.SameEffect l l' l₂ l₂' := by
  induction p generalizing c l x c₂ l₂ with
  | ret b =>
      cases h
      exact ⟨c₂, l₂, rfl, .refl hmarked⟩
  | call s₁ k ih =>
      by_cases hwork : ∃ w, s₁ = .work w
      · obtain ⟨w, rfl⟩ := hwork
        simp only [perform] at h ⊢
        cases hact : act w x with
        | error e =>
            rw [hact] at h
            cases h
        | ok r =>
            rw [hact] at h
            exact ih r.1 (hp r.1) hview hmarked h c₂
      · have hnot : ∀ w, s₁ ≠ .work w := fun w hw => hwork ⟨w, hw⟩
        obtain ⟨r, l₁, hexec, hrest⟩ := perform_call_exec hnot h
        obtain ⟨r₂, l₃, hexec₂, hr, heffect⟩ :=
          exec_elsewhere hview hmarked hexec c₂
        obtain ⟨hnext, hk⟩ := hp.next hr
        obtain ⟨c₂', l₂', hrest₂, heffect₂⟩ := ih r hnext (heffect.view hview)
          heffect.marked hrest (c₂ + s₁.draws)
        refine ⟨c₂', l₂', ?_, heffect.trans heffect₂⟩
        rw [perform_exec hnot hexec₂, hk]
        exact hrest₂

end Elsewhere

/-! ## Total correctness -/

/-- The body succeeds, wherever the sequence is, and ends as `Q` says. -/
def Performs (fault : Fault → ε)
    (act : (w : D.Work) → X → Except ε (D.Answer w × X)) (ans : Oracle D)
    (st : D.Store) (p : Txn D α) (l : Loc D) (x : X)
    (Q : α → Loc D → X → Prop) : Prop :=
  ∀ c, ∃ a c' l' x', perform fault act ans st p c l x = .ok (a, c', l', x') ∧
    Q a l' x'

section Performs

variable {st : D.Store} {Q R : α → Loc D → X → Prop} {k : D.Key} {r : D.Row k}

theorem Performs.mono (h : Performs fault act ans st p l x Q)
    (hQ : ∀ a l' x', Q a l' x' → R a l' x') :
    Performs fault act ans st p l x R := by
  intro c
  obtain ⟨a, c', l', x', hp, hq⟩ := h c
  exact ⟨a, c', l', x', hp, hQ _ _ _ hq⟩

/-- What is known of every run of a body is known of the one that succeeds. -/
theorem Performs.eval (h : Performs fault act ans st p l x Q) :
    Performs fault act ans st p l x
      fun a l' x' => Q a l' x' ∧ Eval st p l a l' := by
  intro c
  obtain ⟨a, c', l', x', hp, hq⟩ := h c
  exact ⟨a, c', l', x', hp, hq, perform_eval hp⟩

theorem performs_ret (h : Q a l x) :
    Performs fault act ans st (.ret a) l x Q :=
  fun c => ⟨a, c, l, x, rfl, h⟩

theorem Performs.bind {f : α → Txn D β} {S : β → Loc D → X → Prop}
    (h : Performs fault act ans st p l x Q)
    (hf : ∀ a l' x', Q a l' x' → Performs fault act ans st (f a) l' x' S) :
    Performs fault act ans st (p.bind f) l x S := by
  intro c
  obtain ⟨a, c₁, l₁, x₁, hp, hq⟩ := h c
  obtain ⟨b, c₂, l₂, x₂, hfa, hs⟩ := hf a l₁ x₁ hq c₁
  refine ⟨b, c₂, l₂, x₂, ?_, hs⟩
  rw [perform_bind, hp]
  exact hfa

/-- A statement on the tables or the log that succeeds wherever the sequence is. -/
theorem performs_issue {s₁ : Stmt D} {Q : s₁.Reply → Loc D → X → Prop}
    (hwork : ∀ w, s₁ ≠ .work w)
    (h : ∀ c, ∃ r l', exec st ans c l s₁ = .ok (r, l') ∧ Q r l' x) :
    Performs fault act ans st (.call s₁ .ret) l x Q := by
  intro c
  obtain ⟨r, l', hexec, hq⟩ := h c
  exact ⟨r, c + s₁.draws, l', x, perform_exec hwork hexec, hq⟩

theorem performs_insertIfAbsent {Q : Bool → Loc D → X → Prop}
    (hparents : (D.parents k).all (D.present (l.view st)))
    (hold : D.present (l.view st) k → Q false l x)
    (hnew : ¬ D.present (l.view st) k → Q true (l.write k r) x) :
    Performs fault act ans st (insertIfAbsent k r) l x Q := by
  refine performs_issue (fun w => nofun) fun c => ?_
  by_cases hp : D.present (l.view st) k
  · exact ⟨false, l, exec_insertIfAbsent.mpr (.inl ⟨hp, rfl, rfl⟩), hold hp⟩
  · exact ⟨true, l.write k r,
      exec_insertIfAbsent.mpr (.inr ⟨hp, hparents, rfl, rfl⟩), hnew hp⟩

theorem performs_selectForUpdate {Q : D.Row k → Loc D → X → Prop}
    (hrow : D.get (l.view st) k = some r) (h : Q r (l.lock k) x) :
    Performs fault act ans st (selectForUpdate k) l x Q := by
  refine performs_issue (fun w => nofun) fun c => ?_
  exact ⟨r, l.lock k, exec_selectForUpdate.mpr ⟨hrow, rfl⟩, h⟩

theorem performs_update {f : D.Row k → D.Row k} {Q : Unit → Loc D → X → Prop}
    (hrow : D.get (l.view st) k = some r) (h : Q () (l.write k (f r)) x) :
    Performs fault act ans st (update k f) l x Q := by
  refine performs_issue (fun w => nofun) fun c => ?_
  exact ⟨(), l.write k (f r), exec_update.mpr ⟨r, hrow, rfl⟩, h⟩

theorem performs_lockLog {Q : Unit → Loc D → X → Prop}
    (h : Q () { l with logLock := true } x) :
    Performs fault act ans st lockLog l x Q :=
  fun c => ⟨(), c, _, x, rfl, h⟩

theorem performs_markLog {Q : Unit → Loc D → X → Prop}
    (h : Q () { l with marked := true } x) :
    Performs fault act ans st markLog l x Q :=
  fun c => ⟨(), c, _, x, rfl, h⟩

theorem performs_insertLog {e : D.Event} {Q : ℕ → Loc D → X → Prop}
    (hmarked : l.marked)
    (hparents : (D.eventParents e).all (D.present (l.view st)))
    (h : ∀ n, Q n (l.push n e) x) :
    Performs fault act ans st (insertLog e) l x Q := by
  refine performs_issue (fun w => nofun) fun c => ?_
  exact ⟨c, l.push c e, exec_insertLog.mpr ⟨hmarked, hparents, rfl, rfl⟩, h c⟩

theorem perform_work {w : D.Work} :
    perform fault act ans st (work w) c l x
      = (act w x).map fun r => (r.1, c, l, r.2) := by
  show perform fault act ans st (.call (.work w) .ret) c l x = _
  simp only [perform]
  cases act w x <;> rfl

theorem performs_work {w : D.Work} {r : D.Answer w}
    {Q : D.Answer w → Loc D → X → Prop} (hact : act w x = .ok (r, x'))
    (h : Q r l x') : Performs fault act ans st (work w) l x Q := by
  intro c
  refine ⟨r, c, l, x', ?_, h⟩
  rw [perform_work, hact]
  rfl

/-- Read a row under its lock, keep it if it matches, else update it. -/
theorem performs_compareAndUpdate {matching : D.Row k → Bool}
    {f : D.Row k → D.Row k} {keep change : α}
    (hrow : D.get (l.view st) k = some r)
    (hkeep : Q keep (l.lock k) x)
    (hchange : Q change ((l.lock k).write k (f r)) x) :
    Performs fault act ans st ((selectForUpdate k).bind fun row =>
      if matching row then .ret keep
      else (update k f).bind fun _ => .ret change) l x Q := by
  refine Performs.bind (Q := fun r' l' x' => r = r' ∧ l' = l.lock k ∧ x = x')
    (performs_selectForUpdate hrow ⟨rfl, rfl, rfl⟩) ?_
  rintro row l' x' ⟨rfl, rfl, rfl⟩
  split
  · exact performs_ret hkeep
  · refine Performs.bind
      (Q := fun _ l' x' => l' = (l.lock k).write k (f r) ∧ x = x')
      (performs_update hrow ⟨rfl, rfl⟩) ?_
    rintro - l₁ x₁ ⟨rfl, rfl⟩
    exact performs_ret hchange

end Performs

end VideoStorage.Foundation
