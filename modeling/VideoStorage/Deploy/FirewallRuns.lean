import VideoStorage.Deploy.Firewall
import VideoStorage.Foundation.FirstMatch
import VideoStorage.Foundation.Trace

/-!
# What a run of the firewall script leaves

Between any two commands the script's rules are those of runs so far, and those
without an address are there at most once (`Tidy`): so the nine deletions of a port
leave neither its `DROP` nor its jump, whatever earlier runs were cut off. A run that
completes leaves, for each port, the `ACCEPT`s of former nodes in front of its own
rules (`Applied`).
-/

namespace VideoStorage.Deploy

open Foundation Prog

/-! ## The rules of one port -/

section Ports

variable {F Net Addr : Type}

def ChainRule.at? (port : ℕ) : ChainRule F Net → Option (PortRule Net)
  | .own r => if r.dport = port then some r else none
  | .foreign _ => none

/-- The script's rules for a port, in order. -/
def Chains.at (t : Chains F Net) (port : ℕ) : List (PortRule Net) :=
  t.dockerUser.filterMap (ChainRule.at? port)

variable {t t' : Chains F Net} {port : ℕ} {r : PortRule Net}

theorem at_eq_own : t.at port = t.own.filter (·.dport = port) := by
  unfold Chains.at Chains.own
  rw [List.filter_filterMap]
  refine List.filterMap_congr fun x _ => ?_
  cases x with
  | own r =>
      by_cases h : r.dport = port <;> simp [ChainRule.at?, ChainRule.own?, Option.filter, h]
  | foreign f => rfl

theorem at_of_own (h : t'.own = t.own) : t'.at port = t.at port := by
  rw [at_eq_own, at_eq_own, h]

theorem dport_of_mem_at (h : r ∈ t.at port) : r.dport = port := by
  rw [at_eq_own] at h
  simpa using (List.mem_filter.mp h).2

theorem at?_own (h : r.dport = port) :
    ChainRule.at? port (.own r : ChainRule F Net) = some r := if_pos h

theorem at?_own_ne (h : r.dport ≠ port) :
    ChainRule.at? port (.own r : ChainRule F Net) = none := if_neg h

theorem eq_own_of_at? {x : ChainRule F Net} (h : x.at? port = some r) : x = .own r := by
  cases x with
  | own r' =>
      simp only [ChainRule.at?] at h
      split_ifs at h
      rw [Option.some.inj h]
  | foreign f => cases h

/-- Outside one port everything stays. -/
structure SameBut (port : ℕ) (t t' : Chains F Net) : Prop where
  readonly : t'.readonly = t.readonly
  foreign : t'.foreign = t.foreign
  ports : ∀ P, P ≠ port → t'.at P = t.at P

theorem SameBut.refl (port : ℕ) (t : Chains F Net) : SameBut port t t :=
  ⟨rfl, rfl, fun _ _ => rfl⟩

theorem SameBut.trans {t₁ : Chains F Net} (h : SameBut port t t₁) (h' : SameBut port t₁ t') :
    SameBut port t t' :=
  ⟨h'.readonly.trans h.readonly, h'.foreign.trans h.foreign,
    fun P hP => (h'.ports P hP).trans (h.ports P hP)⟩

end Ports

/-! ## What holds between any two commands -/

/-- The networks of the nodes that a run was given. -/
def Netfilter.Node {F Net Addr : Type} (nf : Netfilter F Net Addr) (env : FirewallEnv)
    (n : Net) : Prop :=
  ∃ s ∈ env.servers, nf.parse s = some n

/-- The rules that runs on `S` append or insert. -/
inductive Known {F Net Addr : Type} (nf : Netfilter F Net Addr) (S : FirewallEnv → Prop) :
    PortRule Net → Prop
  | accept {env : FirewallEnv} {n : Net} {port : ℕ} (hport : port ∈ clusterPorts)
      (henv : S env) (hn : nf.Node env n) : Known nf S ⟨some env.extIf, port, some n, .accept⟩
  | drop {env : FirewallEnv} {port : ℕ} (hport : port ∈ clusterPorts) (henv : S env) :
      Known nf S ⟨some env.extIf, port, none, .drop⟩
  | jump {env : FirewallEnv} (henv : S env) :
      Known nf S ⟨some env.extIf, 15432, none, .readonly⟩
  | postgres : Known nf S ⟨none, 5432, none, .readonly⟩

structure Tidy {F Net Addr : Type} [DecidableEq Net] (nf : Netfilter F Net Addr)
    (S : FirewallEnv → Prop) (t : Chains F Net) : Prop where
  known : ∀ port, ∀ r ∈ t.at port, Known nf S r
  once : ∀ port r, r.source = none → (t.at port).count r ≤ 1

section Tidy

variable {F Net Addr : Type} {nf : Netfilter F Net Addr} {S S' : FirewallEnv → Prop}
  {t t' : Chains F Net} {env : FirewallEnv} {port : ℕ} {r : PortRule Net}
  {rs : List (PortRule String)}

theorem Known.mono (h : Known nf S r) (hS : ∀ e, S e → S' e) : Known nf S' r := by
  cases h with
  | accept hport henv hn => exact .accept hport (hS _ henv) hn
  | drop hport henv => exact .drop hport (hS _ henv)
  | jump henv => exact .jump (hS _ henv)
  | postgres => exact .postgres

theorem resolve_dport {r' : PortRule String} (h : nf.resolve r' = some r) :
    r.dport = r'.dport := by
  unfold Netfilter.resolve at h
  split at h
  · rw [← Option.some.inj h]
  · obtain ⟨n, -, rfl⟩ := Option.map_eq_some_iff.mp h
    rfl

/-! ## Deleting and appending -/

/-- A rule appended. -/
def Chains.added (t : Chains F Net) (r : PortRule Net) : Chains F Net :=
  { t with dockerUser := t.dockerUser ++ [.own r] }

theorem added_part {β : Type} (part : ChainRule F Net → Option β) :
    (t.added r).dockerUser.filterMap part =
      t.dockerUser.filterMap part ++ [.own r].filterMap part :=
  List.filterMap_append

theorem added_at : (t.added r).at r.dport = t.at r.dport ++ [r] := by
  have h := added_part (t := t) (r := r) (ChainRule.at? r.dport)
  rwa [List.filterMap_cons_some (at?_own rfl)] at h

theorem added_sameBut : SameBut r.dport t (t.added r) where
  readonly := rfl
  foreign := (added_part _).trans (List.append_nil _)
  ports P hP := by
    have h := added_part (t := t) (r := r) (ChainRule.at? P)
    rw [List.filterMap_cons_none (at?_own_ne (Ne.symm hP)), List.filterMap_nil,
      List.append_nil] at h
    exact h

variable [DecidableEq Net]

theorem Tidy.mono (h : Tidy nf S t) (hS : ∀ e, S e → S' e) : Tidy nf S' t :=
  ⟨fun port r hr => (h.known port r hr).mono hS, h.once⟩

theorem Tidy.of_sublist (h : Tidy nf S t) (hat : ∀ port, (t'.at port).Sublist (t.at port)) :
    Tidy nf S t' :=
  ⟨fun port r hr => h.known port r ((hat port).subset hr),
    fun port r hr => Nat.le_trans ((hat port).count_le r) (h.once port r hr)⟩

theorem Tidy.of_dockerUser (h : Tidy nf S t) (heq : t'.dockerUser = t.dockerUser) :
    Tidy nf S t' := by
  refine h.of_sublist fun P => ?_
  unfold Chains.at
  rw [heq]

variable [DecidableEq F]

/-- A rule taken out, if it is there. -/
def Chains.without (t : Chains F Net) (r : PortRule Net) : Chains F Net :=
  { t with dockerUser := t.dockerUser.erase (.own r) }

theorem iptables_delete (r' : PortRule String) :
    (iptables nf (.delete r') t).2 = ((nf.resolve r').map t.without).getD t := by
  cases hr : nf.resolve r' with
  | none => simp [iptables, hr]
  | some r => simp [iptables, hr, Chains.without]

theorem without_at : (t.without r).at r.dport = (t.at r.dport).erase r :=
  filterMap_erase_some (at?_own rfl) fun _ => eq_own_of_at?

theorem without_sameBut : SameBut r.dport t (t.without r) where
  readonly := rfl
  foreign := filterMap_erase_none rfl
  ports _ hP := filterMap_erase_none (at?_own_ne (Ne.symm hP))

theorem without_sublist (P : ℕ) : ((t.without r).at P).Sublist (t.at P) :=
  List.erase_sublist.filterMap _

/-- The chains after a deletion have the same rules but for the one. -/
theorem deleted {r' : PortRule String} (hport : r'.dport = port) :
    SameBut port t (iptables nf (.delete r') t).2 ∧
      ((iptables nf (.delete r') t).2).at port =
        (t.at port).diff ([r'].filterMap nf.resolve) := by
  rw [iptables_delete]
  cases hr : nf.resolve r' with
  | none =>
      rw [List.filterMap_cons_none hr]
      exact ⟨.refl port t, rfl⟩
  | some r =>
      obtain rfl : r.dport = port := (resolve_dport hr).trans hport
      refine ⟨without_sameBut, ?_⟩
      rw [List.filterMap_cons_some hr, List.filterMap_nil, List.diff_cons, List.diff_nil]
      exact without_at

theorem deleted_tidy {r' : PortRule String} (h : Tidy nf S t) :
    Tidy nf S (iptables nf (.delete r') t).2 := by
  rw [iptables_delete]
  cases nf.resolve r' with
  | none => exact h
  | some r => exact h.of_sublist without_sublist

theorem meets_deleteAll (hport : ∀ r ∈ rs, r.dport = port) (h : Tidy nf S t) :
    (deleteAll rs).Meets (iptables nf) (Tidy nf S) (fun _ t' => SameBut port t t' ∧
      t'.at port = (t.at port).diff (rs.filterMap nf.resolve)) t := by
  induction rs generalizing t with
  | nil => exact meets_ret h ⟨.refl port t, rfl⟩
  | cons r rs ih =>
      have hdeleted : SameBut port t (iptables nf (.delete r) t).2 ∧
          ((iptables nf (.delete r) t).2).at port =
            (t.at port).diff ([r].filterMap nf.resolve) :=
        deleted (hport r (.head rs))
      obtain ⟨hsame, hat⟩ := hdeleted
      refine ⟨h, (ih (fun x hx => hport x (.tail r hx)) (deleted_tidy h)).mono
        (fun _ h => h) ?_⟩
      rintro - t' - ⟨hsame', hat'⟩
      refine ⟨hsame.trans hsame', ?_⟩
      rw [hat', hat, ← List.diff_append, ← List.filterMap_append]
      rfl

/-- Known rules of one port may be appended, those without an address once. -/
theorem meets_appendAll (hport : ∀ r ∈ rs, r.dport = port) (h : Tidy nf S t)
    (hknown : ∀ r ∈ rs.filterMap nf.resolve, Known nf S r)
    (honce : ∀ r, r.source = none →
      (t.at port ++ rs.filterMap nf.resolve).count r ≤ 1) :
    (appendAll rs).Meets (iptables nf) (Tidy nf S) (fun ok t' => SameBut port t t' ∧
      (ok = true → (∀ r ∈ rs, (nf.resolve r).isSome) ∧
        t'.at port = t.at port ++ rs.filterMap nf.resolve)) t := by
  induction rs generalizing t with
  | nil =>
      refine meets_ret h ⟨.refl port t, fun _ => ⟨fun r hr => absurd hr List.not_mem_nil, ?_⟩⟩
      exact (List.append_nil _).symm
  | cons r' rs ih =>
      cases hr : nf.resolve r' with
      | none =>
          have happ : iptables nf (.append r') t = (false, t) := by
            simp only [iptables, hr]
          exact meets_call h happ (meets_ret h ⟨.refl port t, nofun⟩)
      | some r =>
          obtain rfl : r.dport = port := (resolve_dport hr).trans (hport r' (.head rs))
          have happ : iptables nf (.append r') t = (true, t.added r) := by
            simp only [iptables, hr]
            rfl
          rw [List.filterMap_cons_some hr] at hknown honce
          have hat : (t.added r).at r.dport ++ rs.filterMap nf.resolve =
              t.at r.dport ++ r :: rs.filterMap nf.resolve := by
            rw [added_at, List.append_assoc]
            rfl
          have htidy : Tidy nf S (t.added r) := by
            refine ⟨fun P x hx => ?_, fun P x hx => ?_⟩
            · by_cases hP : P = r.dport
              · subst hP
                rw [added_at, List.mem_append, List.mem_singleton] at hx
                rcases hx with hx | rfl
                · exact h.known _ x hx
                · exact hknown x (.head _)
              · rw [added_sameBut.ports P hP] at hx
                exact h.known P x hx
            · by_cases hP : P = r.dport
              · subst hP
                refine Nat.le_trans ?_ (honce x hx)
                rw [← hat, List.count_append]
                exact Nat.le_add_right _ _
              · rw [added_sameBut.ports P hP]
                exact h.once P x hx
          refine meets_call h happ ((ih (fun x hx => hport x (.tail r' hx)) htidy
            (fun x hx => hknown x (.tail r hx)) (fun x hx => hat ▸ honce x hx)).mono
            (fun _ h => h) ?_)
          rintro ok t' - ⟨hsame, hok⟩
          refine ⟨added_sameBut.trans hsame, fun htrue => ?_⟩
          obtain ⟨hall, hat'⟩ := hok htrue
          refine ⟨?_, ?_⟩
          · intro x hx
            rcases List.mem_cons.mp hx with rfl | hx
            · rw [hr]
              rfl
            · exact hall x hx
          · rw [hat', hat, List.filterMap_cons_some hr]

end Tidy

/-! ## A port -/

section SetPort

variable {F Net Addr : Type} {nf : Netfilter F Net Addr} {S : FirewallEnv → Prop}
  {t : Chains F Net} {env : FirewallEnv} {port : ℕ} {r : PortRule Net}

def Netfilter.stale (nf : Netfilter F Net Addr) (env : FirewallEnv) (port : ℕ) :
    List (PortRule Net) :=
  (staleRules env port).filterMap nf.resolve

def Netfilter.fresh (nf : Netfilter F Net Addr) (env : FirewallEnv) (port : ℕ) :
    List (PortRule Net) :=
  (freshRules env port).filterMap nf.resolve

theorem staleRules_dport : ∀ r ∈ staleRules env port, r.dport = port := by
  simp [staleRules, FirewallEnv.servers]

theorem freshRules_dport : ∀ r ∈ freshRules env port, r.dport = port := by
  unfold freshRules
  split_ifs <;> simp [FirewallEnv.servers]

theorem mem_fresh : r ∈ nf.fresh env port ↔
    (∃ n, nf.Node env n ∧ r = ⟨some env.extIf, port, some n, .accept⟩) ∨
      (port = 15432 ∧ env.allowlist ≠ "") ∧ r = ⟨some env.extIf, port, none, .readonly⟩ ∨
      r = ⟨some env.extIf, port, none, .drop⟩ := by
  unfold Netfilter.fresh freshRules
  rw [List.mem_filterMap]
  constructor
  · rintro ⟨r', hr', hr⟩
    rw [List.append_assoc, List.mem_append, List.mem_append] at hr'
    rcases hr' with hr' | hr' | hr'
    · obtain ⟨s, hs, rfl⟩ := List.mem_map.mp hr'
      obtain ⟨n, hn, rfl⟩ := Option.map_eq_some_iff.mp hr
      exact .inl ⟨n, ⟨s, hs, hn⟩, rfl⟩
    · split_ifs at hr' with hjump
      · obtain rfl := List.mem_singleton.mp hr'
        exact .inr (.inl ⟨hjump, (Option.some.inj hr).symm⟩)
      · cases hr'
    · obtain rfl := List.mem_singleton.mp hr'
      exact .inr (.inr (Option.some.inj hr).symm)
  · rintro (⟨n, ⟨s, hs, hn⟩, rfl⟩ | ⟨hjump, rfl⟩ | rfl)
    · refine ⟨⟨some env.extIf, port, some s, .accept⟩, ?_, congrArg (Option.map _) hn⟩
      exact List.mem_append_left _ (List.mem_append_left _ (List.mem_map_of_mem hs))
    · refine ⟨⟨some env.extIf, port, none, .readonly⟩, ?_, rfl⟩
      rw [if_pos hjump]
      exact List.mem_append_left _ (List.mem_append_right _ (.head _))
    · exact ⟨_, List.mem_append_right _ (.head _), rfl⟩

/-- What is appended for everybody was taken out before. -/
theorem mem_stale_of_fresh (h : r ∈ nf.fresh env port) : r ∈ nf.stale env port := by
  unfold Netfilter.stale staleRules
  rw [List.mem_filterMap]
  rcases mem_fresh.mp h with ⟨n, ⟨s, hs, hn⟩, rfl⟩ | ⟨-, rfl⟩ | rfl
  · refine ⟨⟨some env.extIf, port, some s, .accept⟩, ?_, congrArg (Option.map _) hn⟩
    simp [hs]
  · exact ⟨⟨some env.extIf, port, none, .readonly⟩, by simp, rfl⟩
  · exact ⟨⟨some env.extIf, port, none, .drop⟩, by simp, rfl⟩

theorem jump_mem_stale : ⟨some env.extIf, port, none, .readonly⟩ ∈ nf.stale env port :=
  List.mem_filterMap.mpr
    ⟨⟨some env.extIf, port, none, .readonly⟩, by simp [staleRules], rfl⟩

/-- Of the nodes' rules, those of an interface are put back. -/
theorem mem_fresh_of_stale {extIf : String} {n : Net}
    (h : ⟨some extIf, port, some n, .accept⟩ ∈ nf.stale env port) :
    ⟨some extIf, port, some n, .accept⟩ ∈ nf.fresh env port := by
  obtain ⟨⟨extIf', dport, source, target⟩, hr', hr⟩ := List.mem_filterMap.mp h
  cases source with
  | none => cases hr
  | some s =>
      obtain ⟨n', hn', heq⟩ := Option.map_eq_some_iff.mp hr
      cases heq
      obtain ⟨hs, rfl⟩ : s ∈ env.servers ∧ env.extIf = extIf := by
        simpa [staleRules] using hr'
      exact mem_fresh.mpr (.inl ⟨n, ⟨s, hs, hn'⟩, rfl⟩)

theorem known_fresh (hport : port ∈ clusterPorts) (henv : S env)
    (h : r ∈ nf.fresh env port) : Known nf S r := by
  rcases mem_fresh.mp h with ⟨n, hn, rfl⟩ | ⟨⟨rfl, -⟩, rfl⟩ | rfl
  · exact .accept hport henv hn
  · exact .jump henv
  · exact .drop hport henv

variable [DecidableEq Net]

theorem count_fresh (h : r.source = none) : (nf.fresh env port).count r ≤ 1 := by
  have hservers : ((env.servers.map fun s =>
      (⟨some env.extIf, port, some s, .accept⟩ : PortRule String)).filterMap nf.resolve).count r = 0 := by
    rw [List.count_eq_zero, List.mem_filterMap]
    rintro ⟨r', hr', hr⟩
    obtain ⟨s, -, rfl⟩ := List.mem_map.mp hr'
    obtain ⟨n, -, rfl⟩ := Option.map_eq_some_iff.mp hr
    cases h
  unfold Netfilter.fresh freshRules
  rw [List.append_assoc, List.filterMap_append, List.count_append, hservers, Nat.zero_add,
    List.filterMap_append, List.count_append]
  split_ifs
  · show [_].count r + [_].count r ≤ 1
    rw [List.count_singleton, List.count_singleton]
    split_ifs with hjump hdrop
    · have hsame := (beq_iff_eq.mp hjump).trans (beq_iff_eq.mp hdrop).symm
      cases hsame
    · exact Nat.le_refl 1
    · exact Nat.le_refl 1
    · exact Nat.zero_le 1
  · show 0 + [_].count r ≤ 1
    rw [Nat.zero_add, List.count_singleton]
    split_ifs
    · exact Nat.le_refl 1
    · exact Nat.zero_le 1

/-- What a completed part for a port leaves of the script's rules there. -/
def Chains.afterSet (t : Chains F Net) (nf : Netfilter F Net Addr) (env : FirewallEnv)
    (port : ℕ) : List (PortRule Net) :=
  (t.at port).diff (nf.stale env port) ++ nf.fresh env port

theorem afterSet_once (h : Tidy nf S t) (hr : r.source = none) :
    (t.afterSet nf env port).count r ≤ 1 := by
  unfold Chains.afterSet
  rw [List.count_append]
  by_cases hfresh : r ∈ nf.fresh env port
  · have hgone := not_mem_diff (mem_stale_of_fresh hfresh) (h.once port r hr)
    rw [List.count_eq_zero_of_not_mem hgone, Nat.zero_add]
    exact count_fresh hr
  · rw [List.count_eq_zero_of_not_mem hfresh, Nat.add_zero]
    exact Nat.le_trans ((List.diff_sublist _ _).count_le r) (h.once port r hr)

variable [DecidableEq F]

theorem meets_setPort (hport : port ∈ clusterPorts) (henv : S env) (h : Tidy nf S t) :
    (setPort env port).Meets (iptables nf) (Tidy nf S) (fun ok t' => SameBut port t t' ∧
      (ok = true → (∀ s ∈ env.servers, (nf.parse s).isSome) ∧
        t'.at port = t.afterSet nf env port)) t := by
  refine (meets_deleteAll staleRules_dport h).bind fun _ t₁ htidy ⟨hsame, hat⟩ => ?_
  have happend : t₁.at port ++ (freshRules env port).filterMap nf.resolve =
      t.afterSet nf env port := by
    rw [hat]
    rfl
  refine (meets_appendAll freshRules_dport htidy
    (fun r hr => known_fresh hport henv hr) ?_).mono (fun _ h => h) ?_
  · intro r hr
    rw [happend]
    exact afterSet_once h hr
  · rintro ok t' - ⟨hsame', hok⟩
    refine ⟨hsame.trans hsame', fun htrue => ?_⟩
    obtain ⟨hall, hat'⟩ := hok htrue
    refine ⟨fun s hs => ?_, hat'.trans happend⟩
    have hresolved := hall ⟨some env.extIf, port, some s, .accept⟩
      (List.mem_append_left _ (List.mem_append_left _ (List.mem_map_of_mem hs)))
    unfold Netfilter.resolve at hresolved
    rwa [Option.isSome_map] at hresolved

end SetPort

/-! ## The whole script -/

section Run

variable {F Net Addr : Type} {nf : Netfilter F Net Addr} {S : FirewallEnv → Prop}
  {t t' : Chains F Net} {env : FirewallEnv} {r : PortRule Net} {nets : List Net}

/-- `postgresJump`, as it is stored. -/
def storedJump : PortRule Net := ⟨none, 5432, none, .readonly⟩

theorem storedJump_dport : (storedJump : PortRule Net).dport = 5432 := rfl

variable [DecidableEq Net]

theorem eq_storedJump (h : Tidy nf S t) (hr : r ∈ t.at 5432) : r = storedJump := by
  have hport := dport_of_mem_at hr
  cases h.known 5432 r hr with
  | accept hin =>
      cases hport
      exact absurd hin (by decide)
  | drop hin =>
      cases hport
      exact absurd hin (by decide)
  | jump => cases hport
  | postgres => rfl

/-- The jump put in where the container's port has none. -/
theorem inserted_jump (h : Tidy nf S t) (hnone : t.at 5432 = []) {n : ℕ}
    (hline : t.dockerUser.findIdx? (·.lists nf) = some n) :
    let t' := { t with dockerUser := t.dockerUser.insertIdx n (.own storedJump) }
    Tidy nf S t' ∧ t'.foreign = t.foreign ∧ ∀ P, P ≠ 5432 → t'.at P = t.at P := by
  intro t'
  have hports : ∀ P, P ≠ 5432 → t'.at P = t.at P := fun P hP =>
    filterMap_insertIdx_none (at?_own_ne (Ne.symm hP)) n
  have hjump : t'.at 5432 = [storedJump] := by
    obtain ⟨pre, x, post, hchain, hins, -⟩ := insertIdx_findIdx hline (.own storedJump)
    unfold Chains.at at hnone ⊢
    show (t.dockerUser.insertIdx n (.own storedJump)).filterMap _ = _
    rw [hchain, List.filterMap_append, List.append_eq_nil_iff] at hnone
    rw [hins, List.filterMap_append, hnone.1, List.nil_append,
      List.filterMap_cons_some (at?_own storedJump_dport), hnone.2]
  refine ⟨⟨fun P r hr => ?_, fun P r hr => ?_⟩, filterMap_insertIdx_none rfl n, hports⟩
  · by_cases hP : P = 5432
    · subst hP
      rw [hjump, List.mem_singleton] at hr
      exact hr ▸ .postgres
    · exact h.known P r (hports P hP ▸ hr)
  · by_cases hP : P = 5432
    · subst hP
      rw [hjump]
      exact List.count_le_length
    · rw [hports P hP]
      exact h.once P r hr

variable [DecidableEq F]

theorem meets_setPorts {ports : List ℕ} (hports : ports ⊆ clusterPorts) (hnodup : ports.Nodup)
    (henv : S env) (h : Tidy nf S t) :
    (setPorts env ports).Meets (iptables nf) (Tidy nf S) (fun ok t' =>
      t'.readonly = t.readonly ∧ t'.foreign = t.foreign ∧
      (∀ P ∉ ports, t'.at P = t.at P) ∧
      (ok = true → ∀ P ∈ ports, (∀ s ∈ env.servers, (nf.parse s).isSome) ∧
        t'.at P = t.afterSet nf env P)) t := by
  induction ports generalizing t with
  | nil =>
      refine meets_ret h ⟨rfl, rfl, fun _ _ => rfl, fun _ P hP => ?_⟩
      cases hP
  | cons port ports ih =>
      obtain ⟨hnot, hnodup⟩ := List.nodup_cons.mp hnodup
      refine (meets_setPort (hports (.head ports)) henv h).bind ?_
      rintro ok t₁ htidy ⟨hsame, hok⟩
      cases ok with
      | false =>
          refine meets_ret htidy ⟨hsame.readonly, hsame.foreign, fun P hP => ?_, nofun⟩
          exact hsame.ports P fun heq => hP (heq ▸ .head ports)
      | true =>
          obtain ⟨hservers, hat⟩ := hok rfl
          refine (ih (fun P hP => hports (.tail port hP)) hnodup htidy).mono (fun _ h => h) ?_
          rintro ok t' - ⟨hreadonly, hforeign, hothers, hok'⟩
          refine ⟨hreadonly.trans hsame.readonly, hforeign.trans hsame.foreign, ?_, ?_⟩
          · intro P hP
            rw [List.mem_cons, not_or] at hP
            exact (hothers P hP.2).trans (hsame.ports P hP.1)
          · intro htrue P hP
            rcases List.mem_cons.mp hP with rfl | hP
            · exact ⟨hservers, (hothers P hnot).trans hat⟩
            · have hne : P ≠ port := fun heq => hnot (heq ▸ hP)
              obtain ⟨-, hat'⟩ := hok' htrue P hP
              refine ⟨hservers, hat'.trans ?_⟩
              unfold Chains.afterSet
              rw [hsame.ports P hne]

theorem meets_appendReadonlyAll {cidrs : List String} (h : Tidy nf S t)
    (hreadonly : t.readonly = some nets) :
    (appendReadonlyAll cidrs).Meets (iptables nf) (Tidy nf S) (fun ok t' =>
      t'.dockerUser = t.dockerUser ∧
        (ok = true → t'.readonly = some (nets ++ cidrs.filterMap nf.parse))) t := by
  induction cidrs generalizing t nets with
  | nil =>
      refine meets_ret h ⟨rfl, fun _ => ?_⟩
      rw [List.filterMap_nil, List.append_nil]
      exact hreadonly
  | cons cidr cidrs ih =>
      have happ : iptables nf (.appendReadonly cidr) t =
          ((nf.parse cidr).isSome, (nf.parse cidr).elim t fun n =>
            { t with readonly := some (nets ++ [n]) }) := by
        cases hn : nf.parse cidr with
        | none => simp [iptables, hn]
        | some n => simp [iptables, hn, hreadonly]
      cases hn : nf.parse cidr with
      | none =>
          rw [hn] at happ
          exact meets_call h happ (meets_ret h ⟨rfl, nofun⟩)
      | some n =>
          rw [hn] at happ
          refine meets_call h happ ((ih (t := { t with readonly := some (nets ++ [n]) })
            (h.of_dockerUser rfl) rfl).mono (fun _ h => h) ?_)
          rintro ok t' - ⟨hchain, hok⟩
          refine ⟨hchain, fun htrue => ?_⟩
          rw [hok htrue, List.filterMap_cons_some hn, List.append_assoc]
          rfl

/-- The jump stands in front of the first listed `DROP`, and nowhere else. -/
def JumpPlaced (nf : Netfilter F Net Addr) (t t' : Chains F Net) : Prop :=
  ∃ chain : List (ChainRule F Net), chain.filterMap (ChainRule.at? 5432) = [] ∧
    chain.filterMap ChainRule.foreign? = t.foreign ∧
    t'.dockerUser = ((chain.findIdx? (·.lists nf)).elim chain fun n =>
      chain.insertIdx n (.own storedJump))

theorem meets_admitReadonly (h : Tidy nf S t) :
    (admitReadonly env).Meets (iptables nf) (Tidy nf S) (fun _ t' =>
      t'.readonly = t.readonly ∧ t'.foreign = t.foreign ∧
      (∀ P, P ≠ 5432 → t'.at P = t.at P) ∧
      (env.allowlist ≠ "" → JumpPlaced nf t t')) t := by
  unfold admitReadonly
  split_ifs with hlist
  · have htidy : Tidy nf S (t.without storedJump) := h.of_sublist without_sublist
    have hsame : SameBut 5432 t (t.without storedJump) :=
      without_sameBut (r := storedJump)
    have hnone : (t.without storedJump).at 5432 = [] := by
      rw [List.eq_nil_iff_forall_not_mem]
      intro r hr
      obtain rfl := eq_storedJump htidy hr
      have hgone : storedJump ∉ (t.at 5432).diff [storedJump] :=
        not_mem_diff (.head _) (h.once 5432 storedJump rfl)
      rw [List.diff_cons, List.diff_nil] at hgone
      have hat : (t.without storedJump).at 5432 = (t.at 5432).erase storedJump := without_at
      exact hgone (hat ▸ hr)
    refine ⟨h, ?_⟩
    cases hline : (t.without storedJump).dockerUser.findIdx? (·.lists nf) with
    | none =>
        have hlisted : iptables nf .dropLine (t.without storedJump) =
            (none, t.without storedJump) := by
          simp [iptables, hline]
        refine meets_call htidy hlisted (meets_ret htidy
          ⟨rfl, hsame.foreign, hsame.ports, fun _ => ?_⟩)
        refine ⟨(t.without storedJump).dockerUser, hnone, hsame.foreign, ?_⟩
        rw [hline]
        rfl
    | some n =>
        obtain ⟨hplaced, hforeign, hports⟩ := inserted_jump htidy hnone hline
        have hlisted : iptables nf .dropLine (t.without storedJump) =
            (some (n + 1), t.without storedJump) := by
          simp [iptables, hline]
        exact meets_call htidy hlisted ⟨htidy, hplaced, rfl, hforeign.trans hsame.foreign,
          fun P hP => (hports P hP).trans (hsame.ports P hP),
          fun _ => ⟨_, hnone, hsame.foreign, by rw [hline]; rfl⟩⟩
  · exact meets_ret h ⟨rfl, rfl, fun _ _ => rfl, fun hne => absurd hne hlist⟩

/-- What a run that completes leaves. -/
structure Applied (nf : Netfilter F Net Addr) (env : FirewallEnv) (t t' : Chains F Net) :
    Prop where
  servers : ∀ s ∈ env.servers, (nf.parse s).isSome
  readonly : t'.readonly = some (env.cidrs.filterMap nf.parse)
  foreign : t'.foreign = t.foreign
  ports : ∀ P ∈ clusterPorts, t'.at P = t.afterSet nf env P
  postgres : env.allowlist ≠ "" → JumpPlaced nf t t'

/-- Behind `-N` and `-F` the chain is there and empty. -/
theorem flushed : (iptables nf .flushChain (iptables nf .newChain t).2) =
    (true, { t with readonly := some [] }) := by
  obtain ⟨dockerUser, readonly⟩ := t
  cases readonly <;> rfl

/-- **Wherever a run is cut off**, the script's rules are known and those without an
address are there once; **when it completes**, they are as they should be. -/
theorem meets_applyFirewall (henv : S env) (h : Tidy nf S t) :
    (applyFirewall env).Meets (iptables nf) (Tidy nf S)
      (fun ok t' => ok = true → Applied nf env t t') t := by
  have hnew : Tidy nf S (iptables nf .newChain t).2 := by
    refine h.of_dockerUser ?_
    obtain ⟨dockerUser, readonly⟩ := t
    cases readonly <;> rfl
  refine ⟨h, meets_call hnew flushed ?_⟩
  refine (meets_appendReadonlyAll (t := { t with readonly := some [] })
    (h.of_dockerUser rfl) rfl).bind ?_
  rintro ok t₁ htidy ⟨hchain, hok⟩
  cases ok with
  | false => exact meets_ret htidy nofun
  | true =>
      have hreadonly := hok rfl
      rw [List.nil_append] at hreadonly
      refine (meets_setPorts (List.Subset.refl _) (by decide) henv htidy).bind ?_
      rintro ok t₂ htidy ⟨hreadonly₂, hforeign, -, hports⟩
      cases ok with
      | false => exact meets_ret htidy nofun
      | true =>
          refine (meets_admitReadonly htidy).mono (fun _ h => h) ?_
          rintro ok t' - ⟨hreadonly', hforeign', hothers, hplaced⟩ -
          have hforeign₁ : t₁.foreign = t.foreign := congrArg (List.filterMap _) hchain
          refine ⟨(hports rfl 15432 (by decide)).1,
            hreadonly'.trans (hreadonly₂.trans hreadonly),
            hforeign'.trans (hforeign.trans hforeign₁), fun P hP => ?_, fun hlist => ?_⟩
          · have hne : P ≠ 5432 := by
              rintro rfl
              exact absurd hP (by decide)
            refine (hothers P hne).trans ((hports rfl P hP).2.trans ?_)
            unfold Chains.afterSet Chains.at
            rw [hchain]
          · obtain ⟨chain, hnone, hchain', hplaced⟩ := hplaced hlist
            exact ⟨chain, hnone, hchain'.trans (hforeign.trans hforeign₁), hplaced⟩

end Run

end VideoStorage.Deploy
