import VideoStorage.Deploy.FirewallRuns

/-!
# Who gets through

After a run that completes, a packet for a port of the cluster is let through or
dropped: the nodes get through, and on the port of Postgres the read-only clients. The
nodes of former runs still do as well: their `ACCEPT`s are only taken out by a run
that is given the same addresses. But Docker puts in the container's port before
`DOCKER-USER`: a packet translated so meets none of these rules, and only the jump of
the read-only clients is on such a port.
-/

namespace VideoStorage.Deploy

open Foundation Prog

/-! ## Sources -/

section Sources

variable {F Net Addr : Type} (nf : Netfilter F Net Addr) (env : FirewallEnv)
  (source : Addr)

/-- The source is a node of the run. -/
def Netfilter.From : Prop := ∃ n, nf.Node env n ∧ nf.contains n source = true

/-- The source is on the allow-list of the run. -/
def Netfilter.Listed : Prop :=
  ∃ cidr ∈ env.cidrs, ∃ n, nf.parse cidr = some n ∧ nf.contains n source = true

variable {nf env source} {t : Chains F Net}

theorem admits_iff (h : t.readonly = some (env.cidrs.filterMap nf.parse)) :
    t.admits nf source = true ↔ nf.Listed env source := by
  unfold Chains.admits
  rw [h, Option.getD_some, List.any_eq_true]
  constructor
  · rintro ⟨n, hn, hsource⟩
    obtain ⟨cidr, hcidr, hn⟩ := List.mem_filterMap.mp hn
    exact ⟨cidr, hcidr, n, hn, hsource⟩
  · rintro ⟨cidr, hcidr, n, hn, hsource⟩
    exact ⟨n, List.mem_filterMap.mpr ⟨cidr, hcidr, hn⟩, hsource⟩

/-- An empty allow-list lists nobody. -/
theorem Netfilter.Listed.allowlist (h : nf.Listed env source) : env.allowlist ≠ "" := by
  obtain ⟨cidr, hcidr, -⟩ := h
  intro hempty
  unfold FirewallEnv.cidrs at hcidr
  rw [hempty] at hcidr
  cases hcidr

end Sources

/-! ## Histories -/

/-- The environments of the runs, completed or not. -/
def seen (events : List FirewallEvent) : List FirewallEnv :=
  events.filterMap fun
    | .ran env _ => some env
    | .others => none

/-- No run was cut off. -/
def AllCompleted (events : List FirewallEvent) : Prop :=
  ∀ env, .ran env false ∉ events

section Histories

variable {F Net Addr : Type} [DecidableEq Net] {nf : Netfilter F Net Addr}
  {S : FirewallEnv → Prop} {t t' : Chains F Net} {env : FirewallEnv}
  {events : List FirewallEvent}

theorem tidy_start (h : t.own = []) : Tidy nf S t := by
  have hat : ∀ P, t.at P = [] := fun P => by rw [at_eq_own, h]; rfl
  refine ⟨fun P r hr => ?_, fun P r _ => ?_⟩
  · rw [hat P] at hr
    cases hr
  · rw [hat P]
    exact Nat.zero_le 1

/-- The nodes of the runs of `S` have their `ACCEPT`s. -/
def Admitting (nf : Netfilter F Net Addr) (S : FirewallEnv → Prop) (t : Chains F Net) : Prop :=
  ∀ e, S e → ∀ P ∈ clusterPorts, ∀ n, nf.Node e n →
    ⟨some e.extIf, P, some n, .accept⟩ ∈ t.at P

/-- What a completed run takes out of the nodes' rules it puts back. -/
theorem Applied.keeps {P : ℕ} {extIf : String} {n : Net} (h : Applied nf env t t')
    (hP : P ∈ clusterPorts) (hmem : ⟨some extIf, P, some n, .accept⟩ ∈ t.at P) :
    ⟨some extIf, P, some n, .accept⟩ ∈ t'.at P := by
  rw [h.ports P hP]
  unfold Chains.afterSet
  rw [List.mem_append]
  by_cases hstale : ⟨some extIf, P, some n, .accept⟩ ∈ nf.stale env P
  · exact .inr (mem_fresh_of_stale hstale)
  · exact .inl (List.mem_diff_of_mem hmem hstale)

variable [DecidableEq F]

theorem tidy_step {event : FirewallEvent} (h : Tidy nf S t) (hstep : FirewallStep nf t event t') :
    Tidy nf (fun e => S e ∨ e ∈ seen [event]) t' := by
  have hmono := h.mono fun e (he : S e) => (.inl he : S e ∨ e ∈ seen [event])
  cases hstep with
  | completed env hok => exact (meets_applyFirewall (.inr (.head _)) hmono).eval.1
  | stopped env n => exact (meets_applyFirewall (.inr (.head _)) hmono).cut n
  | others hown _ =>
      refine hmono.of_sublist fun P => ?_
      rw [at_of_own hown]

/-- **After every history** the script's rules are those of its runs. -/
theorem tidy_history (h : Tidy nf S t) (hrun : Trace (FirewallStep nf) t events t') :
    Tidy nf (fun e => S e ∨ e ∈ seen events) t' := by
  induction hrun generalizing S with
  | nil t => exact h.mono fun e he => .inl he
  | @cons t₀ t₁ t₂ event events hstep _ ih =>
      refine (ih (tidy_step h hstep)).mono fun e he => ?_
      have hseen : seen (event :: events) = seen [event] ++ seen events :=
        List.filterMap_append (l := [event])
      rw [hseen, List.mem_append]
      exact or_assoc.mp he

theorem admitting_step {event : FirewallEvent} (htidy : Tidy nf S t) (h : Admitting nf S t)
    (hstep : FirewallStep nf t event t') (hcompleted : ∀ e, event ≠ .ran e false) :
    Admitting nf (fun e => S e ∨ e ∈ seen [event]) t' := by
  cases hstep with
  | completed env hok =>
      have happlied := (meets_applyFirewall (S := fun e => S e ∨ e = env) (.inr rfl)
        (htidy.mono fun e he => .inl he)).eval.2 hok
      rintro e (he | he) P hP n hn
      · exact happlied.keeps hP (h e he P hP n hn)
      · obtain rfl := List.mem_singleton.mp he
        rw [happlied.ports P hP]
        exact List.mem_append_right _ (mem_fresh.mpr (.inl ⟨n, hn, rfl⟩))
  | stopped env n => exact absurd rfl (hcompleted env)
  | others hown _ =>
      rintro e (he | he) P hP n hn
      · rw [at_of_own hown]
        exact h e he P hP n hn
      · cases he

/-- **While no run is cut off**, no node loses its rules. -/
theorem admitting_history (htidy : Tidy nf S t) (h : Admitting nf S t)
    (hrun : Trace (FirewallStep nf) t events t') (hall : AllCompleted events) :
    Admitting nf (fun e => S e ∨ e ∈ seen events) t' := by
  induction hrun generalizing S with
  | nil t =>
      rintro e (he | he)
      · exact h e he
      · cases he
  | @cons t₀ t₁ t₂ event events hstep _ ih =>
      have hfirst := admitting_step htidy h hstep fun e heq => hall e (heq ▸ .head _)
      have hrest := ih (tidy_step htidy hstep) hfirst fun e he => hall e (.tail _ he)
      have hseen : seen (event :: events) = seen [event] ++ seen events :=
        List.filterMap_append (l := [event])
      intro e he
      rw [hseen, List.mem_append] at he
      exact hrest e (or_assoc.mpr he)

end Histories

/-! ## The ports of the cluster -/

section Cluster

variable {F Net Addr : Type} {nf : Netfilter F Net Addr} {S : FirewallEnv → Prop}
  {t t' : Chains F Net} {env : FirewallEnv} {p : Packet Addr} {admitted : Bool}
  {r : PortRule Net}

/-- Where the rules of others have no verdict, the script's rules for the port decide. -/
theorem verdict_at (hothers : ∀ f ∈ t.foreign, nf.verdict f p = none) :
    t.verdict nf p = (t.at p.dport).findSome? fun r =>
      r.verdict nf (t.admits nf p.source) p := by
  refine findSome?_part fun x hx => ?_
  cases x with
  | foreign f => exact hothers f (List.mem_filterMap.mpr ⟨_, hx, rfl⟩)
  | own r =>
      by_cases hport : r.dport = p.dport
      · rw [at?_own hport]
        rfl
      · rw [at?_own_ne hport]
        exact if_neg fun h => hport h.2.1.symm

theorem verdict_accept (h : r.target = .accept) (hmatches : r.Matches nf p) :
    r.verdict nf admitted p = some .accept := by
  unfold PortRule.verdict
  rw [if_pos hmatches, h]

/-- Who may get through: a node of a run on `S` or of this one, or a listed client of
Postgres. -/
def Allowed (nf : Netfilter F Net Addr) (S : FirewallEnv → Prop) (env : FirewallEnv)
    (p : Packet Addr) : Prop :=
  (∃ e, (S e ∨ e = env) ∧ e.extIf = env.extIf ∧ nf.From e p.source) ∨
    p.dport = 15432 ∧ nf.Listed env p.source

theorem fresh_split {port : ℕ} : ∃ front,
    nf.fresh env port = front ++ [⟨some env.extIf, port, none, .drop⟩] ∧
      ∀ r ∈ front, (∃ n, nf.Node env n ∧ r = ⟨some env.extIf, port, some n, .accept⟩) ∨
        port = 15432 ∧ r = ⟨some env.extIf, port, none, .readonly⟩ := by
  refine ⟨_, List.filterMap_append, ?_⟩
  intro r hr
  obtain ⟨r', hr', hr⟩ := List.mem_filterMap.mp hr
  rcases List.mem_append.mp hr' with hr' | hr'
  · obtain ⟨s, hs, rfl⟩ := List.mem_map.mp hr'
    obtain ⟨n, hn, rfl⟩ := Option.map_eq_some_iff.mp hr
    exact .inl ⟨n, ⟨s, hs, hn⟩, rfl⟩
  · split_ifs at hr' with hjump
    · obtain rfl := List.mem_singleton.mp hr'
      exact .inr ⟨hjump.1, (Option.some.inj hr).symm⟩
    · cases hr'

theorem fresh_verdict (hadmitted : admitted = true → nf.Listed env p.source)
    (hr : (∃ n, nf.Node env n ∧ r = ⟨some env.extIf, p.dport, some n, .accept⟩) ∨
      p.dport = 15432 ∧ r = ⟨some env.extIf, p.dport, none, .readonly⟩) :
    r.verdict nf admitted p = none ∨
      r.verdict nf admitted p = some .accept ∧ Allowed nf S env p := by
  by_cases hmatches : r.Matches nf p
  · rcases hr with ⟨n, hn, rfl⟩ | ⟨hport, rfl⟩
    · refine .inr ⟨verdict_accept rfl hmatches, .inl ⟨env, .inr rfl, rfl, n, hn, ?_⟩⟩
      exact hmatches.2.2.2 n rfl
    · cases hadmit : admitted with
      | false => exact .inl (if_pos hmatches)
      | true => exact .inr ⟨if_pos hmatches, .inr ⟨hport, hadmitted hadmit⟩⟩
  · exact .inl (if_neg hmatches)

variable [DecidableEq Net]

/-- Of the rules of former runs, only the nodes' still have a verdict. -/
theorem former_verdict (htidy : Tidy nf S t)
    (hS : ∀ e, S e → nf.matchesIf e.extIf p.inIf = true → e.extIf = env.extIf)
    (hport : p.dport ∈ clusterPorts) (hr : r ∈ (t.at p.dport).diff (nf.stale env p.dport)) :
    r.verdict nf admitted p = none ∨
      r.verdict nf admitted p = some .accept ∧ Allowed nf S env p := by
  by_cases hmatches : r.Matches nf p
  · have hmem := List.diff_subset _ _ hr
    have hdport := dport_of_mem_at hmem
    have hgone : r.source = none → r ∉ nf.stale env p.dport := fun hsource hstale =>
      not_mem_diff hstale (htidy.once p.dport r hsource) hr
    cases htidy.known p.dport r hmem with
    | @accept e n P _ he hn =>
        refine .inr ⟨verdict_accept rfl hmatches, .inl ⟨e, .inl he, ?_, n, hn, ?_⟩⟩
        · exact hS e he (hmatches.2.2.1 e.extIf rfl)
        · exact hmatches.2.2.2 n rfl
    | @drop e P _ he =>
        obtain rfl : P = p.dport := hdport
        refine absurd ?_ (hgone rfl)
        rw [hS e he (hmatches.2.2.1 e.extIf rfl)]
        exact mem_stale_of_fresh (mem_fresh.mpr (.inr (.inr rfl)))
    | @jump e he =>
        refine absurd ?_ (hgone rfl)
        rw [hS e he (hmatches.2.2.1 e.extIf rfl)]
        have hdport : 15432 = p.dport := hdport
        rw [← hdport]
        exact jump_mem_stale
    | postgres =>
        have hdport : 5432 = p.dport := hdport
        rw [← hdport] at hport
        exact absurd hport (by decide)
  · exact .inl (if_neg hmatches)

/-- **A packet for a port of the cluster** is let through on an exception, or dropped
because there is none. -/
theorem cluster_verdict (h : Applied nf env t t') (htidy : Tidy nf S t)
    (hS : ∀ e, S e → nf.matchesIf e.extIf p.inIf = true → e.extIf = env.extIf)
    (hothers : ∀ f ∈ t'.foreign, nf.verdict f p = none) (htcp : p.tcp = true)
    (hport : p.dport ∈ clusterPorts) (hif : nf.matchesIf env.extIf p.inIf = true) :
    t'.verdict nf p = some .accept ∧ Allowed nf S env p ∨
      t'.verdict nf p = some .drop ∧ ∀ r ∈ t'.at p.dport,
        r.verdict nf (t'.admits nf p.source) p ≠ some .accept := by
  obtain ⟨front, hfresh, hfront⟩ := @fresh_split _ _ _ nf env p.dport
  have hat : t'.at p.dport = ((t.at p.dport).diff (nf.stale env p.dport) ++ front) ++
      [⟨some env.extIf, p.dport, none, .drop⟩] := by
    rw [h.ports _ hport, Chains.afterSet, hfresh, List.append_assoc]
  have hexceptions : ∀ r ∈ (t.at p.dport).diff (nf.stale env p.dport) ++ front,
      r.verdict nf (t'.admits nf p.source) p = none ∨
        r.verdict nf (t'.admits nf p.source) p = some .accept ∧ Allowed nf S env p := by
    intro r hr
    rcases List.mem_append.mp hr with hr | hr
    · exact former_verdict htidy hS hport hr
    · exact fresh_verdict (admits_iff h.readonly).mp (hfront r hr)
  have hdrop : (⟨some env.extIf, p.dport, none, .drop⟩ : PortRule Net).verdict nf
      (t'.admits nf p.source) p = some .drop := by
    refine if_pos ⟨htcp, rfl, ?_, nofun⟩
    rintro _ ⟨⟩
    exact hif
  rw [verdict_at hothers, hat]
  by_cases hex : ∃ r ∈ (t.at p.dport).diff (nf.stale env p.dport) ++ front,
      r.verdict nf (t'.admits nf p.source) p = some .accept
  · refine .inl ⟨findSome?_exception (fun r hr => (hexceptions r hr).imp_right And.left) hex, ?_⟩
    obtain ⟨r, hr, haccept⟩ := hex
    rcases hexceptions r hr with hnone | ⟨-, hallowed⟩
    · rw [hnone] at haccept
      cases haccept
    · exact hallowed
  · have hnone : ∀ r ∈ (t.at p.dport).diff (nf.stale env p.dport) ++ front,
        r.verdict nf (t'.admits nf p.source) p = none := fun r hr =>
      (hexceptions r hr).resolve_right fun hsome => hex ⟨r, hr, hsome.1⟩
    refine .inr ⟨findSome?_last hnone hdrop, fun r hr => ?_⟩
    rcases List.mem_append.mp hr with hr | hr
    · rw [hnone r hr]
      exact nofun
    · rw [List.mem_singleton.mp hr, hdrop]
      exact nofun

end Cluster

/-! ## The port of the container -/

section Postgres

variable {F Net Addr : Type} {nf : Netfilter F Net Addr} {S : FirewallEnv → Prop}
  {t t' : Chains F Net} {env : FirewallEnv} {p : Packet Addr} {chain : List (ChainRule F Net)}
  {admitted : Bool}

/-- What a completed run makes of a packet for Postgres in its container: the listed
clients get through in front of the first listed `DROP`, if there is one; else the rules
of others decide as if the script had none. -/
structure PostgresExposure (nf : Netfilter F Net Addr) (env : FirewallEnv) (p : Packet Addr)
    (t' : Chains F Net) : Prop where
  clients : nf.Listed env p.source → ∀ n, t'.foreign.findIdx? nf.lists = some n →
    t'.verdict nf p = ((t'.foreign.take n).findSome? (nf.verdict · p)).or (some .accept)
  others : (nf.Listed env p.source → t'.foreign.findIdx? nf.lists = none) →
    t'.verdict nf p = t'.foreign.findSome? (nf.verdict · p)

/-- Rules without a verdict of the script's leave the rules of others to decide. -/
theorem findSome?_foreign
    (h : ∀ r, ChainRule.own r ∈ chain → r.verdict nf admitted p = none) :
    chain.findSome? (fun r => r.verdict nf admitted p) =
      (chain.filterMap ChainRule.foreign?).findSome? (nf.verdict · p) := by
  refine findSome?_part fun x hx => ?_
  cases x with
  | own r => exact h r hx
  | foreign f => rfl

theorem own_silent (hport : p.dport = 5432)
    (hnone : chain.filterMap (ChainRule.at? 5432) = []) :
    ∀ r, ChainRule.own r ∈ chain → r.verdict nf admitted p = none := by
  intro r hr
  refine if_neg fun hmatches => ?_
  have hdport : r.dport = 5432 := hmatches.2.1.symm.trans hport
  have hmem : r ∈ chain.filterMap (ChainRule.at? 5432) :=
    List.mem_filterMap.mpr ⟨_, hr, at?_own hdport⟩
  rw [hnone] at hmem
  cases hmem

/-- No rule of the script is listed as a `DROP` for the container's port. -/
theorem own_not_listed {r : PortRule Net} (h : Known nf S r) :
    (ChainRule.own r : ChainRule F Net).lists nf = false := by
  have hports : ∀ P ∈ clusterPorts, startsWith "5432" (decimalText P) = false := by
    decide +kernel
  cases h with
  | accept => rfl
  | drop hport => exact (Bool.true_and _).trans (hports _ hport)
  | jump => rfl
  | postgres => rfl

/-- The first listed `DROP` among all rules is the first among those of others. -/
theorem findIdx_foreign {pre post : List (ChainRule F Net)} {x : ChainRule F Net}
    (hx : x.lists nf = true) (hpre : ∀ y ∈ pre, y.lists nf = false)
    (hown : ∀ r, ChainRule.own r ∈ pre ++ x :: post →
      (ChainRule.own r : ChainRule F Net).lists nf = false) :
    ((pre ++ x :: post).filterMap ChainRule.foreign?).findIdx? nf.lists =
      some (pre.filterMap ChainRule.foreign?).length := by
  cases x with
  | own r =>
      rw [hown r (List.mem_append_right _ (.head _))] at hx
      cases hx
  | foreign f =>
      have hnone : (pre.filterMap ChainRule.foreign?).findIdx? nf.lists = none := by
        rw [List.findIdx?_eq_none_iff]
        intro g hg
        obtain ⟨y, hy, hyg⟩ := List.mem_filterMap.mp hg
        cases y with
        | own r => cases hyg
        | foreign g' =>
            obtain rfl := Option.some.inj hyg
            exact hpre _ hy
      have hf : nf.lists f = true := hx
      rw [List.filterMap_append,
        List.filterMap_cons_some (show ChainRule.foreign? (.foreign f) = some f from rfl),
        List.findIdx?_append, hnone, List.findIdx?_cons, if_pos hf]
      simp

theorem findIdx_foreign_none (h : chain.findIdx? (·.lists nf) = none) :
    (chain.filterMap ChainRule.foreign?).findIdx? nf.lists = none := by
  rw [List.findIdx?_eq_none_iff] at h ⊢
  intro g hg
  obtain ⟨y, hy, hyg⟩ := List.mem_filterMap.mp hg
  cases y with
  | own r => cases hyg
  | foreign g' =>
      obtain rfl := Option.some.inj hyg
      exact h _ hy

variable [DecidableEq Net]

theorem known_of_mem (htidy : Tidy nf S t) {r : PortRule Net} (h : .own r ∈ t.dockerUser) :
    Known nf S r :=
  htidy.known r.dport r (List.mem_filterMap.mpr ⟨_, h, at?_own rfl⟩)

/-- Unless the client is listed, no rule of the script has a verdict. -/
theorem unlisted_verdict (htidy : Tidy nf S t') (hport : p.dport = 5432)
    (hadmits : t'.admits nf p.source = false) :
    t'.verdict nf p = t'.foreign.findSome? (nf.verdict · p) := by
  refine findSome?_foreign fun r hr => ?_
  by_cases hmatches : r.Matches nf p
  · have hdport : r.dport = 5432 := hmatches.2.1.symm.trans hport
    have hmem : r ∈ t'.at 5432 := List.mem_filterMap.mpr ⟨_, hr, at?_own hdport⟩
    obtain rfl := eq_storedJump htidy hmem
    rw [hadmits]
    exact if_pos hmatches
  · exact if_neg hmatches

/-- The chain with the jump placed. -/
theorem placed_verdict (htidy : Tidy nf S t') (hplaced : JumpPlaced nf t t')
    (hforeign : t'.foreign = t.foreign) (htcp : p.tcp = true) (hport : p.dport = 5432)
    (hadmits : t'.admits nf p.source = true) :
    (∀ n, t'.foreign.findIdx? nf.lists = some n →
      t'.verdict nf p =
        ((t'.foreign.take n).findSome? (nf.verdict · p)).or (some .accept)) ∧
      (t'.foreign.findIdx? nf.lists = none →
        t'.verdict nf p = t'.foreign.findSome? (nf.verdict · p)) := by
  obtain ⟨chain, hnone, hchain, hplaced⟩ := hplaced
  rw [← hforeign] at hchain
  cases hline : chain.findIdx? (·.lists nf) with
  | none =>
      rw [hline] at hplaced
      refine ⟨fun n hn => ?_, fun _ => ?_⟩
      · rw [← hchain, findIdx_foreign_none hline] at hn
        cases hn
      · unfold Chains.verdict
        rw [← hchain, hplaced]
        exact findSome?_foreign (own_silent hport hnone)
  | some m =>
      obtain ⟨pre, x, post, rfl, hins, hx, hpre⟩ := insertIdx_findIdx hline (.own storedJump)
      rw [hline] at hplaced
      have hdocker : t'.dockerUser = pre ++ .own storedJump :: x :: post := hplaced.trans hins
      have hown : ∀ r, ChainRule.own r ∈ pre ++ x :: post →
          (ChainRule.own r : ChainRule F Net).lists nf = false := by
        intro r hr
        refine own_not_listed (known_of_mem htidy ?_)
        rw [hdocker]
        rcases List.mem_append.mp hr with hr | hr
        · exact List.mem_append_left _ hr
        · exact List.mem_append_right _ (.tail _ hr)
      have hfirst := findIdx_foreign hx hpre hown
      rw [hchain] at hfirst
      refine ⟨fun n hn => ?_, fun hn => ?_⟩
      · obtain rfl := Option.some.inj (hfirst.symm.trans hn)
        rw [List.filterMap_append] at hnone hchain
        have hsilent : ∀ r, ChainRule.own r ∈ pre →
            r.verdict nf (t'.admits nf p.source) p = none :=
          own_silent hport (List.append_eq_nil_iff.mp hnone).1
        have hjump : (ChainRule.own storedJump : ChainRule F Net).verdict nf
            (t'.admits nf p.source) p = some .accept := by
          rw [hadmits]
          exact if_pos ⟨htcp, hport, nofun, nofun⟩
        unfold Chains.verdict
        rw [hdocker, List.findSome?_append, findSome?_foreign hsilent, List.findSome?_cons,
          hjump, ← hchain, List.take_left]
      · rw [hfirst] at hn
        cases hn

end Postgres

/-- What a completed run makes of a packet for a port of the cluster, behind the runs
of a history. -/
structure Exposure {F Net Addr : Type} (nf : Netfilter F Net Addr)
    (events : List FirewallEvent) (env : FirewallEnv) (p : Packet Addr)
    (verdict : Option Verdict) : Prop where
  decided : verdict = some .accept ∨ verdict = some .drop
  nodes : nf.From env p.source → verdict = some .accept
  clients : p.dport = 15432 → nf.Listed env p.source → verdict = some .accept
  only : verdict = some .accept → Allowed nf (· ∈ seen events) env p
  /-- Nobody has taken out their rules. -/
  former : AllCompleted events → ∀ e ∈ seen events, e.extIf = env.extIf →
    nf.From e p.source → verdict = some .accept

section Main

variable {F Net Addr : Type} [DecidableEq F] [DecidableEq Net]

/-- Behind any history and a run that completes. -/
theorem exposure_of_run {nf : Netfilter F Net Addr} {t₀ t t' : Chains F Net}
    {events : List FirewallEvent} {env : FirewallEnv} {p : Packet Addr} (hstart : t₀.own = [])
    (hrun : Trace (FirewallStep nf) t₀ events t)
    (hlast : FirewallStep nf t (.ran env true) t') (htcp : p.tcp = true)
    (hport : p.dport ∈ clusterPorts) (hif : nf.matchesIf env.extIf p.inIf = true)
    (hsame : ∀ e ∈ seen events, nf.matchesIf e.extIf p.inIf = true → e.extIf = env.extIf)
    (hothers : ∀ f ∈ t'.foreign, nf.verdict f p = none) :
    Exposure nf events env p (t'.verdict nf p) := by
  have htidy : Tidy nf (· ∈ seen events) t :=
    (tidy_history (S := fun _ => False) (tidy_start hstart) hrun).mono fun e he =>
      he.resolve_left id
  cases hlast with
  | completed _ hok =>
      have happlied := (meets_applyFirewall (S := fun e => e ∈ seen events ∨ e = env)
        (.inr rfl) (htidy.mono fun e he => .inl he)).eval.2 hok
      have hverdict := cluster_verdict happlied htidy hsame hothers htcp hport hif
      have haccepts : ∀ r ∈ ((applyFirewall env).eval (iptables nf) t).2.at p.dport,
          r.verdict nf (((applyFirewall env).eval (iptables nf) t).2.admits nf p.source) p =
            some .accept →
          ((applyFirewall env).eval (iptables nf) t).2.verdict nf p = some .accept := by
        intro r hr haccept
        rcases hverdict with ⟨hv, -⟩ | ⟨-, hnone⟩
        · exact hv
        · exact absurd haccept (hnone r hr)
      refine ⟨hverdict.imp And.left And.left, ?_, ?_, ?_, ?_⟩
      · rintro ⟨n, hn, hsource⟩
        refine haccepts ⟨some env.extIf, p.dport, some n, .accept⟩ ?_
          (verdict_accept rfl ⟨htcp, rfl, ?_, ?_⟩)
        · rw [happlied.ports _ hport]
          exact List.mem_append_right _ (mem_fresh.mpr (.inl ⟨n, hn, rfl⟩))
        · rintro _ ⟨⟩
          exact hif
        · rintro _ ⟨⟩
          exact hsource
      · intro hpostgres hlisted
        refine haccepts ⟨some env.extIf, p.dport, none, .readonly⟩ ?_ ?_
        · rw [happlied.ports _ hport]
          exact List.mem_append_right _
            (mem_fresh.mpr (.inr (.inl ⟨⟨hpostgres, hlisted.allowlist⟩, rfl⟩)))
        · unfold PortRule.verdict
          rw [if_pos ⟨htcp, rfl, by rintro _ ⟨⟩; exact hif, nofun⟩]
          exact if_pos ((admits_iff happlied.readonly).mpr hlisted)
      · intro haccept
        rcases hverdict with ⟨-, hallowed⟩ | ⟨hdrop, -⟩
        · exact hallowed
        · rw [hdrop] at haccept
          cases haccept
      · rintro hall e he hextIf ⟨n, hn, hsource⟩
        have hadmitting := admitting_history (S := fun _ => False) (tidy_start hstart)
          (fun e he => he.elim) hrun hall e (.inr he) p.dport hport n hn
        refine haccepts _ (happlied.keeps hport hadmitting)
          (verdict_accept rfl ⟨htcp, rfl, ?_, ?_⟩)
        · rintro _ ⟨⟩
          rw [hextIf]
          exact hif
        · rintro _ ⟨⟩
          exact hsource

/-- Behind any history and a run that completes. -/
theorem postgresExposure_of_run {nf : Netfilter F Net Addr} {t₀ t t' : Chains F Net}
    {events : List FirewallEvent} {env : FirewallEnv} {p : Packet Addr}
    (hstart : t₀.own = []) (hrun : Trace (FirewallStep nf) t₀ events t)
    (hlast : FirewallStep nf t (.ran env true) t') (htcp : p.tcp = true)
    (hport : p.dport = 5432) : PostgresExposure nf env p t' := by
  have htidy := tidy_history (S := fun _ => False) (tidy_start hstart) hrun
  cases hlast with
  | completed _ hok =>
      have hmeets : (applyFirewall env).Meets (iptables nf)
          (Tidy nf fun e => (False ∨ e ∈ seen events) ∨ e = env)
          (fun ok t' => ok = true → Applied nf env t t') t :=
        meets_applyFirewall (.inr rfl) (htidy.mono fun e he => .inl he)
      obtain ⟨htidy', happlied⟩ := hmeets.eval
      have happlied := happlied hok
      refine ⟨fun hlisted => ?_, fun hnone => ?_⟩
      · exact (placed_verdict htidy' (happlied.postgres hlisted.allowlist) happlied.foreign
          htcp hport ((admits_iff happlied.readonly).mpr hlisted)).1
      · by_cases hlisted : nf.Listed env p.source
        · exact (placed_verdict htidy' (happlied.postgres hlisted.allowlist)
            happlied.foreign htcp hport ((admits_iff happlied.readonly).mpr hlisted)).2
            (hnone hlisted)
        · refine unlisted_verdict htidy' hport ?_
          rw [← Bool.not_eq_true, admits_iff happlied.readonly]
          exact hlisted

/-! ## Behind Docker's translation -/

/-- No port of a container is one of the cluster's. -/
theorem translated_port {p : Packet Addr} (h : p.dport ∈ clusterPorts) :
    p.translated.dport ∉ clusterPorts := by
  have hall : ∀ port ∈ clusterPorts, (published port).getD port ∉ clusterPorts := by
    decide
  exact hall _ h

theorem translated_postgres {p : Packet Addr} (h : p.dport ∈ clusterPorts)
    (hpostgres : p.translated.dport = 5432) : p.dport = 15432 := by
  have hall : ∀ port ∈ clusterPorts, (published port).getD port = 5432 → port = 15432 := by
    decide
  exact hall _ h hpostgres

/-- Where the script has no rule for a port, the rules of others decide. -/
theorem translated_verdict {nf : Netfilter F Net Addr} {t₀ t t' : Chains F Net}
    {events : List FirewallEvent} {env : FirewallEnv} {p : Packet Addr} (hstart : t₀.own = [])
    (hrun : Trace (FirewallStep nf) t₀ events t)
    (hlast : FirewallStep nf t (.ran env true) t') (hport : p.dport ∉ clusterPorts)
    (hpostgres : p.dport ≠ 5432) :
    t'.verdict nf p = t'.foreign.findSome? (nf.verdict · p) := by
  have htidy := tidy_step (tidy_history (S := fun _ => False) (tidy_start hstart) hrun)
    hlast
  refine findSome?_foreign fun r hr => if_neg fun hmatches => ?_
  have hdport : r.dport = p.dport := hmatches.2.1.symm
  rw [← hdport] at hport hpostgres
  cases known_of_mem htidy hr with
  | accept hin => exact hport hin
  | drop hin => exact hport hin
  | jump => exact hport (.head _)
  | postgres => exact hpostgres rfl

/-! ## What the script does to a packet -/

/-- **Exposure of the cluster.** The script starts on a chain without its own rules,
runs again and again, is cut off or changed around, and then completes. A packet on its
interface that is still for a port of the cluster is let through from the nodes and,
for Postgres, from the listed clients, and from nobody else but nodes of former runs.
One whose port Docker has translated is left to the rules of others, but for the
read-only clients of Postgres. -/
theorem firewall_exposure (nf : Netfilter F Net Addr) {t₀ t t' : Chains F Net}
    {events : List FirewallEvent} {env : FirewallEnv} (hstart : t₀.own = [])
    (hrun : Trace (FirewallStep nf) t₀ events t)
    (hlast : FirewallStep nf t (.ran env true) t') {p : Packet Addr} (htcp : p.tcp = true)
    (hport : p.dport ∈ clusterPorts) :
    (nf.matchesIf env.extIf p.inIf = true →
      (∀ e ∈ seen events, nf.matchesIf e.extIf p.inIf = true → e.extIf = env.extIf) →
      (∀ f ∈ t'.foreign, nf.verdict f p = none) →
        Exposure nf events env p (t'.verdict nf p)) ∧
    (p.dport ≠ 15432 → t'.verdict nf p.translated
      = t'.foreign.findSome? (nf.verdict · p.translated)) ∧
    (p.dport = 15432 → PostgresExposure nf env p.translated t') := by
  refine ⟨fun hif hsame hothers => exposure_of_run hstart hrun hlast htcp hport hif hsame
    hothers, fun hne => ?_, fun heq => ?_⟩
  · refine translated_verdict hstart hrun hlast ?_ ?_
    · exact translated_port hport
    · exact fun h => hne (translated_postgres hport h)
  · refine postgresExposure_of_run hstart hrun hlast htcp ?_
    unfold Packet.translated
    rw [heq]
    rfl

/-- **The read-only clients of Postgres.** Behind any history and a run that completes,
they get through in front of the first listed `DROP` for the container's port; for
everybody else, and with an empty allow-list for them too, the rules of others decide
alone. -/
theorem postgres_clients (nf : Netfilter F Net Addr) {t₀ t t' : Chains F Net}
    {events : List FirewallEvent} {env : FirewallEnv} {p : Packet Addr} (hstart : t₀.own = [])
    (hrun : Trace (FirewallStep nf) t₀ events t)
    (hlast : FirewallStep nf t (.ran env true) t') (htcp : p.tcp = true)
    (hport : p.dport = 5432) : PostgresExposure nf env p t' :=
  postgresExposure_of_run hstart hrun hlast htcp hport

end Main

/-! ## A node that was replaced -/

/-- Addresses by name, and somebody's `DROP` for the container's port. -/
def plainFilter : Netfilter Unit String String where
  parse text := if text = "" then none else some text
  contains n a := n == a || n == a ++ "/32"
  matchesIf i j := i == j
  verdict _ p := if p.tcp && p.dport == 5432 then some .drop else none
  lists _ := true

def firstEnv : FirewallEnv where
  extIf := "eth0"
  server1 := "10.0.0.1"
  server2 := "10.0.0.2"
  server3 := "10.0.0.3"
  allowlist := ""

/-- The third node has moved, and there is a read-only client. -/
def movedEnv : FirewallEnv :=
  { firstEnv with server3 := "10.0.0.4", allowlist := "192.0.2.7" }

def dropOnly : Chains Unit String where
  dockerUser := [.foreign ()]
  readonly := none

def afterFirst : Chains Unit String :=
  ((applyFirewall firstEnv).eval (iptables plainFilter) dropOnly).2

def afterMoved : Chains Unit String :=
  ((applyFirewall movedEnv).eval (iptables plainFilter) afterFirst).2

theorem afterFirst_run :
    Trace (FirewallStep plainFilter) dropOnly [.ran firstEnv true] afterFirst :=
  .single (.completed firstEnv (by decide +kernel))

theorem afterMoved_step : FirewallStep plainFilter afterFirst (.ran movedEnv true) afterMoved :=
  .completed movedEnv (by decide +kernel)

/-- Where `DOCKER-USER` sees the port of etcd itself, it is still open to the node that
has gone; behind the translation it is open to everybody. -/
theorem firewall_exposure_moved :
    afterMoved.verdict plainFilter ⟨"eth0", true, "10.0.0.3", 12379⟩ = some .accept ∧
    afterMoved.verdict plainFilter ⟨"eth0", true, "203.0.113.5", 2379⟩ = none := by
  obtain ⟨hexposure, -⟩ := firewall_exposure plainFilter rfl afterFirst_run
    afterMoved_step (p := ⟨"eth0", true, "10.0.0.3", 12379⟩) rfl (by decide)
  obtain ⟨-, htranslated, -⟩ := firewall_exposure plainFilter rfl afterFirst_run
    afterMoved_step (p := ⟨"eth0", true, "203.0.113.5", 12379⟩) rfl (by decide)
  refine ⟨?_, (htranslated (by decide)).trans (by decide +kernel)⟩
  refine (hexposure (by decide) (fun e he _ => ?_) fun _ _ => rfl).former ?_ firstEnv
    (.head _) rfl ⟨"10.0.0.3", ⟨"10.0.0.3", by decide, by decide⟩, by decide⟩
  · rw [List.mem_singleton.mp he]
    rfl
  · intro env henv
    cases List.mem_singleton.mp henv

theorem postgres_clients_moved :
    afterMoved.verdict plainFilter ⟨"eth0", true, "192.0.2.7", 5432⟩ = some .accept :=
  (postgres_clients plainFilter (p := ⟨"eth0", true, "192.0.2.7", 5432⟩) rfl afterFirst_run
    afterMoved_step rfl rfl).clients
    ⟨"192.0.2.7/32", by decide +kernel, "192.0.2.7/32", by decide, by decide⟩ 0
    (by decide +kernel)

end VideoStorage.Deploy
