import VideoStorage.Foundation.Script
import VideoStorage.Foundation.Text
import VideoStorage.Foundation.Int64

/-!
# The firewall script

`apply-firewall.sh` runs at every start of its container: it takes its stale rules
out of `DOCKER-USER` and appends, for each port of the cluster, an `ACCEPT` for each
node and a `DROP` for everybody else. The read-only clients of Postgres have a chain
of their own. Other rules of `DOCKER-USER` are not its own, and it does not touch
them.
-/

namespace VideoStorage.Deploy

open Foundation Prog

/-! ## Rules and packets -/

/-- `-j`; the last is `YRAL_POSTGRES_READONLY`. -/
inductive Target
  | accept
  | drop
  | readonly
  deriving DecidableEq, Repr

/-- A rule with `-p tcp --dport`; `source` is what `-s` was given, or the network
that it stands for. -/
structure PortRule (S : Type) where
  extIf : Option String := none
  dport : ℕ
  source : Option S := none
  target : Target
  deriving DecidableEq, Repr

inductive ChainRule (F Net : Type)
  | own (r : PortRule Net)
  | foreign (f : F)
  deriving DecidableEq

namespace ChainRule

variable {F Net : Type}

def own? : ChainRule F Net → Option (PortRule Net)
  | .own r => some r
  | .foreign _ => none

def foreign? : ChainRule F Net → Option F
  | .own _ => none
  | .foreign f => some f

end ChainRule

/-- A packet as `DOCKER-USER` sees it. -/
structure Packet (Addr : Type) where
  inIf : String
  tcp : Bool
  source : Addr
  dport : ℕ

inductive Verdict
  | accept
  | drop
  | returned
  deriving DecidableEq, Repr

/-- What iptables makes of addresses and interfaces, and the rules of others: their
verdict on a packet, and whether the line of their listing has `DROP` for its target
and `dpt:5432` somewhere. -/
structure Netfilter (F Net Addr : Type) where
  parse : String → Option Net
  contains : Net → Addr → Bool
  matchesIf : String → String → Bool
  verdict : F → Packet Addr → Option Verdict
  lists : F → Bool

/-- `DOCKER-USER`, and the networks that the read-only chain accepts. -/
structure Chains (F Net : Type) where
  dockerUser : List (ChainRule F Net)
  readonly : Option (List Net)

section Verdict

variable {F Net Addr : Type} (nf : Netfilter F Net Addr)

def PortRule.Matches (p : Packet Addr) (r : PortRule Net) : Prop :=
  p.tcp = true ∧ p.dport = r.dport ∧ (∀ i ∈ r.extIf, nf.matchesIf i p.inIf = true) ∧
    ∀ n ∈ r.source, nf.contains n p.source = true

instance (p : Packet Addr) (r : PortRule Net) : Decidable (r.Matches nf p) :=
  inferInstanceAs (Decidable (_ ∧ _ ∧ _ ∧ _))

/-- The read-only chain accepts the source. -/
def Chains.admits (t : Chains F Net) (source : Addr) : Bool :=
  (t.readonly.getD []).any fun n => nf.contains n source

/-- The verdict of a rule of the script, if the read-only chain accepts or not. -/
def PortRule.verdict (admitted : Bool) (p : Packet Addr) (r : PortRule Net) : Option Verdict :=
  if r.Matches nf p then
    match r.target with
    | .accept => some .accept
    | .drop => some .drop
    | .readonly => if admitted then some .accept else none
  else none

def ChainRule.verdict (admitted : Bool) (p : Packet Addr) : ChainRule F Net → Option Verdict
  | .own r => r.verdict nf admitted p
  | .foreign f => nf.verdict f p

/-- The first rule with a verdict decides. -/
def Chains.verdict (t : Chains F Net) (p : Packet Addr) : Option Verdict :=
  t.dockerUser.findSome? fun r => r.verdict nf (t.admits nf p.source) p

/-- `awk '$2 == "DROP" && /dpt:5432/'` on the line of a rule. -/
def ChainRule.lists : ChainRule F Net → Bool
  | .own r => r.target = .drop && startsWith "5432" (decimalText r.dport)
  | .foreign f => nf.lists f

end Verdict

/-! ## Commands -/

/-- The commands on the two chains; addresses are still texts. -/
inductive FirewallCall
  /-- `iptables -N` -/
  | newChain
  /-- `iptables -F` -/
  | flushChain
  | appendReadonly (cidr : String)
  | delete (r : PortRule String)
  | append (r : PortRule String)
  /-- `iptables -L --line-numbers | awk` -/
  | dropLine
  | insert (line : ℕ) (r : PortRule String)
  deriving DecidableEq, Repr

@[reducible] def FirewallCall.Reply : FirewallCall → Type
  | .dropLine => Option ℕ
  | _ => Bool

abbrev Firewall : Type → Type := Prog FirewallCall FirewallCall.Reply

section Commands

variable {F Net Addr : Type} [DecidableEq F] [DecidableEq Net] (nf : Netfilter F Net Addr)

/-- The rule that iptables stores, unless it rejects the address. -/
def Netfilter.resolve (r : PortRule String) : Option (PortRule Net) :=
  match r.source with
  | none => some ⟨r.extIf, r.dport, none, r.target⟩
  | some text => (nf.parse text).map fun n => ⟨r.extIf, r.dport, some n, r.target⟩

/-- The exit status of a command, and the chains it leaves. `-D` takes out the first
rule that is the same, and fails only where there is none; `-N` only where there is the
chain. -/
def iptables : Machine FirewallCall FirewallCall.Reply (Chains F Net)
  | .newChain, t =>
      match t.readonly with
      | none => (true, { t with readonly := some [] })
      | some _ => (false, t)
  | .flushChain, t =>
      match t.readonly with
      | none => (false, t)
      | some _ => (true, { t with readonly := some [] })
  | .appendReadonly cidr, t =>
      match nf.parse cidr, t.readonly with
      | some n, some nets => (true, { t with readonly := some (nets ++ [n]) })
      | _, _ => (false, t)
  | .delete r, t =>
      match nf.resolve r with
      | some r => (decide (.own r ∈ t.dockerUser),
          { t with dockerUser := t.dockerUser.erase (.own r) })
      | none => (false, t)
  | .append r, t =>
      match nf.resolve r with
      | some r => (true, { t with dockerUser := t.dockerUser ++ [.own r] })
      | none => (false, t)
  | .dropLine, t => ((t.dockerUser.findIdx? (·.lists nf)).map (· + 1), t)
  | .insert line r, t =>
      match nf.resolve r with
      | some r => (true, { t with dockerUser := t.dockerUser.insertIdx (line - 1) (.own r) })
      | none => (false, t)

end Commands

/-! ## The script -/

/-- `EXT_IF` and the environment. -/
structure FirewallEnv where
  extIf : String
  server1 : String
  server2 : String
  server3 : String
  allowlist : String
  deriving DecidableEq, Repr

namespace FirewallEnv

variable (env : FirewallEnv)

def servers : List String := [env.server1, env.server2, env.server3]

/-- The words of the allow-list, a mask added where there is none. -/
def cidrs : List String :=
  ((env.allowlist.toList.splitOnP fun c => c == ' ' || c == '\t' || c == '\n').filter
    (· ≠ [])).map fun w =>
      if '/' ∈ w then String.ofList w else String.ofList w ++ "/32"

end FirewallEnv

def clusterPorts : List ℕ := [15432, 18008, 12379, 12380]

/-- `ports` of the compose file: what Docker publishes these ports for. -/
def published : ℕ → Option ℕ
  | 15432 => some 5432
  | 18008 => some 8008
  | 12379 => some 2379
  | 12380 => some 2380
  | _ => none

/-- A packet for a published port behind `nat/PREROUTING`, where Docker has put in the
port of the container. -/
def Packet.translated {Addr : Type} (p : Packet Addr) : Packet Addr :=
  { p with dport := (published p.dport).getD p.dport }

section Script

variable (env : FirewallEnv) (port : ℕ)

/-- What is deleted for a port, whether it is there or not. -/
def staleRules : List (PortRule String) :=
  { dport := port, target := .drop } ::
    (env.servers.map fun s => { dport := port, source := some s, target := .accept }) ++
    { extIf := some env.extIf, dport := port, target := .drop } ::
    (env.servers.map fun s =>
      { extIf := some env.extIf, dport := port, source := some s, target := .accept }) ++
    [{ extIf := some env.extIf, dport := port, target := .readonly }]

/-- What is appended for a port. -/
def freshRules : List (PortRule String) :=
  (env.servers.map fun s =>
    { extIf := some env.extIf, dport := port, source := some s, target := .accept }) ++
    (if port = 15432 ∧ env.allowlist ≠ "" then
      [{ extIf := some env.extIf, dport := port, target := .readonly }] else []) ++
    [{ extIf := some env.extIf, dport := port, target := .drop }]

/-- The jump for Postgres behind Docker's address translation. -/
def postgresJump : PortRule String where
  dport := 5432
  target := .readonly

/-- Each with `|| true`. -/
def deleteAll : List (PortRule String) → Firewall Unit
  | [] => pure ()
  | r :: rs => do
      let _ ← issue (FirewallCall.delete r)
      deleteAll rs

/-- Under `set -e`; `false` when the script has ended. -/
def appendAll : List (PortRule String) → Firewall Bool
  | [] => pure true
  | r :: rs => do
      match ← issue (FirewallCall.append r) with
      | true => appendAll rs
      | false => pure false

def appendReadonlyAll : List String → Firewall Bool
  | [] => pure true
  | cidr :: cidrs => do
      match ← issue (FirewallCall.appendReadonly cidr) with
      | true => appendReadonlyAll cidrs
      | false => pure false

def setPort : Firewall Bool := do
  deleteAll (staleRules env port)
  appendAll (freshRules env port)

def setPorts : List ℕ → Firewall Bool
  | [] => pure true
  | port :: ports => do
      match ← setPort env port with
      | true => setPorts ports
      | false => pure false

/-- The last part, on the port of the container. -/
def admitReadonly : Firewall Bool :=
  if env.allowlist ≠ "" then do
    let _ ← issue (FirewallCall.delete postgresJump)
    match ← issue FirewallCall.dropLine with
    | some line => issue (FirewallCall.insert line postgresJump)
    | none => pure true
  else pure true

/-- The script up to its last `echo`, and whether it gets there. -/
def applyFirewall : Firewall Bool := do
  let _ ← issue FirewallCall.newChain
  match ← issue FirewallCall.flushChain with
  | false => pure false
  | true => do
      match ← appendReadonlyAll env.cidrs with
      | false => pure false
      | true => do
          match ← setPorts env clusterPorts with
          | false => pure false
          | true => admitReadonly env

end Script

/-! ## Starts of the container -/

inductive FirewallEvent
  /-- The script got to its end, or not. -/
  | ran (env : FirewallEnv) (completed : Bool)
  | others
  deriving DecidableEq, Repr

section Runs

variable {F Net Addr : Type} [DecidableEq F] [DecidableEq Net]

/-- The script's rules in `DOCKER-USER`, in order. -/
def Chains.own (t : Chains F Net) : List (PortRule Net) :=
  t.dockerUser.filterMap ChainRule.own?

def Chains.foreign (t : Chains F Net) : List F :=
  t.dockerUser.filterMap ChainRule.foreign?

/-- A run that completes, one that ends early or is killed, and what others do to
their own rules in between. -/
inductive FirewallStep (nf : Netfilter F Net Addr) :
    Chains F Net → FirewallEvent → Chains F Net → Prop
  | completed {t : Chains F Net} (env : FirewallEnv)
      (h : ((applyFirewall env).eval (iptables nf) t).1 = true) :
      FirewallStep nf t (.ran env true) ((applyFirewall env).eval (iptables nf) t).2
  | stopped (t : Chains F Net) (env : FirewallEnv) (n : ℕ) :
      FirewallStep nf t (.ran env false) ((applyFirewall env).cut (iptables nf) n t)
  | others {t t' : Chains F Net} (hown : t'.own = t.own)
      (hreadonly : t'.readonly = t.readonly) : FirewallStep nf t .others t'

end Runs

end VideoStorage.Deploy
