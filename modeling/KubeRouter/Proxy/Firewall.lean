/-
  The IPVS service firewall (`proxy/src/firewall.rs`, `ServiceSync::sync_firewall` in
  `proxy/src/sync.rs`).

  Rules are the argument lists the source passes to iptables; `parseArgs` gives their meaning.
  A list it does not know belongs to somebody else, and its meaning is a parameter. Sets are
  filled by the lines of an `ipset restore -exist` payload, which runs line by line and stops at
  the first line that is refused.

  Every call may fail, with none, some or all of its effect. A pass refreshes the sets of every
  family and then, until that has succeeded once for all families, installs the chain and the
  jump from INPUT.

  Proved:
  * `restore_filled`, `restore_frame`: the sets after a payload that was accepted.
  * `setup_spec`: the chain and the jump after a setup that succeeded.
  * `quiet_setup`: a setup puts the jump on top of INPUT or leaves INPUT alone, however it ends.
  * `firewall_exact`: after every pass that succeeds, whatever passes came before it and however
    they ended, a packet at the jump is rejected exactly when it is for a service address and
    neither essential ICMP nor for a service port nor for a local address; any other packet is
    accepted or goes on unchanged.
-/
import KubeRouter.Lib.Program
import KubeRouter.Netpol.Kernel
import KubeRouter.Proxy.Model

namespace KubeRouter.Proxy.Firewall

open Filter (Flow Mark)
open Netpol (IcmpType Packet Transport)
open Program

/-! ## Names and rules -/

def localIpsSet : String := "kube-router-local-ips"
def serviceIpsSet : String := "kube-router-svip"
def serviceIpPortsSet : String := "kube-router-svip-prt"
def firewallChain : String := "KUBE-ROUTER-SERVICES"

def ipsetName (base : String) (ipv6 : Bool) : String := if ipv6 then "inet6:" ++ base else base

/-- `ipset` wants the number for SCTP. -/
def protoName : Protocol → String
  | .Tcp => "tcp"
  | .Udp => "udp"
  | .Sctp => "132"

/-- The arguments of a rule. -/
abbrev Args := List String

/-- Type and comment of the essential ICMP messages. -/
def icmpTypes (ipv6 : Bool) : List (String × String) :=
  [("echo-request", "allow icmp echo requests"),
   ("destination-unreachable", "allow icmp destination unreachable messages"),
   ("time-exceeded", "allow icmp time exceeded messages")] ++
  if ipv6 then
    [("neighbor-solicitation", "allow icmp neighbor solicitation messages"),
     ("neighbor-advertisement", "allow icmp neighbor advertisement messages"),
     ("echo-reply", "allow icmp echo reply messages")]
  else []

def icmpAcceptRules (ipv6 : Bool) : List Args :=
  let (proto, typeFlag) := if ipv6 then ("ipv6-icmp", "--icmpv6-type") else ("icmp", "--icmp-type")
  (icmpTypes ipv6).map fun (t, comment) =>
    ["-m", "comment", "--comment", comment, "-p", proto, typeFlag, t, "-j", "ACCEPT"]

def serviceAcceptRule (ipv6 : Bool) : Args :=
  ["-m", "comment", "--comment", "allow input traffic to ipvs services", "-m", "set",
    "--match-set", ipsetName serviceIpPortsSet ipv6, "dst,dst", "-j", "ACCEPT"]

def rejectRule (ipv6 : Bool) : Args :=
  ["-m", "comment", "--comment", "reject all unexpected traffic to service IPs", "-m", "set", "!",
    "--match-set", ipsetName localIpsSet ipv6, "dst", "-j", "REJECT", "--reject-with",
    if ipv6 then "icmp6-port-unreachable" else "icmp-port-unreachable"]

def inputJumpRule (ipv6 : Bool) : Args :=
  ["-m", "comment", "--comment", "handle traffic to IPVS service IPs in custom chain", "-m", "set",
    "--match-set", ipsetName serviceIpsSet ipv6, "dst", "-j", firewallChain]

/-- The chain, in order. -/
def chainRules (ipv6 : Bool) : List Args :=
  icmpAcceptRules ipv6 ++ [serviceAcceptRule ipv6, rejectRule ipv6]

/-! ## Sets -/

inductive SetKind where
  | hashIp
  | hashIpPort
deriving DecidableEq, Repr

/-- An entry; a port stands with its protocol as it is spelled. -/
inductive Entry where
  | ip (a : IpAddr)
  | ipPort (a : IpAddr) (proto : String) (port : UInt16)
deriving DecidableEq, Repr

def Entry.kind : Entry → SetKind
  | ip _ => .hashIp
  | ipPort _ _ _ => .hashIpPort

def Entry.addr : Entry → IpAddr
  | ip a => a
  | ipPort a _ _ => a

/-- A line of the payload; `create` carries `timeout 0 -exist`. -/
inductive Line where
  | create (set : String) (kind : SetKind) (family : IpFamily)
  | flush (set : String)
  | add (set : String) (entry : Entry)
deriving DecidableEq, Repr

abbrev ServiceVip := IpAddr × Protocol × UInt16

def familyOf (ipv6 : Bool) : IpFamily := if ipv6 then .V6 else .V4

def createLines (ipv6 : Bool) (base : String) (kind : SetKind) : List Line :=
  [.create (ipsetName base ipv6) kind (familyOf ipv6), .flush (ipsetName base ipv6)]

def vipLines (ipv6 : Bool) (v : ServiceVip) : List Line :=
  [.add (ipsetName serviceIpsSet ipv6) (.ip v.1),
   .add (ipsetName serviceIpPortsSet ipv6) (.ipPort v.1 (protoName v.2.1) v.2.2)]

def ipsetRestorePayload (localIps : List IpAddr) (serviceVips : List ServiceVip) (ipv6 : Bool) :
    List Line :=
  createLines ipv6 localIpsSet .hashIp ++ createLines ipv6 serviceIpsSet .hashIp ++
    createLines ipv6 serviceIpPortsSet .hashIpPort ++
    (localIps.filter (·.isIpv6 == ipv6)).map (fun ip =>
      .add (ipsetName localIpsSet ipv6) (.ip ip)) ++
    (serviceVips.filter (·.1.isIpv6 == ipv6)).flatMap (vipLines ipv6)

/-! ## Tools -/

structure IpSet where
  kind : SetKind
  family : IpFamily
  members : List Entry
deriving DecidableEq, Repr

abbrev Sets := String → Option IpSet

/-- One line of `ipset restore -exist`. -/
def Line.exec (sets : Sets) : Line → Option Sets
  | create set kind family =>
    match sets set with
    | none => some (Function.update sets set (some ⟨kind, family, []⟩))
    | some s => if s.kind = kind ∧ s.family = family then some sets else none
  | flush set => (sets set).map fun s => Function.update sets set (some { s with members := [] })
  | add set entry =>
    match sets set with
    | none => none
    | some s =>
      if s.kind = entry.kind ∧ s.family = entry.addr.family then
        some (Function.update sets set (some { s with members := entry :: s.members }))
      else none

/-- The lines in order, up to one that is refused. -/
def execLines : List Line → Sets → Sets × Bool
  | [], sets => (sets, true)
  | l :: ls, sets =>
    match l.exec sets with
    | some sets => execLines ls sets
    | none => (sets, false)

/-- The filter table of one family: the rules of its chains. -/
abbrev Chains := String → Option (List Args)

/-- `-N` and `-F`. -/
def clear (chain : String) (t : Chains) : Option Chains := some (Function.update t chain (some []))

/-- `-C`, and `-A` if there is no such rule. -/
def append (chain : String) (args : Args) (t : Chains) : Option Chains :=
  (t chain).map fun rules =>
    if args ∈ rules then t else Function.update t chain (some (rules ++ [args]))

/-- `-C`, and `-I 1` if there is no such rule. -/
def insertTop (chain : String) (args : Args) (t : Chains) : Option Chains :=
  (t chain).map fun rules =>
    if args ∈ rules then t else Function.update t chain (some (args :: rules))

/-- `-D`, whatever comes of it. -/
def remove (chain : String) (args : Args) (t : Chains) : Option Chains :=
  some (match t chain with
    | some rules => Function.update t chain (some (rules.erase args))
    | none => t)

/-! ## Passes -/

structure FirewallError where
  message : String
deriving DecidableEq, Repr

/-- A call that fails, and how many of its lines have taken effect. -/
structure Fault where
  message : String
  reached : Nat
deriving DecidableEq, Repr

/-- The tables by family (true for IPv6), the sets, the number of calls made, and the flag of
`ServiceSync`. -/
structure World where
  chains : Bool → Chains
  sets : Sets
  calls : Nat := 0
  setupDone : Bool := false

def World.setChains (w : World) (ipv6 : Bool) (t : Chains) : World :=
  { w with chains := Function.update w.chains ipv6 t }

variable (faults : Nat → Option Fault)

/-- A call of an iptables handler. -/
def iptables (ipv6 : Bool) (refused : String) (act : Chains → Option Chains) :
    Prog World FirewallError PUnit := do
  let w ← get
  modify fun w => { w with calls := w.calls + 1 }
  match faults w.calls, act (w.chains ipv6) with
  | some f, some t => do
    if f.reached > 0 then modify fun w => w.setChains ipv6 t
    throw ⟨f.message⟩
  | some f, none => throw ⟨f.message⟩
  | none, some t => modify fun w => w.setChains ipv6 t
  | none, none => throw ⟨refused⟩

def clearChain (ipv6 : Bool) (chain : String) : Prog World FirewallError PUnit :=
  iptables faults ipv6 ("failed to flush " ++ chain) (clear chain)

def appendUnique (ipv6 : Bool) (chain : String) (args : Args) : Prog World FirewallError PUnit :=
  iptables faults ipv6 ("failed to append to " ++ chain) (append chain args)

def ensureTop (ipv6 : Bool) (chain : String) (args : Args) : Prog World FirewallError PUnit :=
  iptables faults ipv6 ("failed to insert into " ++ chain) (insertTop chain args)

def delete (ipv6 : Bool) (chain : String) (args : Args) : Prog World FirewallError PUnit :=
  iptables faults ipv6 "" (remove chain args)

/-- `SystemFwIpset::restore`. -/
def restore (payload : List Line) : Prog World FirewallError PUnit := do
  let w ← get
  modify fun w => { w with calls := w.calls + 1 }
  match faults w.calls with
  | some f => do
    modify fun w => { w with sets := (execLines (payload.take f.reached) w.sets).1 }
    throw ⟨f.message⟩
  | none => do
    modify fun w => { w with sets := (execLines payload w.sets).1 }
    if !(execLines payload w.sets).2 then throw ⟨"ipset restore failed"⟩

def setupFirewall (ipv6 permitAll : Bool) : Prog World FirewallError PUnit := do
  clearChain faults ipv6 firewallChain
  if permitAll then delete faults ipv6 "INPUT" (inputJumpRule ipv6)
  else do
    (icmpAcceptRules ipv6).forM (appendUnique faults ipv6 firewallChain)
    appendUnique faults ipv6 firewallChain (serviceAcceptRule ipv6)
    appendUnique faults ipv6 firewallChain (rejectRule ipv6)
    ensureTop faults ipv6 "INPUT" (inputJumpRule ipv6)

def syncFirewallSets (localIps : List IpAddr) (serviceVips : List ServiceVip) (ipv6 : Bool) :
    Prog World FirewallError PUnit :=
  restore faults (ipsetRestorePayload localIps serviceVips ipv6)

/-- The addresses of `all_local_ips` and the applied services at a pass. -/
structure Pass where
  localIps : List IpAddr
  applied : List IpvsService

def Pass.vips (p : Pass) : List ServiceVip := p.applied.map fun s => (s.addr, s.protocol, s.port)

/-- `ServiceSync::sync_firewall`; `families` are those of the handlers. -/
def syncFirewall (families : List Bool) (permitAll : Bool) (p : Pass) :
    Prog World FirewallError PUnit := do
  if families.isEmpty then return
  families.forM (syncFirewallSets faults p.localIps p.vips)
  let w ← get
  if !w.setupDone then do
    families.forM fun ipv6 => setupFirewall faults ipv6 permitAll
    modify fun w => { w with setupDone := true }

/-! ## Meaning of the rules -/

inductive Cond where
  /-- `-p <name>` -/
  | proto (name : String)
  /-- `--icmp-type <name>` -/
  | icmpType (name : String)
  /-- `--icmpv6-type <name>` -/
  | icmpv6Type (name : String)
  /-- `-m set [!] --match-set <set> <flags>` -/
  | matchSet (negated : Bool) (set : String) (flags : String)
  /-- A match of somebody else's rule. -/
  | foreign (args : Args)
deriving DecidableEq, Repr

abbrev Rule := Filter.Rule String Cond

/-- Conditions and target of a rule of this firewall. -/
def parseArgs : Args → Option (List Cond × Filter.Target String)
  | "-m" :: "comment" :: "--comment" :: _ :: rest => parseArgs rest
  | "-p" :: name :: rest => (parseArgs rest).map fun r => (.proto name :: r.1, r.2)
  | "--icmp-type" :: name :: rest => (parseArgs rest).map fun r => (.icmpType name :: r.1, r.2)
  | "--icmpv6-type" :: name :: rest => (parseArgs rest).map fun r => (.icmpv6Type name :: r.1, r.2)
  | "-m" :: "set" :: "!" :: "--match-set" :: set :: flags :: rest =>
    (parseArgs rest).map fun r => (.matchSet true set flags :: r.1, r.2)
  | "-m" :: "set" :: "--match-set" :: set :: flags :: rest =>
    (parseArgs rest).map fun r => (.matchSet false set flags :: r.1, r.2)
  | ["-j", "ACCEPT"] => some ([], .accept)
  | ["-j", "REJECT", "--reject-with", with_] => some ([], .reject with_)
  | ["-j", chain] => some ([], .jump chain)
  | _ => none

/-- The number of a protocol, by name or as a number. -/
def protoNumber (name : String) : Option Nat :=
  if name = "icmp" then some 1
  else if name = "tcp" then some 6
  else if name = "udp" then some 17
  else if name = "ipv6-icmp" then some 58
  else if name.toList.isEmpty || !name.toList.all (·.isDigit) then none
  else some (Nat.ofDigitChars 10 name.toList 0)

/-- The protocol number of a packet. -/
def number : Transport → Option Nat
  | .icmp _ => some 1
  | .tcp _ => some 6
  | .udp _ => some 17
  | .icmpv6 _ => some 58
  | .sctp _ => some 132
  | .other name => protoNumber name

def icmpName : IcmpType → Option String
  | .echoRequest => some "echo-request"
  | .destinationUnreachable => some "destination-unreachable"
  | .timeExceeded => some "time-exceeded"
  | .neighborSolicitation => some "neighbor-solicitation"
  | .neighborAdvertisement => some "neighbor-advertisement"
  | .echoReply => some "echo-reply"
  | .other _ => none

/-- What a set is asked for by the flags of a match. -/
def asks (pkt : Packet) (flags : String) : Entry → Bool
  | .ip a => flags == "dst" && a == pkt.dst
  | .ipPort a proto port =>
    flags == "dst,dst" && a == pkt.dst && (protoNumber proto).isSome &&
      protoNumber proto == number pkt.transport && pkt.transport.dport == some port

section Meaning

/- `other` is the meaning of somebody else's rules, `holdsOther` that of their matches. -/
variable (sets : Sets) (holdsOther : Args → Bool) (pkt : Packet)

def Cond.holds : Cond → Bool
  | proto name => (protoNumber name).isSome && protoNumber name == number pkt.transport
  | icmpType name =>
    match pkt.transport with
    | .icmp kind => icmpName kind == some name
    | _ => false
  | icmpv6Type name =>
    match pkt.transport with
    | .icmpv6 kind => icmpName kind == some name
    | _ => false
  | matchSet negated set flags =>
    ((sets set).any fun s => s.members.any (asks pkt flags)) != negated
  | foreign args => holdsOther args

variable (other : String → Args → Rule)

def ruleOf (chain : String) (args : Args) : Rule :=
  match parseArgs args with
  | some (conds, target) => { chain := chain, conds := conds, target := target }
  | none => other chain args

def rulesOf (t : Chains) (chain : String) : List Rule :=
  ((t chain).getD []).map (ruleOf other chain)

/-- What becomes of a packet with mark `m` at the jump from INPUT. -/
def atJump (t : Chains) (ipv6 : Bool) (n : Nat) (m : Mark) : Flow :=
  Filter.evalRules (Cond.holds sets holdsOther pkt)
    (Filter.evalChain (Cond.holds sets holdsOther pkt) (rulesOf other t) (n + 1))
    [ruleOf other "INPUT" (inputJumpRule ipv6)] m

end Meaning

/-! ## What a payload leaves -/

def Line.set : Line → String
  | create set _ _ => set
  | flush set => set
  | add set _ => set

/-- What a line makes of its set, if it is accepted. -/
def Line.cell : Line → Option IpSet → Option IpSet
  | create _ kind family, none => some ⟨kind, family, []⟩
  | create _ kind family, some s => if s.kind = kind ∧ s.family = family then some s else none
  | flush _, cell => cell.map fun s => { s with members := [] }
  | add _ _, none => none
  | add _ entry, some s =>
    if s.kind = entry.kind ∧ s.family = entry.addr.family then
      some { s with members := entry :: s.members }
    else none

/-- What the lines that name a set make of it. -/
def cellAfter (ls : List Line) (cell : Option IpSet) : Option IpSet :=
  ls.foldl (fun cell l => l.cell cell) cell

theorem Line.exec_eq (sets : Sets) (l : Line) :
    l.exec sets = (l.cell (sets l.set)).map fun s => Function.update sets l.set (some s) := by
  cases l with
  | create set kind family =>
    simp only [exec, cell, Line.set]
    cases h : sets set with
    | none => rfl
    | some s =>
      -- an existing set is kept
      have hkeep : Function.update sets set (some s) = sets := by
        rw [← h, Function.update_eq_self]
      by_cases hs : s.kind = kind ∧ s.family = family
      · simp [hs, hkeep]
      · simp [hs]
  | flush set =>
    simp only [exec, cell, Line.set]
    cases sets set <;> rfl
  | add set entry =>
    simp only [exec, cell, Line.set]
    cases h : sets set with
    | none => rfl
    | some s =>
      by_cases hs : s.kind = entry.kind ∧ s.family = entry.addr.family <;> simp [hs]

/-- Seen from one set, an accepted payload is the lines that name it. -/
theorem execLines_cell (ls : List Line) (sets : Sets) (h : (execLines ls sets).2 = true)
    (name : String) :
    (execLines ls sets).1 name = cellAfter (ls.filter (·.set == name)) (sets name) := by
  induction ls generalizing sets with
  | nil => rfl
  | cons l ls ih =>
    rw [execLines, Line.exec_eq] at h ⊢
    cases hcell : l.cell (sets l.set) with
    | none => simp [hcell] at h
    | some s =>
      simp only [hcell, Option.map_some] at h ⊢
      rw [ih _ h, List.filter_cons]
      by_cases hname : l.set = name
      · subst hname
        simp [cellAfter, hcell]
      · rw [Function.update_of_ne (Ne.symm hname)]
        simp [hname]

/-- A set that an accepted payload names exists after it. -/
theorem execLines_isSome (ls : List Line) (sets : Sets) (h : (execLines ls sets).2 = true)
    (name : String) (hname : (sets name).isSome ∨ ∃ l ∈ ls, l.set = name) :
    ((execLines ls sets).1 name).isSome := by
  induction ls generalizing sets with
  | nil => simpa [execLines] using hname
  | cons l ls ih =>
    rw [execLines, Line.exec_eq] at h ⊢
    cases hcell : l.cell (sets l.set) with
    | none => simp [hcell] at h
    | some s =>
      simp only [hcell, Option.map_some] at h ⊢
      refine ih _ h ?_
      by_cases hl : l.set = name
      · left
        simp [hl]
      · rw [Function.update_of_ne (Ne.symm hl)]
        simpa [hl] using hname

/-- Adding entries that fit the set. -/
theorem cellAfter_add (name : String) (kind : SetKind) (family : IpFamily) (es : List Entry)
    (hes : ∀ e ∈ es, e.kind = kind ∧ e.addr.family = family) (members : List Entry) :
    cellAfter (es.map (Line.add name)) (some ⟨kind, family, members⟩) =
      some ⟨kind, family, es.reverse ++ members⟩ := by
  induction es generalizing members with
  | nil => rfl
  | cons e es ih =>
    obtain ⟨hk, hf⟩ := hes e List.mem_cons_self
    have hstep : Line.cell (.add name e) (some ⟨kind, family, members⟩) =
        some ⟨kind, family, e :: members⟩ := by
      simp [Line.cell, hk, hf]
    have htail := ih (fun e he => hes e (List.mem_cons_of_mem _ he)) (e :: members)
    unfold cellAfter at htail ⊢
    rw [List.map_cons, List.foldl_cons, hstep, htail]
    simp

theorem cellAfter_add_none (name : String) (es : List Entry) :
    cellAfter (es.map (Line.add name)) none = none := by
  induction es with
  | nil => rfl
  | cons e es ih => exact ih

/-- Create, flush and add. -/
def refill (name : String) (kind : SetKind) (family : IpFamily) (es : List Entry) : List Line :=
  [.create name kind family, .flush name] ++ es.map (Line.add name)

/-- A set that is refilled holds exactly the entries, unless it is refused. -/
theorem cellAfter_refill (name : String) (kind : SetKind) (family : IpFamily) (es : List Entry)
    (hes : ∀ e ∈ es, e.kind = kind ∧ e.addr.family = family) (old : Option IpSet)
    (h : (cellAfter (refill name kind family es) old).isSome) :
    cellAfter (refill name kind family es) old = some ⟨kind, family, es.reverse⟩ := by
  have hadd := cellAfter_add name kind family es hes []
  rw [List.append_nil] at hadd
  cases old with
  | none => exact hadd
  | some s =>
    by_cases hs : s.kind = kind ∧ s.family = family
    · have hcreate : Line.cell (.create name kind family) (some s) = some s := if_pos hs
      have hrefill : cellAfter (refill name kind family es) (some s) =
          cellAfter (es.map (Line.add name)) (some { s with members := [] }) := by
        unfold cellAfter refill
        rw [List.foldl_append, List.foldl_cons, hcreate]
        rfl
      obtain ⟨rfl, rfl⟩ := hs
      rw [hrefill]
      exact hadd
    · have hcreate : Line.cell (.create name kind family) (some s) = none := if_neg hs
      have hrefill : cellAfter (refill name kind family es) (some s) =
          cellAfter (es.map (Line.add name)) none := by
        unfold cellAfter refill
        rw [List.foldl_append, List.foldl_cons, hcreate]
        rfl
      rw [hrefill, cellAfter_add_none] at h
      exact absurd h (by decide)

/-! ### The three sets -/

def localEntries (ipv6 : Bool) (localIps : List IpAddr) : List Entry :=
  (localIps.filter (·.isIpv6 == ipv6)).map .ip

def serviceEntries (ipv6 : Bool) (vips : List ServiceVip) : List Entry :=
  (vips.filter (·.1.isIpv6 == ipv6)).map fun v => .ip v.1

def portEntries (ipv6 : Bool) (vips : List ServiceVip) : List Entry :=
  (vips.filter (·.1.isIpv6 == ipv6)).map fun v => .ipPort v.1 (protoName v.2.1) v.2.2

/-- The sets of a family hold the local addresses and the services. -/
structure Filled (ipv6 : Bool) (localIps : List IpAddr) (vips : List ServiceVip) (sets : Sets) :
    Prop where
  locals : sets (ipsetName localIpsSet ipv6) =
    some ⟨.hashIp, familyOf ipv6, (localEntries ipv6 localIps).reverse⟩
  services : sets (ipsetName serviceIpsSet ipv6) =
    some ⟨.hashIp, familyOf ipv6, (serviceEntries ipv6 vips).reverse⟩
  ports : sets (ipsetName serviceIpPortsSet ipv6) =
    some ⟨.hashIpPort, familyOf ipv6, (portEntries ipv6 vips).reverse⟩

section Payload

variable (localIps : List IpAddr) (vips : List ServiceVip) (ipv6 : Bool)

theorem localIpsSet_ne : ipsetName localIpsSet ipv6 ≠ ipsetName serviceIpsSet ipv6 ∧
    ipsetName localIpsSet ipv6 ≠ ipsetName serviceIpPortsSet ipv6 := by
  cases ipv6 <;> decide

theorem serviceIpsSet_ne : ipsetName serviceIpsSet ipv6 ≠ ipsetName serviceIpPortsSet ipv6 := by
  cases ipv6 <;> decide

theorem payload_locals :
    (ipsetRestorePayload localIps vips ipv6).filter (·.set == ipsetName localIpsSet ipv6) =
      refill (ipsetName localIpsSet ipv6) .hashIp (familyOf ipv6) (localEntries ipv6 localIps) := by
  obtain ⟨h1, h2⟩ := localIpsSet_ne ipv6
  simp [ipsetRestorePayload, createLines, vipLines, refill, localEntries, Line.set,
    h1.symm, h2.symm,
    List.filter_flatMap, List.filter_map, Function.comp_def]

theorem payload_services :
    (ipsetRestorePayload localIps vips ipv6).filter (·.set == ipsetName serviceIpsSet ipv6) =
      refill (ipsetName serviceIpsSet ipv6) .hashIp (familyOf ipv6) (serviceEntries ipv6 vips) := by
  have h1 := beq_eq_false_iff_ne.mpr (localIpsSet_ne ipv6).1
  have h2 := serviceIpsSet_ne ipv6
  simp [ipsetRestorePayload, createLines, vipLines, refill, serviceEntries, Line.set, h1, h2.symm,
    List.filter_flatMap, List.filter_map, Function.comp_def, ← List.map_eq_flatMap]

theorem payload_ports :
    (ipsetRestorePayload localIps vips ipv6).filter (·.set == ipsetName serviceIpPortsSet ipv6) =
      refill (ipsetName serviceIpPortsSet ipv6) .hashIpPort (familyOf ipv6)
        (portEntries ipv6 vips) := by
  have h1 := beq_eq_false_iff_ne.mpr (localIpsSet_ne ipv6).2
  have h2 := serviceIpsSet_ne ipv6
  simp [ipsetRestorePayload, createLines, vipLines, refill, portEntries, Line.set, h1, h2,
    List.filter_flatMap, List.filter_map, Function.comp_def, ← List.map_eq_flatMap]

theorem family_of_isIpv6 {a : IpAddr} (h : a.isIpv6 = ipv6) : a.family = familyOf ipv6 := by
  subst h
  cases a <;> rfl

/-- The names of one family are those of no other. -/
theorem payload_other (l : Line) (hl : l ∈ ipsetRestorePayload localIps vips ipv6) (base : String)
    (hbase : base ∈ [localIpsSet, serviceIpsSet, serviceIpPortsSet]) :
    l.set ≠ ipsetName base !ipv6 := by
  have hset : l.set ∈ [localIpsSet, serviceIpsSet, serviceIpPortsSet].map (ipsetName · ipv6) := by
    simp only [ipsetRestorePayload, createLines, vipLines, List.mem_append, List.mem_map,
      List.mem_flatMap, List.mem_cons, List.not_mem_nil, or_false] at hl
    obtain (((((rfl | rfl) | (rfl | rfl)) | (rfl | rfl)) | ⟨_, _, rfl⟩) | ⟨_, _, (rfl | rfl)⟩) :=
      hl <;>
      simp [Line.set]
  have hnames : ∀ ipv6 : Bool,
      ∀ name ∈ [localIpsSet, serviceIpsSet, serviceIpPortsSet].map (ipsetName · ipv6),
      ∀ base ∈ [localIpsSet, serviceIpsSet, serviceIpPortsSet], name ≠ ipsetName base !ipv6 := by
    decide
  exact hnames ipv6 l.set hset base hbase

/-- The sets after a payload that was accepted. -/
theorem restore_filled (sets : Sets)
    (h : (execLines (ipsetRestorePayload localIps vips ipv6) sets).2 = true) :
    Filled ipv6 localIps vips (execLines (ipsetRestorePayload localIps vips ipv6) sets).1 := by
  -- every set is named, and its own lines refill it
  have hfill : ∀ name kind es, (∀ e ∈ es, Entry.kind e = kind ∧ e.addr.family = familyOf ipv6) →
      (ipsetRestorePayload localIps vips ipv6).filter (·.set == name) =
        refill name kind (familyOf ipv6) es →
      (execLines (ipsetRestorePayload localIps vips ipv6) sets).1 name =
        some ⟨kind, familyOf ipv6, es.reverse⟩ := by
    intro name kind es hes hlines
    have hcell := execLines_cell _ sets h name
    have hsome : ((execLines (ipsetRestorePayload localIps vips ipv6) sets).1 name).isSome := by
      refine execLines_isSome _ sets h name (.inr ⟨.create name kind (familyOf ipv6), ?_, rfl⟩)
      have hmem : Line.create name kind (familyOf ipv6) ∈ refill name kind (familyOf ipv6) es := by
        simp [refill]
      rw [← hlines] at hmem
      exact List.mem_of_mem_filter hmem
    rw [hlines] at hcell
    rw [hcell] at hsome ⊢
    exact cellAfter_refill name kind (familyOf ipv6) es hes _ hsome
  refine ⟨hfill _ _ _ ?_ (payload_locals localIps vips ipv6),
    hfill _ _ _ ?_ (payload_services localIps vips ipv6),
    hfill _ _ _ ?_ (payload_ports localIps vips ipv6)⟩
  · intro e he
    obtain ⟨a, ha, rfl⟩ := List.mem_map.mp he
    exact ⟨rfl, family_of_isIpv6 ipv6 (beq_iff_eq.mp (List.mem_filter.mp ha).2)⟩
  · intro e he
    obtain ⟨v, hv, rfl⟩ := List.mem_map.mp he
    exact ⟨rfl, family_of_isIpv6 ipv6 (beq_iff_eq.mp (List.mem_filter.mp hv).2)⟩
  · intro e he
    obtain ⟨v, hv, rfl⟩ := List.mem_map.mp he
    exact ⟨rfl, family_of_isIpv6 ipv6 (beq_iff_eq.mp (List.mem_filter.mp hv).2)⟩

/-- The sets of the other family stay. -/
theorem restore_frame (sets : Sets)
    (h : (execLines (ipsetRestorePayload localIps vips ipv6) sets).2 = true) {ips : List IpAddr}
    {vs : List ServiceVip} (hfilled : Filled (!ipv6) ips vs sets) :
    Filled (!ipv6) ips vs (execLines (ipsetRestorePayload localIps vips ipv6) sets).1 := by
  have hsame : ∀ base ∈ [localIpsSet, serviceIpsSet, serviceIpPortsSet],
      (execLines (ipsetRestorePayload localIps vips ipv6) sets).1 (ipsetName base !ipv6) =
        sets (ipsetName base !ipv6) := by
    intro base hbase
    have hnone : (ipsetRestorePayload localIps vips ipv6).filter (·.set == ipsetName base !ipv6) =
        [] := by
      refine List.filter_eq_nil_iff.mpr fun l hl => ?_
      simpa using payload_other localIps vips ipv6 l hl base hbase
    rw [execLines_cell _ sets h, hnone]
    rfl
  refine ⟨?_, ?_, ?_⟩
  · rw [hsame localIpsSet (by simp)]
    exact hfilled.locals
  · rw [hsame serviceIpsSet (by simp)]
    exact hfilled.services
  · rw [hsame serviceIpPortsSet (by simp)]
    exact hfilled.ports

end Payload

/-! ## What a pass leaves -/

theorem restore_spec (payload : List Line) (w : World) :
    wp (restore faults payload)
      (fun _ u => u.chains = w.chains ∧ u.setupDone = w.setupDone ∧
        (execLines payload w.sets).2 = true ∧ u.sets = (execLines payload w.sets).1)
      (fun _ u => u.chains = w.chains ∧ u.setupDone = w.setupDone) w := by
  unfold restore
  rw [wp_bind, wp_get, wp_bind, wp_modify]
  cases faults w.calls with
  | some f =>
    rw [wp_bind, wp_modify, wp_throw]
    exact ⟨rfl, rfl⟩
  | none =>
    rw [wp_bind, wp_modify]
    cases hok : (execLines payload w.sets).2 with
    | true => exact ⟨rfl, rfl, rfl, rfl⟩
    | false => exact ⟨rfl, rfl⟩

/-- A handler's call changes the table of its family, fully or not at all. -/
theorem iptables_spec (ipv6 : Bool) (refused : String) (act : Chains → Option Chains) (w : World) :
    wp (iptables faults ipv6 refused act)
      (fun _ u => u.sets = w.sets ∧ u.setupDone = w.setupDone ∧
        ∃ t, act (w.chains ipv6) = some t ∧ u.chains = Function.update w.chains ipv6 t)
      (fun _ u => u.setupDone = w.setupDone ∧ (u.chains = w.chains ∨
        ∃ t, act (w.chains ipv6) = some t ∧ u.chains = Function.update w.chains ipv6 t)) w := by
  unfold iptables
  rw [wp_bind, wp_get, wp_bind, wp_modify]
  cases faults w.calls with
  | some f =>
    cases hact : act (w.chains ipv6) with
    | none => exact ⟨rfl, .inl rfl⟩
    | some t =>
      by_cases hreached : f.reached > 0
      · simp only [hreached, if_true]
        rw [wp_bind, wp_modify, wp_throw]
        exact ⟨rfl, .inr ⟨t, rfl, rfl⟩⟩
      · simp only [hreached, if_false]
        exact ⟨rfl, .inl rfl⟩
  | none =>
    cases hact : act (w.chains ipv6) with
    | none => exact ⟨rfl, .inl rfl⟩
    | some t => exact ⟨rfl, rfl, t, rfl, rfl⟩

/-! ### INPUT -/

/-- INPUT of `t` is that of `t0`, or the jump was put on top where it was missing. -/
def JumpedFrom (ipv6 : Bool) (t0 t : Chains) : Prop :=
  t "INPUT" = t0 "INPUT" ∨
    ∃ rules, t0 "INPUT" = some rules ∧ inputJumpRule ipv6 ∉ rules ∧
      t "INPUT" = some (inputJumpRule ipv6 :: rules)

theorem JumpedFrom.trans {ipv6 : Bool} {t0 t1 t2 : Chains} (h : JumpedFrom ipv6 t0 t1)
    (h' : JumpedFrom ipv6 t1 t2) : JumpedFrom ipv6 t0 t2 := by
  obtain heq | ⟨rules, hrules, hnot, htop⟩ := h
  · unfold JumpedFrom
    rw [← heq]
    exact h'
  · obtain heq' | ⟨rules', hrules', hnot', _⟩ := h'
    · exact .inr ⟨rules, hrules, hnot, heq'.trans htop⟩
    · -- the jump is there already
      rw [htop] at hrules'
      obtain rfl := Option.some.inj hrules'
      exact absurd List.mem_cons_self hnot'

/-- The flag stays, and nothing else happens to the INPUT chains. -/
structure Quiet (w u : World) : Prop where
  flag : u.setupDone = w.setupDone
  input : ∀ ipv6, JumpedFrom ipv6 (w.chains ipv6) (u.chains ipv6)

theorem Quiet.refl (w : World) : Quiet w w := ⟨rfl, fun _ => .inl rfl⟩

theorem Quiet.trans (w u v : World) (h : Quiet w u) (h' : Quiet u v) : Quiet w v :=
  ⟨h'.flag.trans h.flag, fun ipv6 => (h.input ipv6).trans (h'.input ipv6)⟩

theorem Quiet.of_chains {w u : World} (hflag : u.setupDone = w.setupDone)
    (h : u.chains = w.chains) : Quiet w u := by
  refine ⟨hflag, fun ipv6 => .inl ?_⟩
  rw [h]

theorem Quiet.of_update {w u : World} {ipv6 : Bool} {t : Chains}
    (hflag : u.setupDone = w.setupDone) (hu : u.chains = Function.update w.chains ipv6 t)
    (h : JumpedFrom ipv6 (w.chains ipv6) t) : Quiet w u := by
  refine ⟨hflag, fun other => ?_⟩
  rw [hu]
  by_cases heq : other = ipv6
  · subst heq
    rw [Function.update_self]
    exact h
  · rw [Function.update_of_ne heq]
    exact .inl rfl

theorem quiet_iptables {ipv6 : Bool} {refused : String} {act : Chains → Option Chains}
    (h : ∀ t t', act t = some t' → JumpedFrom ipv6 t t') :
    Within Quiet (iptables faults ipv6 refused act) := by
  intro w
  refine wp_mono (iptables_spec faults ipv6 refused act w) ?_ ?_
  · rintro _ u ⟨_, hflag, t, hact, hu⟩
    exact .of_update hflag hu (h _ t hact)
  · rintro _ u ⟨hflag, hu | ⟨t, hact, hu⟩⟩
    · exact .of_chains hflag hu
    · exact .of_update hflag hu (h _ t hact)

theorem firewallChain_ne : "INPUT" ≠ firewallChain := by decide

theorem quiet_append (ipv6 : Bool) (args : Args) :
    Within Quiet (appendUnique faults ipv6 firewallChain args) := by
  refine quiet_iptables faults fun t t' h => .inl ?_
  unfold append at h
  obtain ⟨rules, _, rfl⟩ := Option.map_eq_some_iff.mp h
  by_cases hmem : args ∈ rules
  · rw [if_pos hmem]
  · rw [if_neg hmem, Function.update_of_ne firewallChain_ne]

theorem quiet_setup (ipv6 : Bool) : Within Quiet (setupFirewall faults ipv6 false) := by
  unfold setupFirewall
  refine .bind Quiet.trans ?_ fun _ => .bind Quiet.trans ?_ fun _ => .bind Quiet.trans ?_ fun _ =>
    .bind Quiet.trans ?_ fun _ => ?_
  · refine quiet_iptables faults fun t t' h => .inl ?_
    obtain rfl := Option.some.inj h
    exact Function.update_of_ne firewallChain_ne _ _
  · exact .forM Quiet.refl Quiet.trans _ fun args _ => quiet_append faults ipv6 args
  · exact quiet_append faults ipv6 _
  · exact quiet_append faults ipv6 _
  · refine quiet_iptables faults fun t t' h => ?_
    unfold insertTop at h
    obtain ⟨rules, hrules, rfl⟩ := Option.map_eq_some_iff.mp h
    by_cases hmem : inputJumpRule ipv6 ∈ rules
    · rw [if_pos hmem]
      exact .inl rfl
    · rw [if_neg hmem]
      exact .inr ⟨rules, hrules, hmem, Function.update_self ..⟩

/-! ### The chain -/

/-- The chain of a family stands, and INPUT jumps to it. -/
def Installed (ipv6 : Bool) (w : World) : Prop :=
  w.chains ipv6 firewallChain = some (chainRules ipv6) ∧
    ∃ rules, w.chains ipv6 "INPUT" = some rules ∧ inputJumpRule ipv6 ∈ rules

/-- The chain of a family holds `rules`; sets and the other family are those of `w`. -/
structure Built (w : World) (ipv6 : Bool) (rules : List Args) (u : World) : Prop where
  sets : u.sets = w.sets
  rules : u.chains ipv6 firewallChain = some rules
  other : u.chains (!ipv6) = w.chains (!ipv6)

theorem clear_spec (ipv6 : Bool) (w : World) :
    wp (clearChain faults ipv6 firewallChain) (fun _ u => Built w ipv6 [] u)
      (fun _ _ => True) w := by
  refine wp_mono (iptables_spec faults ipv6 _ _ w) ?_ (fun _ _ _ => trivial)
  rintro _ u ⟨hsets, _, t, hact, hu⟩
  obtain rfl := Option.some.inj hact
  refine ⟨hsets, ?_, ?_⟩
  · rw [hu, Function.update_self, Function.update_self]
  · rw [hu, Function.update_of_ne (by cases ipv6 <;> decide)]

section Built

variable {w : World} {ipv6 : Bool} {rules : List Args} {u : World} (h : Built w ipv6 rules u)

include h

theorem append_spec (args : Args) (hargs : args ∉ rules) :
    wp (appendUnique faults ipv6 firewallChain args)
      (fun _ v => Built w ipv6 (rules ++ [args]) v) (fun _ _ => True) u := by
  refine wp_mono (iptables_spec faults ipv6 _ _ u) ?_ (fun _ _ _ => trivial)
  rintro _ v ⟨hsets, _, t, hact, hv⟩
  unfold append at hact
  rw [h.rules, Option.map_some, if_neg hargs] at hact
  obtain rfl := Option.some.inj hact
  refine ⟨hsets.trans h.sets, ?_, ?_⟩
  · rw [hv, Function.update_self, Function.update_self]
  · rw [hv, Function.update_of_ne (by cases ipv6 <;> decide), h.other]

theorem ensureTop_spec (args : Args) :
    wp (ensureTop faults ipv6 "INPUT" args)
      (fun _ v => Built w ipv6 rules v ∧ ∃ top, v.chains ipv6 "INPUT" = some top ∧ args ∈ top)
      (fun _ _ => True) u := by
  refine wp_mono (iptables_spec faults ipv6 _ _ u) ?_ (fun _ _ _ => trivial)
  rintro _ v ⟨hsets, _, t, hact, hv⟩
  unfold insertTop at hact
  obtain ⟨old, hold, rfl⟩ := Option.map_eq_some_iff.mp hact
  have hother : v.chains (!ipv6) = w.chains (!ipv6) := by
    rw [hv, Function.update_of_ne (by cases ipv6 <;> decide), h.other]
  by_cases hmem : args ∈ old
  · rw [if_pos hmem] at hv
    refine ⟨⟨hsets.trans h.sets, ?_, hother⟩, old, ?_, hmem⟩
    · rw [hv, Function.update_self, h.rules]
    · rw [hv, Function.update_self, hold]
  · rw [if_neg hmem] at hv
    refine ⟨⟨hsets.trans h.sets, ?_, hother⟩, args :: old, ?_, List.mem_cons_self⟩
    · rw [hv, Function.update_self, Function.update_of_ne firewallChain_ne.symm, h.rules]
    · rw [hv, Function.update_self, Function.update_self]

end Built

theorem chainRules_nodup (ipv6 : Bool) : (chainRules ipv6).Nodup := by
  cases ipv6 <;> decide

/-- A rule of the chain is none of those in front of it. -/
theorem chainRules_fresh (ipv6 : Bool) {front : List Args} {args : Args} (back : List Args)
    (h : chainRules ipv6 = front ++ args :: back) : args ∉ front := by
  intro hmem
  have hnodup := chainRules_nodup ipv6
  rw [h] at hnodup
  exact (List.nodup_append.mp hnodup).2.2 args hmem args List.mem_cons_self rfl

theorem setup_spec (ipv6 : Bool) (w : World) :
    wp (setupFirewall faults ipv6 false)
      (fun _ u => Installed ipv6 u ∧ u.sets = w.sets ∧ u.chains (!ipv6) = w.chains (!ipv6))
      (fun _ _ => True) w := by
  unfold setupFirewall
  rw [wp_bind]
  refine wp_mono (clear_spec faults ipv6 w) (fun _ w1 h1 => ?_) (fun _ _ he => he)
  simp only [Bool.false_eq_true, if_false]
  rw [wp_bind]
  have hicmp : wp ((icmpAcceptRules ipv6).forM (appendUnique faults ipv6 firewallChain))
      (fun _ u => Built w ipv6 (icmpAcceptRules ipv6) u) (fun _ _ => True) w1 := by
    refine wp_forM (Built w ipv6) (icmpAcceptRules ipv6) h1 fun front args back u heq hu => ?_
    refine append_spec faults hu args
      (chainRules_fresh ipv6 (back ++ [serviceAcceptRule ipv6, rejectRule ipv6]) ?_)
    rw [chainRules, heq, List.append_assoc, List.cons_append]
  refine wp_mono hicmp (fun _ w2 h2 => ?_) (fun _ _ he => he)
  rw [wp_bind]
  refine wp_mono (append_spec faults h2 _ (chainRules_fresh ipv6 [rejectRule ipv6] rfl))
      (fun _ w3 h3 => ?_)
    (fun _ _ he => he)
  rw [wp_bind]
  refine wp_mono (append_spec faults h3 (rejectRule ipv6) ?_) (fun _ w4 h4 => ?_) (fun _ _ he => he)
  · refine chainRules_fresh ipv6 [] ?_
    rw [chainRules, List.append_assoc, List.singleton_append]
  refine wp_mono (ensureTop_spec faults h4 (inputJumpRule ipv6)) (fun _ u hu => ?_)
    (fun _ _ he => he)
  refine ⟨⟨?_, hu.2⟩, hu.1.sets, hu.1.other⟩
  rw [hu.1.rules, chainRules, List.append_assoc, List.singleton_append]

/-! ### Runs -/

/-- Once the flag is up, the chains stand. -/
structure Inv (families : List Bool) (w0 w : World) : Prop where
  installed : w.setupDone = true → ∀ ipv6 ∈ families, Installed ipv6 w
  input : ∀ ipv6, JumpedFrom ipv6 (w0.chains ipv6) (w.chains ipv6)

theorem syncSets_spec (families : List Bool) (p : Pass) (w : World) :
    wp (families.forM (syncFirewallSets faults p.localIps p.vips))
      (fun _ u => u.chains = w.chains ∧ u.setupDone = w.setupDone ∧
        ∀ ipv6 ∈ families, Filled ipv6 p.localIps p.vips u.sets)
      (fun _ u => u.chains = w.chains ∧ u.setupDone = w.setupDone) w := by
  refine wp_forM (fun done (u : World) => u.chains = w.chains ∧ u.setupDone = w.setupDone ∧
    ∀ ipv6 ∈ done, Filled ipv6 p.localIps p.vips u.sets) families ⟨rfl, rfl, by simp⟩ ?_
  rintro done ipv6 rest u _ ⟨hchains, hflag, hfilled⟩
  refine wp_mono (restore_spec faults _ u) ?_ ?_
  · rintro _ v ⟨hchains', hflag', hok, hsets⟩
    refine ⟨hchains'.trans hchains, hflag'.trans hflag, fun other hother => ?_⟩
    rw [hsets]
    by_cases heq : other = ipv6
    · subst heq
      exact restore_filled p.localIps p.vips other u.sets hok
    · have hne : other = !ipv6 := Bool.eq_not_of_ne heq
      subst hne
      refine restore_frame p.localIps p.vips ipv6 u.sets hok (hfilled _ ?_)
      simpa [heq] using hother
  · rintro _ v ⟨hchains', hflag'⟩
    exact ⟨hchains'.trans hchains, hflag'.trans hflag⟩

theorem setupAll_spec (families : List Bool) (w : World) :
    wp (families.forM fun ipv6 => setupFirewall faults ipv6 false)
      (fun _ u => u.sets = w.sets ∧ ∀ ipv6 ∈ families, Installed ipv6 u) (fun _ _ => True) w := by
  refine wp_forM (fun done (u : World) => u.sets = w.sets ∧
      ∀ ipv6 ∈ done, Installed ipv6 u) families
    ⟨rfl, by simp⟩ ?_
  rintro done ipv6 rest u _ ⟨hsets, hdone⟩
  refine wp_mono (setup_spec faults ipv6 u) ?_ (fun _ _ he => he)
  rintro _ v ⟨hinstalled, hsets', hframe⟩
  refine ⟨hsets'.trans hsets, fun other hother => ?_⟩
  by_cases heq : other = ipv6
  · subst heq
    exact hinstalled
  · have hne : other = !ipv6 := Bool.eq_not_of_ne heq
    subst hne
    have hold := hdone (!ipv6) (by simpa [heq] using hother)
    unfold Installed at hold ⊢
    rw [hframe]
    exact hold

theorem Inv.of_chains {families : List Bool} {w0 w u : World} (h : Inv families w0 w)
    (hchains : u.chains = w.chains) (hflag : u.setupDone = w.setupDone) : Inv families w0 u := by
  refine ⟨fun hup ipv6 hmem => ?_, fun ipv6 => ?_⟩
  · have hold := h.installed (hflag ▸ hup) ipv6 hmem
    unfold Installed at hold ⊢
    rw [hchains]
    exact hold
  · rw [hchains]
    exact h.input ipv6

/-- A pass keeps the invariant however it ends; one that succeeds leaves the chains and the sets
of all families as they should be. -/
theorem pass_spec (families : List Bool) (p : Pass) {w0 w : World} (h : Inv families w0 w) :
    wp (syncFirewall faults families false p)
      (fun _ u => Inv families w0 u ∧
        ∀ ipv6 ∈ families, Installed ipv6 u ∧ Filled ipv6 p.localIps p.vips u.sets)
      (fun _ u => Inv families w0 u) w := by
  unfold syncFirewall
  cases hnone : families.isEmpty with
  | true =>
    obtain rfl := List.isEmpty_iff.mp hnone
    exact ⟨h, by simp⟩
  | false =>
    simp only [Bool.false_eq_true, if_false]
    rw [wp_bind]
    refine wp_mono (syncSets_spec faults families p w) ?_
      (fun _ u hu => h.of_chains hu.1 hu.2)
    rintro _ w1 ⟨hchains, hflag, hfilled⟩
    have h1 := h.of_chains hchains hflag
    rw [wp_bind, wp_get]
    cases hdone : w1.setupDone with
    | true =>
      refine ⟨h1, fun ipv6 hmem => ?_⟩
      exact ⟨h1.installed hdone ipv6 hmem, hfilled ipv6 hmem⟩
    | false =>
      simp only [Bool.not_false, if_true]
      rw [wp_bind]
      have hquiet : Within Quiet (families.forM fun ipv6 => setupFirewall faults ipv6 false) :=
        .forM Quiet.refl Quiet.trans families fun ipv6 _ => quiet_setup faults ipv6
      refine wp_mono (wp_and (setupAll_spec faults families w1) (hquiet w1)) ?_ ?_
      · rintro _ u ⟨⟨hsets, hinstalled⟩, hq⟩
        rw [wp_modify]
        refine ⟨⟨fun _ => hinstalled, fun ipv6 => (h1.input ipv6).trans (hq.input ipv6)⟩, ?_⟩
        intro ipv6 hmem
        refine ⟨hinstalled ipv6 hmem, ?_⟩
        show Filled ipv6 p.localIps p.vips u.sets
        rw [hsets]
        exact hfilled ipv6 hmem
      · rintro _ u ⟨_, hq⟩
        refine ⟨fun hup => ?_, fun ipv6 => (h1.input ipv6).trans (hq.input ipv6)⟩
        rw [hq.flag, hdone] at hup
        exact absurd hup (by decide)

/-- The state after some passes, however they ended. -/
def runPasses (families : List Bool) (permitAll : Bool) (w : World) (passes : List Pass) : World :=
  passes.foldl (fun w p => (Prog.exec (syncFirewall faults families permitAll p) w).2) w

theorem inv_runPasses {families : List Bool} {w0 : World} (passes : List Pass) (w : World)
    (h : Inv families w0 w) : Inv families w0 (runPasses faults families false w passes) := by
  induction passes generalizing w with
  | nil => exact h
  | cons p passes ih =>
    have hstep : Inv families w0 (Prog.exec (syncFirewall faults families false p) w).2 :=
      wp_state (wp_mono (pass_spec faults families p h) (fun _ _ hu => hu.1) (fun _ _ hu => hu))
    exact ih _ hstep

/-! ## What becomes of a packet -/

/-- The essential ICMP messages of a family. -/
def essential (ipv6 : Bool) : Transport → Bool
  | .icmp kind =>
    !ipv6 && [IcmpType.echoRequest, .destinationUnreachable, .timeExceeded].contains kind
  | .icmpv6 kind =>
    ipv6 && [IcmpType.echoRequest, .destinationUnreachable, .timeExceeded, .neighborSolicitation,
      .neighborAdvertisement, .echoReply].contains kind
  | _ => false

/-- The packet is for the port of the service. -/
def carries (s : IpvsService) : Transport → Bool
  | .tcp port => s.protocol == .Tcp && port == s.port
  | .udp port => s.protocol == .Udp && port == s.port
  | .sctp port => s.protocol == .Sctp && port == s.port
  | _ => false

/-- For a service address, and neither essential nor for a service nor for this host. -/
def Unexpected (ipv6 : Bool) (p : Pass) (pkt : Packet) : Prop :=
  (∃ s ∈ p.applied, s.addr = pkt.dst) ∧ essential ipv6 pkt.transport = false ∧
    (¬∃ s ∈ p.applied, s.addr = pkt.dst ∧ carries s pkt.transport = true) ∧ pkt.dst ∉ p.localIps

section Packets

variable (sets : Sets) (holdsOther : Args → Bool) (pkt : Packet) (other : String → Args → Rule)
  {ipv6 : Bool} {p : Pass}

theorem ruleOf_jump : ruleOf other "INPUT" (inputJumpRule ipv6) =
    { chain := "INPUT", conds := [.matchSet false (ipsetName serviceIpsSet ipv6) "dst"],
      target := .jump firewallChain } := by
  cases ipv6 <;> rfl

theorem ruleOf_service : ruleOf other firewallChain (serviceAcceptRule ipv6) =
    { chain := firewallChain,
      conds := [.matchSet false (ipsetName serviceIpPortsSet ipv6) "dst,dst"],
      target := .accept } := by
  cases ipv6 <;> rfl

theorem ruleOf_reject : ruleOf other firewallChain (rejectRule ipv6) =
    { chain := firewallChain, conds := [.matchSet true (ipsetName localIpsSet ipv6) "dst"],
      target := .reject (if ipv6 then "icmp6-port-unreachable" else "icmp-port-unreachable") } := by
  cases ipv6 <;> rfl

theorem map_ruleOf_icmp : (icmpAcceptRules ipv6).map (ruleOf other firewallChain) =
    (icmpTypes ipv6).map fun t =>
      { chain := firewallChain
        conds := if ipv6 then [.proto "ipv6-icmp", .icmpv6Type t.1]
          else [.proto "icmp", .icmpType t.1]
        target := .accept } := by
  cases ipv6 <;> rfl

theorem icmp_applies (m : Mark) :
    ((icmpAcceptRules ipv6).map (ruleOf other firewallChain)).any
      (·.applies (Cond.holds sets holdsOther pkt) m) = essential ipv6 pkt.transport := by
  rw [map_ruleOf_icmp]
  obtain ⟨src, dst, transport, _, _, _, _, _, _, _⟩ := pkt
  cases ipv6 with
  | false =>
    cases transport with
    | icmp kind => cases kind <;> rfl
    | icmpv6 kind => rfl
    | tcp port => rfl
    | udp port => rfl
    | sctp port => rfl
    | other name => simp [icmpTypes, Filter.Rule.applies, Cond.holds, essential]
  | true =>
    cases transport with
    | icmp kind => rfl
    | icmpv6 kind => cases kind <;> rfl
    | tcp port => rfl
    | udp port => rfl
    | sctp port => rfl
    | other name => simp [icmpTypes, Filter.Rule.applies, Cond.holds, essential]

variable {sets pkt}

theorem isIpv6_dst (hpkt : pkt.family = familyOf ipv6) : pkt.dst.isIpv6 = ipv6 := by
  have hdst : pkt.dst.family = familyOf ipv6 := pkt.sameFamily.symm.trans hpkt
  cases hd : pkt.dst <;> cases ipv6 <;> simp_all [IpAddr.isIpv6, IpAddr.family, familyOf]

/-- A match looks for an entry that answers the packet. -/
theorem matchSet_iff {name : String} {kind : SetKind} {family : IpFamily} {es : List Entry}
    (h : sets name = some ⟨kind, family, es.reverse⟩) (flags : String) :
    Cond.holds sets holdsOther pkt (.matchSet false name flags) = true ↔
      ∃ e ∈ es, asks pkt flags e = true := by
  simp [Cond.holds, h]

theorem matchSet_not (name flags : String) :
    Cond.holds sets holdsOther pkt (.matchSet true name flags) =
      !Cond.holds sets holdsOther pkt (.matchSet false name flags) := by
  simp [Cond.holds]

theorem services_match (hsets : Filled ipv6 p.localIps p.vips sets)
    (hpkt : pkt.family = familyOf ipv6) :
    Cond.holds sets holdsOther pkt (.matchSet false (ipsetName serviceIpsSet ipv6) "dst") = true ↔
      ∃ s ∈ p.applied, s.addr = pkt.dst := by
  have hdst := isIpv6_dst hpkt
  rw [matchSet_iff holdsOther hsets.services]
  simp only [serviceEntries, Pass.vips, List.mem_map, List.mem_filter]
  constructor
  · rintro ⟨_, ⟨_, ⟨⟨s, hs, rfl⟩, _⟩, rfl⟩, hasks⟩
    exact ⟨s, hs, by simpa [asks] using hasks⟩
  · rintro ⟨s, hs, haddr⟩
    refine ⟨.ip s.addr, ⟨_, ⟨⟨s, hs, rfl⟩, ?_⟩, rfl⟩, ?_⟩
    · simpa [haddr] using hdst
    · simpa [asks] using haddr

theorem locals_match (hsets : Filled ipv6 p.localIps p.vips sets)
    (hpkt : pkt.family = familyOf ipv6) :
    Cond.holds sets holdsOther pkt (.matchSet false (ipsetName localIpsSet ipv6) "dst") = true ↔
      pkt.dst ∈ p.localIps := by
  have hdst := isIpv6_dst hpkt
  rw [matchSet_iff holdsOther hsets.locals]
  simp only [localEntries, List.mem_map, List.mem_filter]
  constructor
  · rintro ⟨_, ⟨a, ⟨ha, _⟩, rfl⟩, hasks⟩
    have heq : a = pkt.dst := by simpa [asks] using hasks
    exact heq ▸ ha
  · intro hmem
    refine ⟨.ip pkt.dst, ⟨pkt.dst, ⟨hmem, ?_⟩, rfl⟩, ?_⟩
    · simpa using hdst
    · simp [asks]

/-- The protocol as the set spells it is that of the packet. -/
theorem asks_port (s : IpvsService) :
    asks pkt "dst,dst" (.ipPort s.addr (protoName s.protocol) s.port) = true ↔
      s.addr = pkt.dst ∧ carries s pkt.transport = true := by
  have hnumber : protoNumber (protoName s.protocol) =
      some (match s.protocol with | .Tcp => 6 | .Udp => 17 | .Sctp => 132) := by
    cases s.protocol with
    | Tcp => rfl
    | Udp => rfl
    | Sctp => rfl
  simp only [asks, hnumber, Option.isSome_some, beq_self_eq_true, Bool.true_and, Bool.and_true,
    Bool.and_eq_true, beq_iff_eq]
  rw [and_assoc]
  refine and_congr_right fun _ => ?_
  cases hproto : s.protocol <;> cases pkt.transport <;>
    simp [number, carries, Transport.dport, hproto]

theorem ports_match (hsets : Filled ipv6 p.localIps p.vips sets)
    (hpkt : pkt.family = familyOf ipv6) :
    Cond.holds sets holdsOther pkt (.matchSet false (ipsetName serviceIpPortsSet ipv6) "dst,dst") =
      true ↔ ∃ s ∈ p.applied, s.addr = pkt.dst ∧ carries s pkt.transport = true := by
  have hdst := isIpv6_dst hpkt
  rw [matchSet_iff holdsOther hsets.ports]
  simp only [portEntries, Pass.vips, List.mem_map, List.mem_filter]
  constructor
  · rintro ⟨_, ⟨_, ⟨⟨s, hs, rfl⟩, _⟩, rfl⟩, hasks⟩
    exact ⟨s, hs, (asks_port s).mp hasks⟩
  · rintro ⟨s, hs, h⟩
    refine ⟨_, ⟨_, ⟨⟨s, hs, rfl⟩, ?_⟩, rfl⟩, (asks_port s).mpr h⟩
    simpa [h.1] using hdst

/-- What the chain does, by what its rules ask. -/
theorem evalChain_firewall {t : Chains} (ht : t firewallChain = some (chainRules ipv6)) (n : Nat)
    (m : Mark) :
    Filter.evalChain (Cond.holds sets holdsOther pkt) (rulesOf other t) (n + 1) firewallChain m =
      if essential ipv6 pkt.transport then .done .accept
      else if Cond.holds sets holdsOther pkt
        (.matchSet false (ipsetName serviceIpPortsSet ipv6) "dst,dst") then .done .accept
      else if Cond.holds sets holdsOther pkt
        (.matchSet false (ipsetName localIpsSet ipv6) "dst") then
        .next m
      else .done .reject := by
  have hicmp : ∀ r ∈ (icmpAcceptRules ipv6).map (ruleOf other firewallChain),
      r.target.verdict = some .accept := by
    intro r hr
    rw [map_ruleOf_icmp] at hr
    obtain ⟨t, _, rfl⟩ := List.mem_map.mp hr
    rfl
  have hrules : rulesOf other t firewallChain =
      (icmpAcceptRules ipv6).map (ruleOf other firewallChain) ++
      [ruleOf other firewallChain (serviceAcceptRule ipv6),
        ruleOf other firewallChain (rejectRule ipv6)] := by
    rw [rulesOf, ht, chainRules]
    simp
  rw [Filter.evalChain, hrules, Filter.evalRules_append, Filter.evalRules_verdicts _ _ hicmp,
    icmp_applies, ruleOf_service, ruleOf_reject]
  cases essential ipv6 pkt.transport with
  | true => rfl
  | false =>
    simp only [Bool.false_eq_true, if_false, Flow.next_andThen, Filter.evalRules,
      Filter.Rule.applies, List.all_cons, List.all_nil, Bool.and_true, Option.all_none,
        matchSet_not]
    cases Cond.holds sets holdsOther pkt
      (.matchSet false (ipsetName serviceIpPortsSet ipv6) "dst,dst") <;>
      cases Cond.holds sets holdsOther pkt
        (.matchSet false (ipsetName localIpsSet ipv6) "dst") <;> rfl

theorem atJump_eq {t : Chains} (ht : t firewallChain = some (chainRules ipv6))
    (n : Nat) (m : Mark) :
    atJump sets holdsOther pkt other t ipv6 n m =
      if Cond.holds sets holdsOther pkt (.matchSet false (ipsetName serviceIpsSet ipv6) "dst") then
        if essential ipv6 pkt.transport then .done .accept
        else if Cond.holds sets holdsOther pkt
          (.matchSet false (ipsetName serviceIpPortsSet ipv6) "dst,dst") then .done .accept
        else if Cond.holds sets holdsOther pkt
          (.matchSet false (ipsetName localIpsSet ipv6) "dst") then
          .next m
        else .done .reject
      else .next m := by
  unfold atJump
  rw [ruleOf_jump]
  simp only [Filter.evalRules, Filter.Rule.applies, List.all_cons, List.all_nil, Bool.and_true,
    Option.all_none, evalChain_firewall holdsOther other ht]
  split
  · split
    · rfl
    · split
      · rfl
      · split <;> rfl
  · rfl

end Packets

/-! ## Exactness -/

section Exact

variable {sets : Sets} {ipv6 : Bool} {p : Pass} {pkt : Packet} {t : Chains}
  (hsets : Filled ipv6 p.localIps p.vips sets) (ht : t firewallChain = some (chainRules ipv6))
  (hpkt : pkt.family = familyOf ipv6) (holdsOther : Args → Bool) (other : String → Args → Rule)
  (n : Nat) (m : Mark)

include hsets ht hpkt

theorem atJump_unexpected (h : Unexpected ipv6 p pkt) :
    atJump sets holdsOther pkt other t ipv6 n m = .done .reject := by
  obtain ⟨hservice, hicmp, hport, hlocal⟩ := h
  rw [← services_match holdsOther hsets hpkt] at hservice
  rw [← ports_match holdsOther hsets hpkt] at hport
  rw [← locals_match holdsOther hsets hpkt] at hlocal
  rw [atJump_eq holdsOther other ht, if_pos hservice, hicmp, if_neg hport, if_neg hlocal]
  rfl

theorem atJump_expected (h : ¬Unexpected ipv6 p pkt) :
    atJump sets holdsOther pkt other t ipv6 n m = .done .accept ∨
      atJump sets holdsOther pkt other t ipv6 n m = .next m := by
  rw [atJump_eq holdsOther other ht]
  split
  · next hservice =>
    split
    · exact .inl rfl
    · next hicmp =>
      split
      · exact .inl rfl
      · next hport =>
        split
        · exact .inr rfl
        · next hlocal =>
          rw [services_match holdsOther hsets hpkt] at hservice
          rw [ports_match holdsOther hsets hpkt] at hport
          rw [locals_match holdsOther hsets hpkt] at hlocal
          exact absurd ⟨hservice, Bool.eq_false_iff.mpr hicmp, hport, hlocal⟩ h
  · exact .inr rfl

end Exact

/-- Where the jump stands. -/
theorem installed_input {ipv6 : Bool} {w0 w : World} (h : Installed ipv6 w)
    (hinput : JumpedFrom ipv6 (w0.chains ipv6) (w.chains ipv6)) :
    ∃ front back, w.chains ipv6 "INPUT" = some (front ++ inputJumpRule ipv6 :: back) ∧
      (inputJumpRule ipv6 ∉ (w0.chains ipv6 "INPUT").getD [] → front = []) := by
  obtain hsame | ⟨rules, _, _, htop⟩ := hinput
  · obtain ⟨rules, hrules, hmem⟩ := h.2
    obtain ⟨front, back, rfl⟩ := List.append_of_mem hmem
    refine ⟨front, back, hrules, fun hnot => ?_⟩
    rw [← hsame, hrules, Option.getD_some] at hnot
    exact absurd hmem hnot
  · exact ⟨[], rules, htop, fun _ => rfl⟩

/-- After a pass that succeeded, whatever passes came before it and however they ended: INPUT
jumps to the chain, from its top unless it did before, and a packet at the jump is rejected
exactly when it is unexpected. -/
theorem firewall_exact (families : List Bool) (w0 : World) (hfresh : w0.setupDone = false)
    (passes : List Pass) (p : Pass)
    (hok : (Prog.exec (syncFirewall faults families false p)
      (runPasses faults families false w0 passes)).1 = .ok ⟨⟩) :
    let w := (Prog.exec (syncFirewall faults families false p)
      (runPasses faults families false w0 passes)).2
    ∀ ipv6 ∈ families,
      (∃ front back, w.chains ipv6 "INPUT" = some (front ++ inputJumpRule ipv6 :: back) ∧
        (inputJumpRule ipv6 ∉ (w0.chains ipv6 "INPUT").getD [] → front = [])) ∧
      ∀ (pkt : Packet) (holdsOther : Args → Bool) (other : String → Args → Rule)
        (n : Nat) (m : Mark),
        pkt.family = familyOf ipv6 →
        (atJump w.sets holdsOther pkt other (w.chains ipv6) ipv6 n m = .done .reject ↔
          Unexpected ipv6 p pkt) ∧
        (¬Unexpected ipv6 p pkt →
          atJump w.sets holdsOther pkt other (w.chains ipv6) ipv6 n m = .done .accept ∨
            atJump w.sets holdsOther pkt other (w.chains ipv6) ipv6 n m = .next m) := by
  intro w ipv6 hmem
  have hstart : Inv families w0 w0 := by
    refine ⟨fun hup => ?_, fun _ => .inl rfl⟩
    rw [hfresh] at hup
    exact absurd hup (by decide)
  have hrun := inv_runPasses faults passes w0 hstart
  obtain ⟨hinv, hready⟩ := wp_ok (pass_spec faults families p hrun) hok
  obtain ⟨hinstalled, hfilled⟩ := hready ipv6 hmem
  refine ⟨installed_input hinstalled (hinv.input ipv6), ?_⟩
  intro pkt holdsOther other n m hpkt
  have hexpected := atJump_expected hfilled hinstalled.1 hpkt holdsOther other n m
  refine ⟨⟨fun hreject => ?_, ?_⟩, hexpected⟩
  · by_contra h
    obtain haccept | hnext := hexpected h
    · rw [haccept] at hreject
      cases hreject
    · rw [hnext] at hreject
      cases hreject
  · exact atJump_unexpected hfilled hinstalled.1 hpkt holdsOther other n m

/-- A pass that failed on its way, then one with another service that succeeds: the chain now
rejects what goes to another port of the service address. -/
theorem second_pass_rejects :
    let svc (addr : IpAddr) : IpvsService := ⟨addr, .Sctp, 53, .Rr, {}, none⟩
    let pkt : Packet :=
      { src := .ofOctets 10 244 1 5, dst := .ofOctets 10 96 0 10, transport := .sctp 80 }
    let start : World :=
      { chains := fun _ c => if c = "INPUT" then some [] else none, sets := fun _ => none }
    let faults : Nat → Option Fault := fun i => if i = 4 then some ⟨"resource busy", 1⟩ else none
    let first : Pass := ⟨[], [svc (.ofOctets 10 96 0 11)]⟩
    let second : Pass := ⟨[.ofOctets 192 168 32 3], [svc (.ofOctets 10 96 0 10)]⟩
    ∃ w, Prog.exec (syncFirewall faults [false] false second)
        (runPasses faults [false] false start [first]) = (.ok ⟨⟩, w) ∧
      atJump w.sets (fun _ => false) pkt (fun c _ => ⟨c, [], none, .ret⟩)
        (w.chains false) false 0 0 =
        .done .reject := by
  intro svc pkt start faults first second
  have hok : (Prog.exec (syncFirewall faults [false] false second)
      (runPasses faults [false] false start [first])).1 = .ok ⟨⟩ := by decide +kernel
  have hexact := firewall_exact faults [false] start rfl [first] second hok false List.mem_cons_self
  have hunexpected : Unexpected false second pkt := by
    refine ⟨⟨svc (.ofOctets 10 96 0 10), List.mem_cons_self, rfl⟩, rfl, ?_, by decide⟩
    rintro ⟨s, hs, _, hport⟩
    obtain rfl := List.mem_singleton.mp hs
    exact absurd hport (by decide)
  obtain ⟨⟨r, w⟩, hrun⟩ : ∃ rw, Prog.exec (syncFirewall faults [false] false second)
      (runPasses faults [false] false start [first]) = rw := ⟨_, rfl⟩
  rw [hrun] at hok hexact
  obtain rfl : r = .ok ⟨⟩ := hok
  exact ⟨w, hrun, (hexact.2 pkt (fun _ => false) (fun c _ => ⟨c, [], none, .ret⟩) 0 0 rfl).1.mpr
    hunexpected⟩

end KubeRouter.Proxy.Firewall
