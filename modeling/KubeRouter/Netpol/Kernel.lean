/-
  The kernel side of the firewall: filter rules and ipsets, what they mean for a packet, and
  the tools that install them (`netpol/src/ipset.rs`, `netpol/src/iptables.rs`).

  Rules are `Filter.Rule`s over the conditions `Cond`, one constructor per iptables match the
  plan uses. Sets hold addresses (`hash:ip`) or prefixes with a `nomatch` flag (`hash:net`).

  hash:net. A lookup tries the stored prefix lengths from the longest to the shortest and the
  first stored net that contains the address decides; a `nomatch` entry decides "no match";
  adding a net again replaces its flag. Entries are kept in the order they were added, so the
  entry that decides is the last one of the longest length that contains the address.

  Tools. `ipset restore` runs a payload line by line and is taken as one atomic step: it
  succeeds as a whole or changes nothing. `iptables-restore --noflush` empties exactly the
  chains its document declares, leaves every other chain alone and refuses a document with a
  rule for a missing chain, a jump to a missing chain or a match against a missing set.
-/
import KubeRouter.Lib.Filter
import KubeRouter.Common.Naming

namespace KubeRouter.Netpol

open Filter (Mark)

/-! ## Packets -/

inductive IcmpType where
  | echoRequest
  | destinationUnreachable
  | timeExceeded
  | neighborSolicitation
  | neighborAdvertisement
  | echoReply
  | other (code : Nat)
deriving DecidableEq, Repr

/-- What `-p` and the port and ICMP matches see. -/
inductive Transport where
  | tcp (dport : UInt16)
  | udp (dport : UInt16)
  | sctp (dport : UInt16)
  | icmp (kind : IcmpType)
  | icmpv6 (kind : IcmpType)
  | other (protocol : String)
deriving DecidableEq, Repr

namespace Transport

def protocol : Transport → String
  | tcp _ => "tcp"
  | udp _ => "udp"
  | sctp _ => "sctp"
  | icmp _ => "icmp"
  | icmpv6 _ => "icmpv6"
  | other p => p

def dport : Transport → Option UInt16
  | tcp p | udp p | sctp p => some p
  | _ => none

def icmpType : Transport → Option IcmpType
  | icmp k | icmpv6 k => some k
  | _ => none

end Transport

inductive CtState where
  | new
  | established
  | related
  | invalid
deriving DecidableEq, Repr

/-- A packet as the filter hooks see it. `srcLocal` and `dstLocal` are the LOCAL address
    types, `bridged` is `--physdev-is-bridged`, `withinLimit` is the answer of `-m limit`. -/
structure Packet where
  src : IpAddr
  dst : IpAddr
  transport : Transport
  ctstate : CtState := .new
  srcLocal : Bool := false
  dstLocal : Bool := false
  bridged : Bool := false
  withinLimit : Bool := false
  mark : Mark := 0
  sameFamily : src.family = dst.family := by rfl

/-- The table (iptables or ip6tables) the packet goes through. -/
def Packet.family (pkt : Packet) : IpFamily := pkt.src.family

/-! ## Sets -/

inductive SetType where
  | hashIp
  | hashNet
deriving DecidableEq, Repr

/-- The entries of a set, by its type; a net carries its `nomatch` flag. -/
inductive SetBody where
  | hashIp (ips : List IpAddr)
  | hashNet (nets : List (IpNet × Bool))
deriving DecidableEq, Repr

def SetBody.setType : SetBody → SetType
  | hashIp _ => .hashIp
  | hashNet _ => .hashNet

def SetBody.empty : SetType → SetBody
  | .hashIp => .hashIp []
  | .hashNet => .hashNet []

/-- The entry that decides a `hash:net` lookup of `x`. -/
def decidingNet (nets : List (IpNet × Bool)) (x : IpAddr) : Option (IpNet × Bool) :=
  nets.foldl (fun best e =>
    if e.1.contains x && best.all (·.1.prefixLen ≤ e.1.prefixLen) then some e else best) none

def SetBody.mem : SetBody → IpAddr → Bool
  | hashIp ips, x => ips.contains x
  | hashNet nets, x => (decidingNet nets x).any (!·.2)

structure IpSet where
  family : IpFamily
  body : SetBody
deriving DecidableEq, Repr

/-- `synth.rs`, `IpsetPlan`: the set to (re)populate. -/
structure IpsetPlan where
  name : String
  family : IpFamily
  body : SetBody
deriving DecidableEq, Repr

def IpsetPlan.toSet (s : IpsetPlan) : IpSet := ⟨s.family, s.body⟩

/-! ## Rules -/

inductive Side where
  | src
  | dst
deriving DecidableEq, Repr

inductive Cond where
  /-- `-s <ip>` / `-d <ip>` -/
  | addr (side : Side) (ip : IpAddr)
  /-- `-s <cidr>` / `-d <cidr>` -/
  | net (side : Side) (cidr : IpNet)
  /-- `-m set [!] --match-set <set> src|dst` -/
  | matchSet (negated : Bool) (set : String) (side : Side)
  /-- `-p <protocol>` -/
  | proto (protocol : String)
  /-- `--dport <n>` -/
  | dport (port : UInt16)
  /-- `-m multiport --dports <lo>:<hi>` -/
  | dports (lo hi : UInt16)
  /-- `--icmp-type` / `--icmpv6-type` -/
  | icmpType (kind : IcmpType)
  /-- `-m conntrack --ctstate <states>` -/
  | ctstate (states : List CtState)
  /-- `-m addrtype --src-type LOCAL` / `--dst-type LOCAL` -/
  | typeLocal (side : Side)
  /-- `-m physdev --physdev-is-bridged` -/
  | physdevIsBridged
  /-- `-m limit --limit <n>/minute --limit-burst <b>` -/
  | limit (perMinute burst : Nat)
deriving DecidableEq, Repr

abbrev Rule := Filter.Rule String Cond

def Packet.addr (pkt : Packet) : Side → IpAddr
  | .src => pkt.src
  | .dst => pkt.dst

/-- Membership in the set of that name, however it is looked up. -/
abbrev SetView := String → IpAddr → Bool

def Cond.holds (sets : SetView) (pkt : Packet) : Cond → Bool
  | addr side ip => pkt.addr side == ip
  | net side cidr => cidr.contains (pkt.addr side)
  | matchSet negated set side => sets set (pkt.addr side) != negated
  | proto p => pkt.transport.protocol == p
  | dport n => pkt.transport.dport == some n
  | dports lo hi => pkt.transport.dport.any fun p => lo ≤ p && p ≤ hi
  | icmpType k => pkt.transport.icmpType == some k
  | ctstate states => states.contains pkt.ctstate
  | typeLocal .src => pkt.srcLocal
  | typeLocal .dst => pkt.dstLocal
  | physdevIsBridged => pkt.bridged
  | limit _ _ => pkt.withinLimit

/-- The set a condition reads. -/
def Cond.setName : Cond → Option String
  | matchSet _ set _ => some set
  | _ => none

/-- The rules of one chain, in order. -/
def chainOf (rules : List Rule) (c : String) : List Rule := rules.filter (·.chain == c)

/-- Traverse chain `c` of `rules` with at most `n` nested chains. -/
def traverse (rules : List Rule) (sets : SetView) (n : Nat) (c : String) (pkt : Packet) :
    Filter.Flow :=
  Filter.evalChain (Cond.holds sets pkt) (chainOf rules) n c pkt.mark

/-! ## The kernel state and the tools -/

structure Kernel where
  sets : String → Option IpSet
  /-- User chains of the filter table, per family. -/
  chains : IpFamily → String → Option (List Rule)
  /-- Jumps at the head of a builtin chain, first one first. -/
  builtin : IpFamily → String → List String

/-- No set, no chain, no jump of ours. -/
def Kernel.clean : Kernel := ⟨fun _ => none, fun _ _ => none, fun _ _ => []⟩

def Kernel.setView (k : Kernel) : SetView := fun name x => (k.sets name).any (·.body.mem x)

/-- Traverse chain `c` of the packet's table. -/
def Kernel.traverse (k : Kernel) (n : Nat) (c : String) (pkt : Packet) : Filter.Flow :=
  Filter.evalChain (Cond.holds k.setView pkt)
      (fun c => (k.chains pkt.family c).getD []) n c pkt.mark

/-- One line of an `ipset restore` payload; `create` and `add` carry `-exist`. -/
inductive IpsetCmd where
  | create (set : String) (setType : SetType) (family : IpFamily)
  | flush (set : String)
  | addIp (set : String) (ip : IpAddr)
  | addNet (set : String) (net : IpNet) (excluded : Bool)
  | swap (a b : String)
  | destroy (set : String)
deriving DecidableEq, Repr

abbrev SetTable := String → Option IpSet

/-- Longest set name `ipset` accepts. -/
def maxSetName : Nat := 31

def IpsetCmd.exec (t : SetTable) : IpsetCmd → Option SetTable
  | create set typ fam =>
    match t set with
    | none =>
      if set.length ≤ maxSetName then some
        (Function.update t set (some ⟨fam, .empty typ⟩)) else none
    | some s => if s.family = fam ∧ s.body.setType = typ then some t else none
  | flush set => (t set).map fun s => Function.update t set (some ⟨s.family, .empty s.body.setType⟩)
  | addIp set ip =>
    match t set with
    | some ⟨fam, .hashIp ips⟩ =>
      if ip.family = fam then some
        (Function.update t set (some ⟨fam, .hashIp (ips ++ [ip])⟩)) else none
    | _ => none
  | addNet set net excluded =>
    match t set with
    | some ⟨fam, .hashNet nets⟩ =>
      if net.family = fam ∧ 1 ≤ net.prefixLen then
        some (Function.update t set (some ⟨fam, .hashNet (nets ++ [(net, excluded)])⟩))
      else none
    | _ => none
  | swap a b =>
    match t a, t b with
    | some sa, some sb =>
      if sa.family = sb.family ∧ sa.body.setType = sb.body.setType then
        some (Function.update (Function.update t a (some sb)) b (some sa))
      else none
    | _, _ => none
  | destroy set => (t set).map fun _ => Function.update t set none

def execPayload (cmds : List IpsetCmd) (t : SetTable) : Option SetTable :=
  cmds.foldlM IpsetCmd.exec t

/-- `add` lines for the entries of a set. -/
def SetBody.addCmds (tmp : String) : SetBody → List IpsetCmd
  | hashIp ips => ips.map (.addIp tmp ·)
  | hashNet nets => nets.map fun e => .addNet tmp e.1 e.2

def tmpName (set : String) : String := "TMP-" ++ set

/-- `build_restore_payload`: fill a TMP set, `swap` it with the live one, destroy it. -/
def buildRestorePayload (set : String) (family : IpFamily) (body : SetBody) : List IpsetCmd :=
  let tmp := tmpName set
  [.create set body.setType family, .create tmp body.setType family, .flush tmp] ++
    body.addCmds tmp ++ [.swap tmp set, .destroy tmp]

/-- Effect of `iptables-restore --noflush` on the chains of its family. -/
def restoreChains (old : String → Option (List Rule)) (chainDecls : List String)
    (rules : List Rule) (c : String) : Option (List Rule) :=
  ((if c ∈ chainDecls then some [] else old c) : Option (List Rule)).map (· ++ chainOf rules c)

/-- A rule `iptables-restore` accepts: its chain, its jump target and its sets exist. -/
def acceptsRule (sets : SetTable) (fam : IpFamily) (chainExists : String → Bool)
    (r : Rule) : Bool :=
  chainExists r.chain &&
    (match r.target with | .jump c => chainExists c | _ => true) &&
    r.conds.all fun c => c.setName.all fun s => (sets s).any (·.family == fam)

/-- One call of an external tool by `FirewallController::reconcile`. -/
inductive ToolCall where
  | ipsetRestore (payload : List IpsetCmd)
  | restoreFilter (family : IpFamily) (chainDecls : List String) (rules : List Rule)
  | ensureJump (family : IpFamily) (builtin target : String)

/-- The state after the call, or `none` when the tool fails and changes nothing. -/
def ToolCall.exec (k : Kernel) : ToolCall → Option Kernel
  | ipsetRestore payload => (execPayload payload k.sets).map fun t => { k with sets := t }
  | restoreFilter fam decls rules =>
    let chains := restoreChains (k.chains fam) decls rules
    if rules.all (acceptsRule k.sets fam fun c => c ∈ decls || (k.chains fam c).isSome) then
      some { k with chains := Function.update k.chains fam chains }
    else none
  | ensureJump fam b target =>
    if target ∈ k.builtin fam b then some k
    else if (k.chains fam target).isSome then
      let jumps := Function.update (k.builtin fam) b (target :: k.builtin fam b)
      some { k with builtin := Function.update k.builtin fam jumps }
    else none

/-- Run the calls in order. The first failing call ends the pass with `Err` (`false`) and
    leaves the state the calls before it produced. -/
def runCalls : List ToolCall → Kernel → Kernel × Bool
  | [], k => (k, true)
  | call :: calls, k =>
    match call.exec k with
    | some k' => runCalls calls k'
    | none => (k, false)

end KubeRouter.Netpol
