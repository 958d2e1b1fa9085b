/-
  Firewall synthesis (`netpol/src/synth.rs`): NetworkPolicies, pods and namespaces to ipset
  contents and filter rules, and the sync pass that installs them (`netpol/src/controller.rs`).

  The source pushes sets, chain declarations and rules onto one mutable plan; here each
  function returns the fragment it pushes and fragments are appended in the source's order.
  A rule line is a `Filter.Rule`, a chain declaration `:<chain> - [0:0]` is the chain's name.
  The text of the NodePort range is its two bounds (`validate_node_port_range` passes nothing
  else on).

  `buildPlan` takes the arguments of `build_plan`, with the ones a controller never changes
  between passes grouped in `Config`.
-/
import Std.Data.TreeMap
import KubeRouter.Netpol.Model
import KubeRouter.Netpol.Kernel

namespace KubeRouter.Netpol

open Filter (Mark MarkTest)

/-! ## Plans -/

structure FirewallPlan where
  ipsets : List IpsetPlan := []
  chainDecls : List String := []
  rules : List Rule := []
deriving DecidableEq, Repr

namespace FirewallPlan

instance : Append FirewallPlan :=
  ⟨fun p q => ⟨p.ipsets ++ q.ipsets, p.chainDecls ++ q.chainDecls, p.rules ++ q.rules⟩⟩

/-- The fragments `f x`, for `x` in `xs`, one after the other. -/
def collect {α : Type} (xs : List α) (f : α → FirewallPlan) : FirewallPlan :=
  ⟨xs.flatMap fun x => (f x).ipsets, xs.flatMap fun x => (f x).chainDecls,
    xs.flatMap fun x => (f x).rules⟩

@[simp] theorem append_ipsets (p q : FirewallPlan) : (p ++ q).ipsets = p.ipsets ++ q.ipsets := rfl
@[simp] theorem append_chainDecls (p q : FirewallPlan) :
    (p ++ q).chainDecls = p.chainDecls ++ q.chainDecls := rfl
@[simp] theorem append_rules (p q : FirewallPlan) : (p ++ q).rules = p.rules ++ q.rules := rfl

theorem collect_congr {α : Type} {xs : List α} {f g : α → FirewallPlan} (h : ∀ x ∈ xs, f x = g x) :
    collect xs f = collect xs g := by
  simp only [collect, FirewallPlan.mk.injEq]
  refine ⟨?_, ?_, ?_⟩ <;> exact List.flatMap_congr fun x hx => by rw [h x hx]

end FirewallPlan

/-- Set when a packet matches any policy rule (`0x10000/0x10000`). -/
def markMatched : Mark := 0x10000
/-- Set when a packet passed a pod chain (`0x20000/0x20000`). -/
def markAccepted : Mark := 0x20000

def hasMark (m : Mark) : MarkTest := ⟨false, m, m⟩
def lacksMark (m : Mark) : MarkTest := ⟨true, m, m⟩

def rejectTarget : IpFamily → Filter.Target String
  | .V4 => .reject "icmp-port-unreachable"
  | .V6 => .reject "icmp6-port-unreachable"

/-- Protocol and ICMP types upstream always permits. -/
def commonIcmpRules : IpFamily → List (String × IcmpType)
  | .V4 => [("icmp", .echoRequest), ("icmp", .destinationUnreachable), ("icmp", .timeExceeded)]
  | .V6 => [("icmpv6", .echoRequest), ("icmpv6", .destinationUnreachable),
      ("icmpv6", .timeExceeded), ("icmpv6", .neighborSolicitation),
      ("icmpv6", .neighborAdvertisement), ("icmpv6", .echoReply)]

inductive Direction where
  | ingress
  | egress
deriving DecidableEq, Repr

/-- The side a policy's own pods sit on. -/
def Direction.targetSide : Direction → Side
  | ingress => .dst
  | egress => .src

def Direction.peerSide : Direction → Side
  | ingress => .src
  | egress => .dst

/-- What every pass of one controller shares. -/
structure Config where
  hash16 : String → String
  node : String
  syncVersion : String := "kr"
  defaultDeny : Bool := false
  podCidrs : List IpNet := []
  serviceClusterIpRanges : List IpNet := []
  nodePortRange : Option (UInt16 × UInt16) := none

structure PolicyWorld where
  policies : List NetworkPolicy := []
  pods : List Pod := []
  namespaces : List Namespace := []

/-! ## Policy chains -/

/-- The MARK + RETURN pair of one matching rule. It never ACCEPTs. -/
def pushPolicyVerdict (pchain : String) (srcMatch targetMatch portMatch : List Cond) :
    FirewallPlan where
  rules :=
    [{ chain := pchain, conds := srcMatch ++ targetMatch ++ portMatch,
       target := .setXmark markMatched markMatched },
     { chain := pchain, conds := srcMatch ++ targetMatch ++ portMatch,
       markTest := some (hasMark markMatched), target := .ret }]

section Emit

variable (cfg : Config) (w : PolicyWorld) (family : IpFamily)

def podSet (dir : Direction) (pol : NetworkPolicy) (idx : Nat) : String :=
  match dir with
  | .ingress => indexedSrcPodSet cfg.hash16 pol.ns pol.name idx family
  | .egress => indexedDstPodSet cfg.hash16 pol.ns pol.name idx family

def ipblockSet (dir : Direction) (pol : NetworkPolicy) (idx : Nat) : String :=
  match dir with
  | .ingress => indexedSrcIpblockSet cfg.hash16 pol.ns pol.name idx family
  | .egress => indexedDstIpblockSet cfg.hash16 pol.ns pol.name idx family

def namedPortSet (dir : Direction) (pol : NetworkPolicy) (idx ep : Nat) : String :=
  match dir with
  | .ingress => indexedIngressNamedPortSet cfg.hash16 pol.ns pol.name idx ep family
  | .egress => indexedEgressNamedPortSet cfg.hash16 pol.ns pol.name idx ep family

/-- The pods that receive the traffic of a rule: the policy's own for ingress; the peers for
    egress, or every pod of the namespace when `to` is omitted. -/
def receivers (dir : Direction) (pol : NetworkPolicy) (resolved : ResolvedPeers) : List Pod :=
  match dir with
  | .ingress => w.pods.filter (policySelects pol ·)
  | .egress =>
    if resolved.matchAll then w.pods.filter (·.ns == pol.ns)
    else w.pods.filter fun p => (podFamilyIps p family).any (resolved.ipEntries.contains ·)

/-- Receiver addresses grouped by the number the port name resolves to, in ascending order. -/
def namedPortGroups (recv : List Pod) (protocol name : String) : List (UInt16 × List IpAddr) :=
  let hits := recv.flatMap fun pod =>
    (pod.containerPorts.filter fun cp => cp.name == some name && cp.protocol == protocol).map
      fun cp => (cp.port, podFamilyIps pod family)
  (hits.foldl (fun (g : Std.TreeMap UInt16 (List IpAddr)) h =>
    g.insert h.1 (g.getD h.1 [] ++ h.2)) ∅).toList

/-- The match on a rule's peers: none for every peer, else one per non-empty peer set. -/
def peerMatches (dir : Direction) (pol : NetworkPolicy) (idx : Nat) (resolved : ResolvedPeers) :
    List (List Cond) :=
  if resolved.matchAll then [[]]
  else
    (if resolved.ipEntries.isEmpty then []
      else [[.matchSet false (podSet cfg family dir pol idx) dir.peerSide]]) ++
    (if resolved.netEntries.isEmpty then []
      else [[.matchSet false (ipblockSet cfg family dir pol idx) dir.peerSide]])

def peerSets (dir : Direction) (pol : NetworkPolicy) (idx : Nat) (resolved : ResolvedPeers) :
    List IpsetPlan :=
  if resolved.matchAll then []
  else
    (if resolved.ipEntries.isEmpty then []
      else [⟨podSet cfg family dir pol idx, family, .hashIp resolved.ipEntries⟩]) ++
    (if resolved.netEntries.isEmpty then []
      else [⟨ipblockSet cfg family dir pol idx, family, .hashNet resolved.netEntries⟩])

/-- What one port of a rule pushes for one peer match. A named port pushes one set and one
    pair per resolved number; a name no receiver exposes pushes nothing. -/
def emitPort (pchain : String) (dir : Direction) (pol : NetworkPolicy) (idx : Nat)
    (recv : List Pod) (peerMatch targetMatch : List Cond) (port : PortSpec) : FirewallPlan :=
  match port.port with
  | .all => pushPolicyVerdict pchain peerMatch targetMatch [.proto port.protocol]
  | .number n => pushPolicyVerdict pchain peerMatch targetMatch [.proto port.protocol, .dport n]
  | .name name =>
    FirewallPlan.collect (namedPortGroups family recv port.protocol name).zipIdx fun g =>
      let set := namedPortSet cfg family dir pol idx g.2
      -- The set sits on dst, in place of whichever match that side would carry.
      let other := match dir with | .ingress => peerMatch | .egress => targetMatch
      { ipsets := [⟨set, family, .hashIp g.1.2.dedup⟩] } ++
        pushPolicyVerdict pchain other [.matchSet false set .dst]
          [.proto port.protocol, .dport g.1.1]

def emitRule (pchain : String) (dir : Direction) (targetSet : String) (pol : NetworkPolicy)
    (idx : Nat) (rule : PolicyRule) : FirewallPlan :=
  let targetMatch : List Cond := [.matchSet false targetSet dir.targetSide]
  let resolved := resolvePeers rule.peers w.pods w.namespaces pol.ns family
  let recv := receivers w family dir pol resolved
  { ipsets := peerSets cfg family dir pol idx resolved } ++
    FirewallPlan.collect (peerMatches cfg family dir pol idx resolved) fun peerMatch =>
      if rule.ports.isEmpty then pushPolicyVerdict pchain peerMatch targetMatch []
      else FirewallPlan.collect rule.ports
        (emitPort cfg family pchain dir pol idx recv peerMatch targetMatch)

def emitPolicyRules (pchain : String) (rules : List PolicyRule) (dir : Direction)
    (targetSet : String) (pol : NetworkPolicy) : FirewallPlan :=
  FirewallPlan.collect rules.zipIdx fun r => emitRule cfg w family pchain dir targetSet pol r.2 r.1

/-- Addresses of the pods a policy selects. -/
def selectedIps (pol : NetworkPolicy) : List IpAddr :=
  (w.pods.filter (policySelects pol ·)).flatMap (podFamilyIps · family)

def policyChain (pol : NetworkPolicy) : String :=
  networkPolicyChain cfg.hash16 pol.ns pol.name cfg.syncVersion family

/-- The set of the policy's own pods for a direction. -/
def targetSet (dir : Direction) (pol : NetworkPolicy) : String :=
  match dir with
  | .ingress => dstSet cfg.hash16 pol.ns pol.name family
  | .egress => srcSet cfg.hash16 pol.ns pol.name family

def Direction.rules (dir : Direction) (pol : NetworkPolicy) : List PolicyRule :=
  match dir with
  | .ingress => pol.ingress
  | .egress => pol.egress

def Direction.covers (dir : Direction) (pol : NetworkPolicy) : Bool :=
  match dir with
  | .ingress => pol.policyTypes.ingress
  | .egress => pol.policyTypes.egress

def directionPlan (dir : Direction) (pol : NetworkPolicy) : FirewallPlan :=
  if dir.covers pol then
    { ipsets := [⟨targetSet cfg family dir pol, family, .hashIp (selectedIps w family pol)⟩] } ++
      emitPolicyRules cfg w family (policyChain cfg family pol) (dir.rules pol) dir
        (targetSet cfg family dir pol) pol
  else {}

/-- One chain for both directions of a policy. -/
def policyPlan (pol : NetworkPolicy) : FirewallPlan :=
  { chainDecls := [policyChain cfg family pol] } ++
    directionPlan cfg w family .ingress pol ++ directionPlan cfg w family .egress pol

/-! ## Pod chains -/

def podChain (pod : Pod) : String := podFirewallChain cfg.hash16 pod.ns pod.name cfg.syncVersion

def selecting (pod : Pod) : List NetworkPolicy :=
  w.policies.filter fun p => p.active && policySelects p pod

/-- Local pods with an address of the family and a policy that selects them: the pods with a
    chain. -/
def chainPods : List Pod :=
  w.pods.filter fun p => p.nodeName == cfg.node && !p.hostNetwork &&
    !(podFamilyIps p family).isEmpty && !(selecting w p).isEmpty

/-- Direction-gated jump to one selecting policy. A policy covering both directions is
    entered without a gate. -/
def policyJump (pod : Pod) (ip : IpAddr) (pol : NetworkPolicy) : Rule :=
  { chain := podChain cfg pod
    conds := match pol.policyTypes.ingress, pol.policyTypes.egress with
      | true, false => [.addr .dst ip]
      | false, true => [.addr .src ip]
      | _, _ => []
    target := .jump (policyChain cfg family pol) }

def defaultJump (pod : Pod) (side : Side) (ip : IpAddr) : Rule :=
  { chain := podChain cfg pod, conds := [.addr side ip], target := .jump nwplcyDefault }

/-- Policy jumps for one address, then DEFAULT for each direction no policy covers. -/
def dispatchRules (pod : Pod) (ip : IpAddr) : List Rule :=
  (selecting w pod).map (policyJump cfg family pod ip) ++
    (if (selecting w pod).any (·.policyTypes.ingress) then [] else [defaultJump cfg pod .dst ip]) ++
    (if (selecting w pod).any (·.policyTypes.egress) then [] else [defaultJump cfg pod .src ip])

def podChainRules (pod : Pod) : List Rule :=
  let podchain := podChain cfg pod
  [{ chain := podchain, conds := [], target := .jump nwplcyCommon }] ++
    (podFamilyIps pod family).map (fun ip =>
      { chain := podchain, conds := [.typeLocal .src, .addr .dst ip], target := .accept }) ++
    (podFamilyIps pod family).flatMap (dispatchRules cfg w family pod) ++
    [{ chain := podchain, conds := [.limit 10 10], markTest := some (lacksMark markMatched),
       target := .nflog 100 },
     { chain := podchain, conds := [], markTest := some (lacksMark markMatched),
       target := rejectTarget family },
     { chain := podchain, conds := [], target := .setMark 0 markMatched },
     { chain := podchain, conds := [], target := .setMark markAccepted markAccepted }]

/-- Jumps into the pod chain for one address: routed, service-proxy and bridged inbound, then
    outbound from all three top-level chains and bridged. -/
def interceptRules (pod : Pod) (ip : IpAddr) : List Rule :=
  let podchain := podChain cfg pod
  [{ chain := routerForward, conds := [.addr .dst ip], target := .jump podchain },
   { chain := routerOutput, conds := [.addr .dst ip], target := .jump podchain },
   { chain := routerForward, conds := [.physdevIsBridged, .addr .dst ip],
       target := .jump podchain },
   { chain := routerInput, conds := [.addr .src ip], target := .jump podchain },
   { chain := routerForward, conds := [.addr .src ip], target := .jump podchain },
   { chain := routerOutput, conds := [.addr .src ip], target := .jump podchain },
   { chain := routerForward, conds := [.physdevIsBridged, .addr .src ip],
       target := .jump podchain }]

def podPlan (pod : Pod) : FirewallPlan where
  chainDecls := [podChain cfg pod]
  rules := podChainRules cfg w family pod ++
    (podFamilyIps pod family).flatMap (interceptRules cfg pod)

/-- Addresses of the pods that got a chain. -/
def programmedIps : List IpAddr :=
  (chainPods cfg w family).flatMap (podFamilyIps · family)

end Emit

/-! ## The fixed chains -/

section Fixed

variable (cfg : Config) (family : IpFamily)

def commonRules : List Rule :=
  [{ chain := nwplcyCommon, conds := [.ctstate [.invalid]], target := .drop },
   { chain := nwplcyCommon, conds := [.ctstate [.related, .established]], target := .accept }] ++
    (commonIcmpRules family).map fun r =>
      { chain := nwplcyCommon, conds := [.proto r.1, .icmpType r.2], target := .accept }

def defaultRules : List Rule :=
  [{ chain := nwplcyDefault, conds := [], target := .setXmark markMatched markMatched }]

def nodePortReturn (range : UInt16 × UInt16) (proto : String) : Rule :=
  { chain := routerInput
    conds := [.proto proto, .typeLocal .dst, .dports range.1 range.2], target := .ret }

/-- Service traffic leaves KUBE-ROUTER-INPUT before any pod chain sees it. -/
def serviceReturns : List Rule :=
  ((cfg.serviceClusterIpRanges.filter (·.family == family)).map fun range =>
    { chain := routerInput, conds := [.net .dst range], target := .ret }) ++
  match cfg.nodePortRange with
  | some range => ["tcp", "udp", "sctp"].map (nodePortReturn range)
  | none => []

def familyCidrs : List IpNet := cfg.podCidrs.filter (·.family == family)

def tailRules : List Rule :=
  (if cfg.defaultDeny then
    (familyCidrs cfg family).flatMap fun cidr =>
      [{ chain := nwplcyTail, conds := [.net .src cidr, .matchSet true (localPodsSet family) .src],
         target := rejectTarget family },
       { chain := nwplcyTail, conds := [.net .dst cidr, .matchSet true (localPodsSet family) .dst],
         target := rejectTarget family }]
   else []) ++
  [{ chain := nwplcyTail, conds := [], markTest := some (hasMark markAccepted),
      target := .accept }] ++
  (if cfg.defaultDeny then
    (familyCidrs cfg family).flatMap fun cidr =>
      [{ chain := nwplcyTail, conds := [.net .src cidr], target := rejectTarget family },
       { chain := nwplcyTail, conds := [.net .dst cidr], target := rejectTarget family }]
   else [])

def tailJumps : List Rule :=
  [routerInput, routerForward, routerOutput].map fun c =>
    { chain := c, conds := [], target := .jump nwplcyTail }

end Fixed

/-- `build_plan`. -/
def buildPlan (cfg : Config) (w : PolicyWorld) (family : IpFamily) : FirewallPlan :=
  { chainDecls := [routerInput, routerForward, routerOutput, nwplcyCommon,
      nwplcyDefault, nwplcyTail]
    rules := commonRules family ++ defaultRules ++ serviceReturns cfg family } ++
  FirewallPlan.collect (w.policies.filter (·.active)) (policyPlan cfg w family) ++
  FirewallPlan.collect (chainPods cfg w family) (podPlan cfg w family) ++
  { ipsets := if cfg.defaultDeny then
      [⟨localPodsSet family, family, .hashIp (programmedIps cfg w family)⟩] else []
    rules := tailRules cfg family ++ tailJumps }

/-! ## The sync pass -/

/-- The tool calls of one family: every set, then the document, then the builtin jumps. -/
def familyCalls (cfg : Config) (w : PolicyWorld) (family : IpFamily) : List ToolCall :=
  let plan := buildPlan cfg w family
  (plan.ipsets.map fun s => .ipsetRestore (buildRestorePayload s.name s.family s.body)) ++
    [.restoreFilter family plan.chainDecls plan.rules,
     .ensureJump family "INPUT" routerInput,
     .ensureJump family "FORWARD" routerForward,
     .ensureJump family "OUTPUT" routerOutput]

/-- All tool calls of a pass over the configured families. -/
def passCalls (cfg : Config) (families : List IpFamily) (w : PolicyWorld) : List ToolCall :=
  families.flatMap (familyCalls cfg w)

/-- `FirewallController::reconcile`: the state it leaves and whether it returned `Ok`. -/
def reconcile (cfg : Config) (families : List IpFamily) (w : PolicyWorld) (k : Kernel) :
    Kernel × Bool :=
  runCalls (passCalls cfg families w) k

end KubeRouter.Netpol
