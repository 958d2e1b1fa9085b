/-
  From NetworkPolicy objects to packets: what a sync of the objects in the stores makes of a new
  connection (`StorePolicySource::snapshot`, `FirewallController::reconcile`, and the tools behind
  it).

  The reading of the objects is the API's. A policy governs the pods of its namespace that its
  selector matches, in the directions it covers; a governed pod exchanges what a rule of a policy
  that governs it allows. An endpoint is an address, with a pod that holds it or without one.

  What the API server admits is more than what is shown to be enforced. The objects are restricted
  (`Enforceable`): every policy covers one direction, as one chain serves both and a packet may be
  marked by the other one's rules; ports are numbers; and a finished pod has no address. So are the
  packets: new, with a destination port, from outside the node's own processes, unmarked, and not
  from a pod to itself. Names must not clash, and default deny is off.

  Proved:
  * `rejects_iff_unmatched`: FORWARD and OUTPUT reject a new packet exactly when the chain of a pod
    at one of its ends does not mark it.
  * `policies_enforced`: behind a sync that succeeds, whatever was in the kernel before, every such
    packet that the objects deny at one of its ends is rejected, and without ipBlocks and endPorts
    no other one is.
-/
import KubeRouter.Agent.PodWire
import KubeRouter.Netpol.PlanText

namespace KubeRouter.Netpol

/-! ## Packets that are rejected -/

section Rejected

variable {cfg : Config} {w : PolicyWorld} {pkt : Packet}

/-- The chain of a pod at the `dir` end of the packet lets it pass unmarked. -/
def Unmarked (cfg : Config) (w : PolicyWorld) (pkt : Packet) (dir : Direction) (pod : Pod) : Prop :=
  pod ∈ chainPods cfg w pkt.family ∧ pkt.addr dir.targetSide ∈ podFamilyIps pod pkt.family ∧
    podMatched cfg w pkt.family (planView (buildPlan cfg w pkt.family).ipsets) pkt pod = false

/-- Policies of any kind. -/
theorem rejects_iff_unmatched (hlen : ∀ s, (cfg.hash16 s).length = hashLen)
    (hnames : DistinctNames cfg w pkt.family) (hdeny : cfg.defaultDeny = false)
    (hnew : pkt.ctstate = .new) (hport : pkt.transport.dport ≠ none) (hsrc : pkt.srcLocal = false)
    (hmark : pkt.mark &&& markMatched = 0) {h : Hook} (hh : h ≠ .input) (n : Nat) :
    traverse (buildPlan cfg w pkt.family).rules (planView (buildPlan cfg w pkt.family).ipsets)
        (n + 3) h.chain pkt = .done .reject ↔ ∃ dir pod, Unmarked cfg w pkt dir pod := by
  have hspares : h.spares cfg pkt.family pkt = false := by simp [Hook.spares, hh]
  -- the pods whose chains are entered are those at either end
  have hentered : ∀ pod, pod ∈ entered cfg w pkt.family pkt (h.jumps cfg) ↔
      pod ∈ chainPods cfg w pkt.family ∧
        ∃ dir : Direction, pkt.addr dir.targetSide ∈ podFamilyIps pod pkt.family := by
    intro pod
    rw [mem_entered_iff hnames, mem_visits]
    refine and_congr_right fun _ => ⟨?_, ?_⟩
    · intro hown
      obtain hown | ⟨-, hown⟩ := hown
      · exact ⟨.egress, hown⟩
      · exact ⟨.ingress, hown⟩
    · intro hside
      obtain ⟨dir, hown⟩ := hside
      cases dir with
      | ingress => exact .inr ⟨hh, hown⟩
      | egress => exact .inl hown
  rw [traverse_hook hlen, hspares, if_neg Bool.false_ne_true, clear_of_and hmark,
    podsVerdict_unmarked (commonVerdict_ported hnew hport) hsrc]
  cases hall : (entered cfg w pkt.family pkt (h.jumps cfg)).all
      (podMatched cfg w pkt.family (planView (buildPlan cfg w pkt.family).ipsets) pkt) with
  | true =>
    rw [if_pos rfl]
    refine iff_of_false (tailFlow_ne_reject hdeny _ _) ?_
    intro hleft
    obtain ⟨dir, pod, hchain, hown, hm⟩ := hleft
    have hmarked := List.all_eq_true.mp hall pod ((hentered pod).mpr ⟨hchain, dir, hown⟩)
    rw [hm] at hmarked
    cases hmarked
  | false =>
    rw [if_neg Bool.false_ne_true]
    refine iff_of_true rfl ?_
    obtain ⟨pod, hent, hm⟩ := List.all_eq_false.mp hall
    obtain ⟨hchain, dir, hown⟩ := (hentered pod).mp hent
    exact ⟨dir, pod, hchain, hown, Bool.eq_false_of_not_eq_true hm⟩

/-- What an unmarked packet says, policies for both directions apart. -/
theorem unmarked_iff (hnames : DistinctNames cfg w pkt.family) (hone : SingleDirection w)
    (hnamed : ∀ pol ∈ w.policies, NoNamedPorts pol) {pod : Pod} {dir : Direction}
    (happart : ¬(pkt.src ∈ pod.ips ∧ pkt.dst ∈ pod.ips)) :
    Unmarked cfg w pkt dir pod ↔ pod ∈ w.pods ∧ pod.nodeName = cfg.node ∧
      pod.hostNetwork = false ∧ pkt.addr dir.targetSide ∈ pod.ips ∧ Isolated w dir pod ∧
      ¬∃ pol ∈ w.policies, policySelects pol pod = true ∧ dir.covers pol = true ∧
        ∃ r ∈ dir.rules pol, ruleHas w pkt.family pol dir pkt r = true := by
  have hother : pkt.addr dir.targetSide ∈ pod.ips →
      pkt.addr dir.peerSide ∉ podFamilyIps pod pkt.family := by
    intro hown hpeer
    have hpeer := (mem_podFamilyIps.mp hpeer).1
    cases dir with
    | ingress => exact happart ⟨hpeer, hown⟩
    | egress => exact happart ⟨hown, hpeer⟩
  have hmatched : pod ∈ w.pods → pkt.addr dir.targetSide ∈ podFamilyIps pod pkt.family →
      (podMatched cfg w pkt.family (planView (buildPlan cfg w pkt.family).ipsets) pkt pod = true ↔
        ¬Isolated w dir pod ∨ ∃ pol ∈ w.policies, policySelects pol pod = true ∧
          dir.covers pol = true ∧
            ∃ r ∈ dir.rules pol, ruleHas w pkt.family pol dir pkt r = true) := by
    intro hpod hown
    rw [podMatched_iff hnames (planView_setsOf hnames.sets) hnamed hpod hown
      (hother (mem_podFamilyIps.mp hown).1), or_iff_left (not_crossHit hone)]
  constructor
  · intro ⟨hchain, hown, hm⟩
    obtain ⟨hpod, hnode, hhost, -, -⟩ := mem_chainPods.mp hchain
    rw [Bool.eq_false_iff, ne_eq, hmatched hpod hown, not_or, not_not] at hm
    exact ⟨hpod, hnode, hhost, (mem_podFamilyIps.mp hown).1, hm⟩
  · intro ⟨hpod, hnode, hhost, hown, hiso, hnone⟩
    have hown' : pkt.addr dir.targetSide ∈ podFamilyIps pod pkt.family :=
      mem_podFamilyIps.mpr ⟨hown, addr_family pkt _⟩
    refine ⟨mem_chainPods.mpr ⟨hpod, hnode, hhost, List.ne_nil_of_mem hown', ?_⟩, hown', ?_⟩
    · obtain ⟨pol, hpol, hsel, hcov⟩ := hiso
      exact List.ne_nil_of_mem (mem_selecting.mpr ⟨hpol, active_of_covers hcov, hsel⟩)
    · rw [Bool.eq_false_iff, ne_eq, hmatched hpod hown', not_or, not_not]
      exact ⟨hiso, hnone⟩

end Rejected

end KubeRouter.Netpol

namespace KubeRouter.Agent

open KubeRouter.Netpol

/-! ## What the objects say -/

namespace K8sPod

variable (parseIp : String → Option IpAddr)

def addresses (p : K8sPod) : List IpAddr := podAddresses parseIp p.status

def nodeName (p : K8sPod) : String := (p.spec.bind (·.nodeName)).getD ""

def hostNetwork (p : K8sPod) : Bool := (p.spec.bind (·.hostNetwork)).getD false

end K8sPod

/-- The policy selects the pod and covers the direction. -/
def K8sNetworkPolicy.Governs (np : K8sNetworkPolicy) (dir : Direction) (p : K8sPod) : Prop :=
  np.ns = p.ns ∧ np.Selects (p.labels.getD []) ∧ np.Covers dir

namespace Stores

variable (parseNet : String → Option IpNet) (parseIp : String → Option IpAddr)

/-- The pod of the endpoint, if it has one, is one of the stores that holds its address. -/
def Knows (s : Stores) (ep : Endpoint) : Prop :=
  ∀ v, ep.pod = some v → ∃ p ∈ s.pods, p.hostNetwork = false ∧ ep.addr ∈ p.addresses parseIp ∧
    p.ns = some v.ns ∧ v.labels = p.labels.getD [] ∧
    ∀ labels, v.nsLabels = some labels → ∃ n ∈ s.namespaces, n.name = some v.ns ∧
      n.labels.getD [] = labels

/-- The rule allows the packet; `x` is the address of the pod's peer. -/
def RuleAllows (s : Stores) (policyNs : String) (pkt : Packet) (x : IpAddr) (a : K8sRule) : Prop :=
  (∃ ep : Endpoint, ep.addr = x ∧ s.Knows parseIp ep ∧ a.AdmitsPeer parseNet policyNs ep) ∧
    ∃ port, pkt.transport.dport = some port ∧ a.AdmitsPort unnamed pkt.transport.protocol port

/-- A rule of a policy that governs the pod allows the packet. -/
def Allows (s : Stores) (dir : Direction) (p : K8sPod) (pkt : Packet) : Prop :=
  ∃ np ∈ s.policies, np.Governs dir p ∧ ∃ a ∈ np.rules dir,
    s.RuleAllows parseNet parseIp (np.ns.getD "") pkt (pkt.addr dir.peerSide) a

/-- A pod of the node that holds the `dir` end of the packet is governed in that direction, and
nothing allows it the packet. -/
def Denies (s : Stores) (node : String) (dir : Direction) (pkt : Packet) : Prop :=
  ∃ p ∈ s.pods, p.finished = false ∧ p.nodeName = node ∧ p.hostNetwork = false ∧
    pkt.addr dir.targetSide ∈ p.addresses parseIp ∧ (∃ np ∈ s.policies, np.Governs dir p) ∧
    ¬s.Allows parseNet parseIp dir p pkt

/-- What is asked of the objects. The API server asks for `valid`, `inside`, `protocol` and `pods`;
`numeric`, `oneDirection` and `finished` restrict what it admits. -/
structure Enforceable (s : Stores) : Prop where
  valid : ∀ np ∈ s.policies, ApiValid parseNet np
  /-- No exception is wider than its block. -/
  inside : ∀ np ∈ s.policies, ∀ dir, ∀ a ∈ np.rules dir, ∀ p ∈ a.peers.getD [], ∀ b,
    p.ipBlock = some b → ∀ cidr, parseNet b.cidr = some cidr → ∀ e ∈ b.except.getD [], ∀ net,
      parseNet e = some net → cidr.prefixLen ≤ net.prefixLen
  numeric : ∀ np ∈ s.policies, ∀ dir, ∀ a ∈ np.rules dir, ∀ p ∈ a.ports.getD [], ∀ name,
    p.port ≠ some (.string name)
  protocol : ∀ np ∈ s.policies, ∀ dir, ∀ a ∈ np.rules dir, ∀ p ∈ a.ports.getD [],
    ∀ q ∈ p.protocol, q ∈ ["TCP", "UDP", "SCTP"]
  oneDirection : ∀ np ∈ s.policies, np.Covers .ingress ↔ ¬np.Covers .egress
  pods : ∀ p ∈ s.pods, p.ns.isSome = true ∧ p.name.isSome = true
  finished : ∀ p ∈ s.pods, p.finished = true → p.addresses parseIp = []

/-- No rule has an ipBlock or an endPort. -/
def Plain (s : Stores) : Prop :=
  ∀ np ∈ s.policies, ∀ dir, ∀ a ∈ np.rules dir,
    (∀ p ∈ a.peers.getD [], p.ipBlock = none) ∧ ∀ p ∈ a.ports.getD [], p.endPort = none

end Stores

/-! ## The objects and their projection -/

section Projected

variable {parseNet : String → Option IpNet} {parseIp : String → Option IpAddr} {s : Stores}

theorem mapPod_eq_some {p : K8sPod} {pod : Pod} (h : mapPod parseIp p = some pod) :
    p.ns = some pod.ns ∧ pod.labels = p.labels.getD [] ∧ pod.ips = p.addresses parseIp ∧
      pod.nodeName = p.nodeName ∧ pod.hostNetwork = p.hostNetwork := by
  obtain ⟨ns, hns, h⟩ := Option.bind_eq_some_iff.mp h
  obtain ⟨name, -, rfl⟩ := Option.map_eq_some_iff.mp h
  exact ⟨hns, rfl, rfl, rfl, rfl⟩

theorem mem_snapshot_pods {pod : Pod} :
    pod ∈ (s.snapshot parseNet parseIp).pods ↔ ∃ p ∈ s.pods, mapPod parseIp p = some pod :=
  List.mem_filterMap

theorem mem_snapshot_policies {pol : NetworkPolicy} :
    pol ∈ (s.snapshot parseNet parseIp).policies ↔
      ∃ np ∈ s.policies, mapPolicy parseNet np = some pol :=
  List.mem_filterMap

theorem governs_iff {np : K8sNetworkPolicy} {pol : NetworkPolicy} {p : K8sPod} {pod : Pod}
    (hnp : mapPolicy parseNet np = some pol) (hp : mapPod parseIp p = some pod) (dir : Direction) :
    np.Governs dir p ↔ policySelects pol pod = true ∧ dir.covers pol = true := by
  obtain ⟨hns, -⟩ := mapPolicy_rules hnp
  obtain ⟨hselects, hcovers⟩ := mapPolicy_head hnp
  obtain ⟨hpns, hlabels, -⟩ := mapPod_eq_some hp
  unfold K8sNetworkPolicy.Governs policySelects
  rw [hns, hpns, ← hselects, ← hcovers, hlabels, Bool.and_eq_true, beq_iff_eq, Option.some_inj,
    and_assoc, eq_comm]

/-- The world of the projection knows the endpoints that the stores know. -/
theorem seen_iff_knows (hs : s.Enforceable parseNet parseIp) (ep : Endpoint) :
    ep.Seen (s.snapshot parseNet parseIp) ↔ s.Knows parseIp ep := by
  refine forall_congr' fun v => imp_congr_right fun _ => ?_
  constructor
  · intro ⟨pod, hpod, hhost, haddr, hns, hlabels, hnsLabels⟩
    obtain ⟨p, hp, hmap⟩ := mem_snapshot_pods.mp hpod
    obtain ⟨hpns, hplabels, hips, -, hphost⟩ := mapPod_eq_some hmap
    refine ⟨p, hp, hphost ▸ hhost, hips ▸ haddr, hns ▸ hpns, hlabels.trans hplabels, ?_⟩
    intro labels hsome
    obtain ⟨n, hn, hname, hl⟩ := hnsLabels labels hsome
    obtain ⟨kn, hkn, hmapns⟩ := List.mem_filterMap.mp hn
    obtain ⟨name, hkname, rfl⟩ := Option.map_eq_some_iff.mp hmapns
    exact ⟨kn, hkn, hkname.trans (congrArg some (hname.trans hns.symm)), hl⟩
  · intro ⟨p, hp, hhost, haddr, hns, hlabels, hnsLabels⟩
    obtain ⟨name, hname⟩ := Option.isSome_iff_exists.mp (hs.pods p hp).2
    obtain ⟨pod, hmap⟩ : ∃ pod, mapPod parseIp p = some pod := by
      rw [mapPod, hns, hname]
      exact ⟨_, rfl⟩
    obtain ⟨hpns, hplabels, hips, -, hphost⟩ := mapPod_eq_some hmap
    have hvns : v.ns = pod.ns := Option.some.inj (hns.symm.trans hpns)
    refine ⟨pod, mem_snapshot_pods.mpr ⟨p, hp, hmap⟩, hphost.trans hhost, hips ▸ haddr, hvns,
      hlabels.trans hplabels.symm, fun labels hsome => ?_⟩
    obtain ⟨kn, hkn, hkname, hl⟩ := hnsLabels labels hsome
    refine ⟨⟨v.ns, kn.labels.getD []⟩, List.mem_filterMap.mpr ⟨kn, hkn, ?_⟩, hvns, hl⟩
    rw [mapNamespace, hkname]
    rfl

theorem portHas_admitsPort {t : Transport} {port : UInt16} (hport : t.dport = some port)
    {p : PortSpec} (hnamed : p.isNamed = false) :
    p.has t = true ↔ AdmitsPort unnamed t.protocol port p := by
  unfold PortSpec.has AdmitsPort
  unfold PortSpec.isNamed at hnamed
  cases hp : p.port with
  | all => simp
  | number n => simp [hport]
  | name name => simp [hp] at hnamed

/-- A projected rule, its addresses and its ports. -/
theorem ruleHas_iff_lets {w : PolicyWorld} {family : IpFamily} {pol : NetworkPolicy}
    {dir : Direction} {pkt : Packet} {port : UInt16} (hport : pkt.transport.dport = some port)
    {r : PolicyRule} (hnamed : ∀ p ∈ r.ports, p.isNamed = false) :
    ruleHas w family pol dir pkt r = true ↔
      LetsAddrIn w pol.ns family r (pkt.addr dir.peerSide) ∧
        LetsPortIn unnamed r pkt.transport.protocol port := by
  unfold ruleHas LetsAddrIn LetsPortIn
  rw [Bool.and_eq_true, Bool.or_eq_true, List.isEmpty_iff, List.any_eq_true]
  refine and_congr_right fun _ => or_congr_right ?_
  exact exists_congr fun p => and_congr_right fun hp => portHas_admitsPort hport (hnamed p hp)

/-- Rules whose texts all parse, with exceptions inside their blocks, have no holes. -/
theorem no_peerHole {np : K8sNetworkPolicy} (hs : s.Enforceable parseNet parseIp)
    (hnp : np ∈ s.policies) {dir : Direction} {a : K8sRule} (ha : a ∈ np.rules dir)
    {family : IpFamily} {x : IpAddr} (hx : x.family = family) :
    ¬PeerHole parseNet family a x := by
  have hcidrs := (hs.valid np hnp).cidrs dir a ha
  intro hhole
  cases hhole with
  | noPeer hne hnone =>
    obtain ⟨p, hp⟩ := List.exists_mem_of_ne_nil _ hne
    obtain ⟨b, hb, hcidr⟩ := hnone p hp
    have hsome := (hcidrs p hp b hb).1
    rw [hcidr] at hsome
    cases hsome
  | except b hopen t ht hole =>
    obtain ⟨pre, p, post, cidr, hl, hb, hcidr, hc, -, hpost⟩ := hopen
    have hp : p ∈ a.peers.getD [] := by rw [hl]; simp
    obtain ⟨net, hnet⟩ := Option.isSome_iff_exists.mp ((hcidrs p hp b hb).2 t ht)
    have hle := hs.inside np hnp dir a ha p hp b hb cidr hcidr t ht net hnet
    have hf : cidr.family = family := by rw [← hx, IpNet.contains_family hc]
    have hlt := hpost net ⟨p, List.mem_cons_self, b, cidr, t, hb, hcidr, hf, ht, hnet⟩
      (hole net hnet)
    omega

theorem no_portHole {np : K8sNetworkPolicy} (hs : s.Enforceable parseNet parseIp)
    (hnp : np ∈ s.policies) {dir : Direction} {a : K8sRule} (ha : a ∈ np.rules dir)
    (protocol : String) (port : UInt16) : ¬PortHole a protocol port := by
  have hports := (hs.valid np hnp).ports dir a ha
  intro hhole
  cases hhole with
  | range p hp hproto n hn hout =>
    obtain ⟨hlow, hhigh, -⟩ := hports p hp n hn
    omega
  | endPort p hp hproto e hn he hlt =>
    obtain ⟨-, -, hend⟩ := hports p hp _ hn
    have hle := (hend e he).1
    omega

theorem mapRule_unnamed {np : K8sNetworkPolicy} (hs : s.Enforceable parseNet parseIp)
    (hnp : np ∈ s.policies) {dir : Direction} {a : K8sRule} (ha : a ∈ np.rules dir) :
    ∀ p ∈ (mapRule parseNet a).ports, p.isNamed = false := by
  intro q hq
  obtain ⟨p, hp, rfl⟩ := List.mem_map.mp hq
  unfold mapPort PortSpec.isNamed
  rcases hport : p.port with _ | n | name
  · rfl
  · cases hn : toU16 n <;> simp [hn]
  · exact absurd hport (hs.numeric np hnp dir a ha p hp name)

section Rules

variable {np : K8sNetworkPolicy} {pol : NetworkPolicy} {dir : Direction} {a : K8sRule}
  {pkt : Packet} {port : UInt16}

/-- What a projected rule has, the object's rule allows. -/
theorem allows_of_has (hs : s.Enforceable parseNet parseIp) (hnp : np ∈ s.policies)
    (hmap : mapPolicy parseNet np = some pol) (ha : a ∈ np.rules dir)
    (hport : pkt.transport.dport = some port)
    (hhas : ruleHas (s.snapshot parseNet parseIp) pkt.family pol dir pkt (mapRule parseNet a) =
      true) :
    s.RuleAllows parseNet parseIp (np.ns.getD "") pkt (pkt.addr dir.peerSide) a := by
  obtain ⟨haddr, hports⟩ := (ruleHas_iff_lets hport (mapRule_unnamed hs hnp ha)).mp hhas
  obtain ⟨ep, hep, hseen, hadm⟩ := admitsAddr_of_letsIn (addr_family pkt _) haddr
    (no_peerHole hs hnp ha (addr_family pkt _))
  rw [(mapPolicy_rules hmap).1]
  exact ⟨⟨ep, hep, (seen_iff_knows hs ep).mp hseen, hadm⟩, port, hport,
    admitsPort_of_letsIn hports (no_portHole hs hnp ha _ _)⟩

/-- Conversely without ipBlocks and endPorts. -/
theorem has_of_allows (hs : s.Enforceable parseNet parseIp) (hplain : s.Plain)
    (hnp : np ∈ s.policies) (hmap : mapPolicy parseNet np = some pol) (ha : a ∈ np.rules dir)
    (hallows : s.RuleAllows parseNet parseIp (np.ns.getD "") pkt (pkt.addr dir.peerSide) a) :
    ruleHas (s.snapshot parseNet parseIp) pkt.family pol dir pkt (mapRule parseNet a) = true := by
  obtain ⟨⟨ep, hep, hknows, hpeer⟩, port, hport, hadm⟩ := hallows
  obtain ⟨hblocks, hends⟩ := hplain np hnp dir a ha
  have hpeers : ∀ p ∈ a.peers.getD [], ∃ peer, mapPeer parseNet p = some peer ∧
      peer.isIpBlock = false := by
    intro p hp
    rw [mapPeer, hblocks p hp]
    exact ⟨_, rfl, rfl⟩
  rw [(mapPolicy_rules hmap).1, Option.getD_some] at hpeer
  refine (ruleHas_iff_lets hport (mapRule_unnamed hs hnp ha)).mpr ⟨?_, ?_⟩
  · refine has_of_admits ?_ (addr_family pkt _) ?_
    · intro peer hmem
      obtain ⟨p, hp, heq⟩ := List.mem_filterMap.mp hmem
      obtain ⟨peer', heq', hnot⟩ := hpeers p hp
      rw [heq] at heq'
      exact Option.some.inj heq' ▸ hnot
    · obtain hnil | ⟨p, hp, hadmits⟩ := hpeer
      · exact .inl (by rw [mapRule, hnil, List.filterMap_nil])
      · obtain ⟨peer, heq, -⟩ := hpeers p hp
        refine .inr ⟨peer, List.mem_filterMap.mpr ⟨p, hp, heq⟩, ?_⟩
        rw [← hep]
        exact peer_admits_of_seen (hblocks p hp) heq ((seen_iff_knows hs ep).mpr hknows) hadmits
  · have hrange : ∀ p ∈ a.ports.getD [], ∀ n, p.port = some (.int n) → (toU16 n).isSome = true := by
      intro p hp n hn
      obtain ⟨hlow, hhigh, -⟩ := (hs.valid np hnp).ports dir a ha p hp n hn
      rw [Option.isSome_iff_ne_none, ne_eq, toU16_eq_none]
      omega
    refine (mapRule_ports hrange _ _).mpr (hadm.imp_right fun hlisted => ?_)
    obtain ⟨p, hp, hp'⟩ := hlisted
    refine ⟨p, hp, ?_⟩
    have hsingle : p.single = p := by
      cases p
      simp only [K8sPort.single, K8sPort.mk.injEq, true_and, and_true]
      exact (hends _ hp).symm
    rw [hsingle]
    exact hp'

end Rules

/-! ## The world of the objects -/

theorem snapshot_rule {pol : NetworkPolicy} (hpol : pol ∈ (s.snapshot parseNet parseIp).policies)
    {r : PolicyRule} (hr : r ∈ pol.ingress ++ pol.egress) :
    ∃ np ∈ s.policies, ∃ dir, ∃ a ∈ np.rules dir, r = mapRule parseNet a := by
  obtain ⟨np, hnp, hmap⟩ := mem_snapshot_policies.mp hpol
  have hrules := (mapPolicy_rules hmap).2
  obtain hr | hr := List.mem_append.mp hr
  · have hr : r ∈ Direction.ingress.rules pol := hr
    rw [hrules] at hr
    obtain ⟨a, ha, rfl⟩ := List.mem_map.mp hr
    exact ⟨np, hnp, .ingress, a, ha, rfl⟩
  · have hr : r ∈ Direction.egress.rules pol := hr
    rw [hrules] at hr
    obtain ⟨a, ha, rfl⟩ := List.mem_map.mp hr
    exact ⟨np, hnp, .egress, a, ha, rfl⟩

namespace Stores.Enforceable

variable (hs : s.Enforceable parseNet parseIp)
include hs

theorem singleDirection : SingleDirection (s.snapshot parseNet parseIp) := by
  intro pol hpol
  obtain ⟨np, hnp, hmap⟩ := mem_snapshot_policies.mp hpol
  have hcovers := (mapPolicy_head hmap).2
  have hone := hs.oneDirection np hnp
  rw [← hcovers, ← hcovers] at hone
  simp only [Direction.covers] at hone
  intro heq
  rw [heq] at hone
  exact iff_not_self hone

theorem noNamedPorts : ∀ pol ∈ (s.snapshot parseNet parseIp).policies, NoNamedPorts pol := by
  intro pol hpol r hr
  obtain ⟨np, hnp, dir, a, ha, rfl⟩ := snapshot_rule hpol hr
  exact mapRule_unnamed hs hnp ha

theorem plainWords {cfg : Config} (htokens : ∀ key, Text.isToken (cfg.hash16 key) = true) :
    PlainWords cfg (s.snapshot parseNet parseIp) where
  hash16 := htokens
  protocol := by
    intro pol hpol r hr q hq
    obtain ⟨np, hnp, dir, a, ha, rfl⟩ := snapshot_rule hpol hr
    obtain ⟨p, hp, rfl⟩ := List.mem_map.mp hq
    have hword := hs.protocol np hnp dir a ha p hp
    show Text.isToken p.proto = true
    unfold K8sPort.proto
    cases hproto : p.protocol with
    | none => decide
    | some q =>
      have hq := hword q hproto
      simp only [List.mem_cons, List.not_mem_nil, or_false] at hq
      obtain rfl | rfl | rfl := hq <;> decide

/-- A sync by its texts is the sync of the plans. -/
theorem sync_eq {cfg : Config} (htokens : ∀ key, Text.isToken (cfg.hash16 key) = true)
    (families : List IpFamily) (k : Kernel) :
    reconcileText cfg families (s.snapshot parseNet parseIp) k =
      reconcile cfg families (s.snapshot parseNet parseIp) k := by
  refine runTextCalls_eq (List.rel_flatMap (R := fun f g => f = g) ?_ ?_) k
  · exact List.forall₂_same.mpr fun _ _ => rfl
  · rintro family _ rfl
    exact read_familyTextCalls (hs.plainWords htokens) family

theorem isolated_iff {p : K8sPod} {pod : Pod} (hp : mapPod parseIp p = some pod) (dir : Direction) :
    Isolated (s.snapshot parseNet parseIp) dir pod ↔ ∃ np ∈ s.policies, np.Governs dir p := by
  constructor
  · intro ⟨pol, hpol, hsel, hcov⟩
    obtain ⟨np, hnp, hmap⟩ := mem_snapshot_policies.mp hpol
    exact ⟨np, hnp, (governs_iff hmap hp dir).mpr ⟨hsel, hcov⟩⟩
  · intro ⟨np, hnp, hgov⟩
    obtain ⟨pol, hmap⟩ := (hs.valid np hnp).mapPolicy_some
    exact ⟨pol, mem_snapshot_policies.mpr ⟨np, hnp, hmap⟩, (governs_iff hmap hp dir).mp hgov⟩

/-- What the rules of the projected policies have, the objects allow. -/
theorem allows_of_hit {p : K8sPod} {pod : Pod} (hp : mapPod parseIp p = some pod) {dir : Direction}
    {pkt : Packet} (hport : pkt.transport.dport ≠ none)
    (h : ∃ pol ∈ (s.snapshot parseNet parseIp).policies, policySelects pol pod = true ∧
      dir.covers pol = true ∧ ∃ r ∈ dir.rules pol,
        ruleHas (s.snapshot parseNet parseIp) pkt.family pol dir pkt r = true) :
    s.Allows parseNet parseIp dir p pkt := by
  obtain ⟨pol, hpol, hsel, hcov, r, hr, hhas⟩ := h
  obtain ⟨np, hnp, hmap⟩ := mem_snapshot_policies.mp hpol
  obtain ⟨port, hport⟩ := Option.ne_none_iff_exists'.mp hport
  rw [(mapPolicy_rules hmap).2] at hr
  obtain ⟨a, ha, rfl⟩ := List.mem_map.mp hr
  exact ⟨np, hnp, (governs_iff hmap hp dir).mpr ⟨hsel, hcov⟩, a, ha,
    allows_of_has hs hnp hmap ha hport hhas⟩

theorem hit_of_allows (hplain : s.Plain) {p : K8sPod} {pod : Pod} (hp : mapPod parseIp p = some pod)
    {dir : Direction} {pkt : Packet} (h : s.Allows parseNet parseIp dir p pkt) :
    ∃ pol ∈ (s.snapshot parseNet parseIp).policies, policySelects pol pod = true ∧
      dir.covers pol = true ∧ ∃ r ∈ dir.rules pol,
        ruleHas (s.snapshot parseNet parseIp) pkt.family pol dir pkt r = true := by
  obtain ⟨np, hnp, hgov, a, ha, hallows⟩ := h
  obtain ⟨pol, hmap⟩ := (hs.valid np hnp).mapPolicy_some
  obtain ⟨hsel, hcov⟩ := (governs_iff hmap hp dir).mp hgov
  refine ⟨pol, mem_snapshot_policies.mpr ⟨np, hnp, hmap⟩, hsel, hcov, mapRule parseNet a, ?_,
    has_of_allows hs hplain hnp hmap ha hallows⟩
  rw [(mapPolicy_rules hmap).2]
  exact List.mem_map_of_mem ha

end Stores.Enforceable

end Projected

/-! ## Syncs -/

/-- Behind every sync that succeeds, FORWARD and OUTPUT reject each packet of the restricted kind
that the objects deny at one of its ends, and, where no rule has an ipBlock or an endPort, no other
one of that kind. -/
theorem policies_enforced {parseNet : String → Option IpNet} {parseIp : String → Option IpAddr}
    {s : Stores} {cfg : Config} {families : List IpFamily} {k k' : Kernel} {pkt : Packet}
    (hs : s.Enforceable parseNet parseIp)
    (hlen : ∀ key, (cfg.hash16 key).length = hashLen)
    (htokens : ∀ key, Text.isToken (cfg.hash16 key) = true)
    (hnames : DistinctNames cfg (s.snapshot parseNet parseIp) pkt.family)
    (hdeny : cfg.defaultDeny = false)
    (hsync : reconcileText cfg families (s.snapshot parseNet parseIp) k = (k', true))
    (hfamily : pkt.family ∈ families) (hnew : pkt.ctstate = .new)
    (hport : pkt.transport.dport ≠ none) (hsrc : pkt.srcLocal = false)
    (hmark : pkt.mark &&& markMatched = 0)
    (happart : ∀ p ∈ s.pods, ¬(pkt.src ∈ p.addresses parseIp ∧ pkt.dst ∈ p.addresses parseIp))
    (h : Hook) (hh : h ≠ .input) (n : Nat) :
    ((∃ dir, s.Denies parseNet parseIp cfg.node dir pkt) →
      k'.traverse (n + 3) h.chain pkt = .done .reject) ∧
    (s.Plain → k'.traverse (n + 3) h.chain pkt = .done .reject →
      ∃ dir, s.Denies parseNet parseIp cfg.node dir pkt) := by
  have hran : Ran (passCalls cfg families (s.snapshot parseNet parseIp)) k k' := by
    rw [Ran, ← hsync]
    exact (hs.sync_eq htokens families k).symm
  have hinstalled := pass_installed hran pkt.family hfamily
  have hapart : ∀ {p : K8sPod} {pod : Pod}, p ∈ s.pods → mapPod parseIp p = some pod →
      ¬(pkt.src ∈ pod.ips ∧ pkt.dst ∈ pod.ips) := by
    intro p pod hp hmap
    rw [(mapPod_eq_some hmap).2.2.1]
    exact happart p hp
  rw [traverse_installed pkt hinstalled (hook_declared h),
    rejects_iff_unmatched hlen hnames hdeny hnew hport hsrc hmark hh]
  constructor
  · intro hdenies
    obtain ⟨dir, p, hp, _, hnode, hhost, hown, hgoverned, hnone⟩ := hdenies
    obtain ⟨hpns, hpname⟩ := hs.pods p hp
    obtain ⟨ns, hns⟩ := Option.isSome_iff_exists.mp hpns
    obtain ⟨name, hname⟩ := Option.isSome_iff_exists.mp hpname
    obtain ⟨pod, hmap⟩ : ∃ pod, mapPod parseIp p = some pod := by
      rw [mapPod, hns, hname]
      exact ⟨_, rfl⟩
    obtain ⟨-, -, hips, hpnode, hphost⟩ := mapPod_eq_some hmap
    refine ⟨dir, pod, (unmarked_iff hnames hs.singleDirection hs.noNamedPorts
      (hapart hp hmap)).mpr ⟨mem_snapshot_pods.mpr ⟨p, hp, hmap⟩, hpnode.trans hnode,
      hphost.trans hhost, hips ▸ hown, (hs.isolated_iff hmap dir).mpr hgoverned, fun hhit => ?_⟩⟩
    exact hnone (hs.allows_of_hit hmap hport hhit)
  · intro hplain hleft
    obtain ⟨dir, pod, hunmarked⟩ := hleft
    obtain ⟨p, hp, hmap⟩ :=
      mem_snapshot_pods.mp (mem_chainPods.mp hunmarked.1).1
    obtain ⟨-, hnode, hhost, hown, hiso, hnone⟩ := (unmarked_iff hnames hs.singleDirection
      hs.noNamedPorts (hapart hp hmap)).mp hunmarked
    obtain ⟨-, -, hips, hpnode, hphost⟩ := mapPod_eq_some hmap
    rw [hips] at hown
    refine ⟨dir, p, hp, ?_, hpnode.symm.trans hnode, hphost.symm.trans hhost, hown,
      (hs.isolated_iff hmap dir).mp hiso, fun hallows => ?_⟩
    · refine Bool.eq_false_of_not_eq_true fun hfin => ?_
      rw [hs.finished p hp hfin] at hown
      cases hown
    · exact hnone (hs.hit_of_allows hplain hmap hallows)

section Sample

/-- `pay`, governed by the policy of `frontObject`, and `cart`. -/
def frontStores : Stores where
  policies := [frontObject]
  pods := [podAt "cart" "cart" "Running" "10.0.0.1", podAt "pay" "pay" "Running" "10.0.0.2"]
  namespaces := []

/-- A connection to `pay` from an address that is no pod's. -/
def strangerToPay : Packet where
  src := .ofOctets 10 0 0 3
  dst := payIp
  transport := .tcp 80

theorem mem_frontObject_rules {dir : Direction} {a : K8sRule} (ha : a ∈ frontObject.rules dir) :
    a = { peers := some [{ podSelector := some { matchLabels := some [("app", "cart")] } }] } := by
  cases dir with
  | ingress => exact List.mem_singleton.mp ha
  | egress => cases ha

theorem frontStores_enforceable : frontStores.Enforceable parseTen parseSample where
  valid np hnp := by
    obtain rfl := List.mem_singleton.mp hnp
    refine ⟨⟨rfl, rfl, rfl⟩, fun dir a ha p hp b hb => ?_, fun dir a ha p hp => ?_⟩
    · obtain rfl := mem_frontObject_rules ha
      obtain rfl := List.mem_singleton.mp hp
      cases hb
    · obtain rfl := mem_frontObject_rules ha
      cases hp
  inside np hnp dir a ha p hp b hb := by
    obtain rfl := List.mem_singleton.mp hnp
    obtain rfl := mem_frontObject_rules ha
    obtain rfl := List.mem_singleton.mp hp
    cases hb
  numeric np hnp dir a ha p hp := by
    obtain rfl := List.mem_singleton.mp hnp
    obtain rfl := mem_frontObject_rules ha
    cases hp
  protocol np hnp dir a ha p hp := by
    obtain rfl := List.mem_singleton.mp hnp
    obtain rfl := mem_frontObject_rules ha
    cases hp
  oneDirection np hnp := by
    obtain rfl := List.mem_singleton.mp hnp
    simp [K8sNetworkPolicy.Covers, frontObject]
  pods := by decide
  finished := by decide

theorem frontStores_names :
    DistinctNames sampleConfig (frontStores.snapshot parseTen parseSample)
      strangerToPay.family where
  policies := by decide +kernel
  pods := by decide +kernel
  sets := by decide +kernel

theorem stranger_denied : frontStores.Denies parseTen parseSample "n1" .ingress strangerToPay := by
  refine ⟨podAt "pay" "pay" "Running" "10.0.0.2", by decide, by decide, rfl, rfl, by decide,
    ⟨frontObject, by decide, rfl, ?_, .inl (by decide)⟩, ?_⟩
  · intro sel hsel
    obtain rfl := Option.some.inj hsel
    exact ⟨by decide, fun r hr => absurd hr List.not_mem_nil⟩
  · intro ⟨np, hnp, _, a, ha, ⟨ep, hep, hknows, hadm⟩, _⟩
    obtain rfl := List.mem_singleton.mp hnp
    obtain rfl := mem_frontObject_rules ha
    obtain hnil | ⟨p, hp, hpeer⟩ := hadm
    · cases hnil
    · obtain rfl := List.mem_singleton.mp hp
      obtain ⟨v, hv, -⟩ := hpeer
      obtain ⟨q, hq, -, haddr, -⟩ := hknows v hv
      rw [hep] at haddr
      exact absurd haddr ((by decide : ∀ q ∈ frontStores.pods,
        strangerToPay.addr .src ∉ q.addresses parseSample) q hq)

end Sample

theorem stranger_rejected : ∃ k',
    reconcileText sampleConfig [.V4] (frontStores.snapshot parseTen parseSample) .clean =
      (k', true) ∧ k'.traverse 3 Hook.forward.chain strangerToPay = .done .reject := by
  have hok : (reconcile sampleConfig [.V4] (frontStores.snapshot parseTen parseSample)
      .clean).2 = true := by decide +kernel
  have htokens : ∀ key, Text.isToken (sampleConfig.hash16 key) = true := sampleHash_isToken
  rw [← frontStores_enforceable.sync_eq htokens] at hok
  cases hsync : reconcileText sampleConfig [.V4] (frontStores.snapshot parseTen parseSample) .clean
    with
  | mk k' ok =>
    rw [hsync] at hok
    obtain rfl : ok = true := hok
    exact ⟨k', rfl, (policies_enforced frontStores_enforceable sampleHash_length htokens
      frontStores_names rfl hsync (by decide) rfl (by decide) rfl (by decide) (by decide) .forward
      (by decide) 0).1 ⟨.ingress, stranger_denied⟩⟩

end KubeRouter.Agent
