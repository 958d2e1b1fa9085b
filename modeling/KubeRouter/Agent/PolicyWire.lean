/-
  The projection of Kubernetes NetworkPolicy objects (`netpol_wire.rs`, `match_labels` to
  `map_policy`), and what it makes of their meaning.

  The objects keep every optional field apart from its default. `parseNet` stands for
  `str::parse::<IpNet>` of the `ipnet` crate. Protocols are ASCII words.

  API reading. `K8sRule.Admits` says what a rule admits as it is written: an element that cannot
  be read admits nothing, an exception that cannot be read leaves nothing of its block, a port
  with an endPort admits the range. A named port stands for the numbers `named` gives it: its
  receivers are not part of the object.

  Proved:
  * `projection_preserves_iff`: exactly when an object the API admits keeps its meaning.
  * `endPort_dropped`: an endPort is lost.
  * `projection_never_widens_iff`: exactly when no rule of an object, resolved against a world,
    lets in more than it says.
  * `unusable_block_opens`: a rule whose only block cannot be parsed lets everything in.
-/
import KubeRouter.Netpol.IpBlock

namespace KubeRouter.Agent

open KubeRouter.Netpol

/-! ## Kubernetes objects -/

structure K8sRequirement where
  key : String
  operator : String
  values : Option (List String)
deriving DecidableEq, Repr

structure K8sLabelSelector where
  matchLabels : Option Labels := none
  matchExpressions : Option (List K8sRequirement) := none
deriving DecidableEq, Repr

structure K8sIpBlock where
  cidr : String
  except : Option (List String) := none
deriving DecidableEq, Repr

structure K8sPeer where
  ipBlock : Option K8sIpBlock := none
  namespaceSelector : Option K8sLabelSelector := none
  podSelector : Option K8sLabelSelector := none
deriving DecidableEq, Repr

inductive IntOrString where
  | int (n : Int)
  | string (s : String)
deriving DecidableEq, Repr

structure K8sPort where
  port : Option IntOrString := none
  endPort : Option Int := none
  protocol : Option String := none
deriving DecidableEq, Repr

/-- `NetworkPolicyIngressRule` (`from`) and `NetworkPolicyEgressRule` (`to`). -/
structure K8sRule where
  peers : Option (List K8sPeer) := none
  ports : Option (List K8sPort) := none
deriving DecidableEq, Repr

structure K8sPolicySpec where
  podSelector : Option K8sLabelSelector := none
  policyTypes : Option (List String) := none
  ingress : Option (List K8sRule) := none
  egress : Option (List K8sRule) := none
deriving DecidableEq, Repr

structure K8sNetworkPolicy where
  ns : Option String
  name : Option String
  spec : Option K8sPolicySpec
deriving DecidableEq, Repr

/-! ## The projection -/

def selectorOp (operator : String) : Option SelectorOp :=
  if operator = "In" then some .In
  else if operator = "NotIn" then some .NotIn
  else if operator = "Exists" then some .Exists
  else if operator = "DoesNotExist" then some .DoesNotExist
  else none

def matchLabels (sel : K8sLabelSelector) : LabelSelector where
  matchLabels := sel.matchLabels.getD []
  matchExpressions := (sel.matchExpressions.getD []).map fun r =>
    { key := r.key, operator := selectorOp r.operator, values := r.values.getD [] }

/-- `u16::try_from`. -/
def toU16 (n : Int) : Option UInt16 :=
  if 0 ≤ n ∧ n < 65536 then some (UInt16.ofNat n.toNat) else none

/-- `to_lowercase`, on ASCII. -/
def toLowercase (s : String) : String := String.ofList (s.toList.map Char.toLower)

/-- The protocol of a port entry, lowercase; TCP when none is given. -/
def K8sPort.proto (p : K8sPort) : String := toLowercase (p.protocol.getD "TCP")

def mapPort (p : K8sPort) : PortSpec where
  protocol := p.proto
  port := match p.port with
    | none => .all
    | some (.int n) => ((toU16 n).map .number).getD .all
    | some (.string name) => .name name

def mapPorts (ports : Option (List K8sPort)) : List PortSpec := (ports.getD []).map mapPort

section Projection

variable (parseNet : String → Option IpNet)

def mapPeer (p : K8sPeer) : Option Peer :=
  match p.ipBlock with
  | some block => (parseNet block.cidr).map fun cidr =>
      .ipBlock cidr ((block.except.getD []).filterMap parseNet)
  | none => some (.selector (p.namespaceSelector.map matchLabels) (p.podSelector.map matchLabels))

def mapRule (r : K8sRule) : PolicyRule where
  peers := (r.peers.getD []).filterMap (mapPeer parseNet)
  ports := mapPorts r.ports

def mapPolicyTypes (spec : K8sPolicySpec) : PolicyTypes :=
  let types := spec.policyTypes.getD []
  let hasEgressRules := spec.egress.any (!·.isEmpty)
  { ingress := types.contains "Ingress" || types.isEmpty
    egress := types.contains "Egress" || (types.isEmpty && hasEgressRules) }

def mapPolicy (np : K8sNetworkPolicy) : Option NetworkPolicy :=
  np.ns.bind fun ns => np.name.bind fun name => np.spec.map fun spec =>
    { ns := ns
      name := name
      podSelector := (spec.podSelector.map matchLabels).getD ⟨[], []⟩
      policyTypes := mapPolicyTypes spec
      ingress := (spec.ingress.getD []).map (mapRule parseNet)
      egress := (spec.egress.getD []).map (mapRule parseNet) }

end Projection

/-! ## The API reading -/

/-- A pod as selectors see it; `nsLabels` is `none` when its namespace object is not known. -/
structure PodView where
  ns : String
  labels : Labels
  nsLabels : Option Labels
deriving DecidableEq, Repr

/-- The other side of a connection. -/
structure Endpoint where
  addr : IpAddr
  pod : Option PodView := none
deriving DecidableEq, Repr

namespace K8sRequirement

def Holds (r : K8sRequirement) (labels : Labels) : Prop :=
  (r.operator = "In" ∧ ∃ v, labels.lookup r.key = some v ∧ v ∈ r.values.getD []) ∨
  (r.operator = "NotIn" ∧ ∀ v, labels.lookup r.key = some v → v ∉ r.values.getD []) ∨
  (r.operator = "Exists" ∧ ∃ v, labels.lookup r.key = some v) ∨
  (r.operator = "DoesNotExist" ∧ labels.lookup r.key = none)

end K8sRequirement

def K8sLabelSelector.Matches (sel : K8sLabelSelector) (labels : Labels) : Prop :=
  (∀ kv ∈ sel.matchLabels.getD [], labels.lookup kv.1 = some kv.2) ∧
    ∀ r ∈ sel.matchExpressions.getD [], r.Holds labels

section Reading

variable (parseNet : String → Option IpNet) (named : String → String → UInt16 → Prop)

def K8sIpBlock.Admits (b : K8sIpBlock) (x : IpAddr) : Prop :=
  (∃ cidr, parseNet b.cidr = some cidr ∧ cidr.contains x = true) ∧
    ∀ e ∈ b.except.getD [], ∃ net, parseNet e = some net ∧ net.contains x = false

def K8sPeer.Admits (policyNs : String) (ep : Endpoint) (p : K8sPeer) : Prop :=
  match p.ipBlock with
  | some block => block.Admits parseNet ep.addr
  | none => ∃ pod, ep.pod = some pod ∧
      (match p.namespaceSelector with
        | none => pod.ns = policyNs
        | some sel => ∃ labels, pod.nsLabels = some labels ∧ sel.Matches labels) ∧
      ∀ sel, p.podSelector = some sel → sel.Matches pod.labels

def K8sPort.Admits (protocol : String) (port : UInt16) (p : K8sPort) : Prop :=
  protocol = p.proto ∧
    match p.port, p.endPort with
    | none, _ => True
    | some (.int n), none => (port.toNat : Int) = n
    | some (.int n), some e => 0 ≤ n ∧ n ≤ port.toNat ∧ port.toNat ≤ e
    | some (.string name), _ => named name protocol port

def K8sRule.AdmitsPeer (policyNs : String) (ep : Endpoint) (r : K8sRule) : Prop :=
  r.peers.getD [] = [] ∨ ∃ p ∈ r.peers.getD [], p.Admits parseNet policyNs ep

def K8sRule.AdmitsPort (protocol : String) (port : UInt16) (r : K8sRule) : Prop :=
  r.ports.getD [] = [] ∨ ∃ p ∈ r.ports.getD [], p.Admits named protocol port

end Reading

namespace K8sNetworkPolicy

def rules (np : K8sNetworkPolicy) : Direction → List K8sRule
  | .ingress => (np.spec.bind (·.ingress)).getD []
  | .egress => (np.spec.bind (·.egress)).getD []

/-- The directions the policy applies to: those it names, or else ingress always and egress with
an egress rule. -/
def Covers (np : K8sNetworkPolicy) (dir : Direction) : Prop :=
  let types := (np.spec.bind (·.policyTypes)).getD []
  match dir with
  | .ingress => "Ingress" ∈ types ∨ types = []
  | .egress => "Egress" ∈ types ∨ (types = [] ∧ np.rules .egress ≠ [])

/-- No pod selector selects every pod. -/
def Selects (np : K8sNetworkPolicy) (labels : Labels) : Prop :=
  ∀ sel, np.spec.bind (·.podSelector) = some sel → sel.Matches labels

end K8sNetworkPolicy

/-! ## The projected reading -/

/-- A projected peer and an endpoint. -/
def AdmitsEndpoint (policyNs : String) (ep : Endpoint) : Peer → Prop
  | .selector nsSel podSel => ∃ pod, ep.pod = some pod ∧
      (match nsSel with
        | none => pod.ns = policyNs
        | some sel => ∃ labels, pod.nsLabels = some labels ∧ selectorMatches sel labels = true) ∧
      ∀ sel, podSel = some sel → selectorMatches sel pod.labels = true
  | .ipBlock cidr except =>
      cidr.contains ep.addr = true ∧ ∀ e ∈ except, e.contains ep.addr = false

/-- A projected port entry and a port. -/
def AdmitsPort (named : String → String → UInt16 → Prop) (protocol : String) (port : UInt16)
    (p : PortSpec) : Prop :=
  protocol = p.protocol ∧
    match p.port with
    | .all => True
    | .number n => port = n
    | .name n => named n protocol port

/-- Empty peers match every peer, empty ports every port. -/
def RuleAdmits (named : String → String → UInt16 → Prop) (policyNs : String) (ep : Endpoint)
    (protocol : String) (port : UInt16) (r : PolicyRule) : Prop :=
  (r.peers = [] ∨ ∃ p ∈ r.peers, AdmitsEndpoint policyNs ep p) ∧
    (r.ports = [] ∨ ∃ p ∈ r.ports, AdmitsPort named protocol port p)

/-! ## One element at a time -/

theorem requirement_holds (r : K8sRequirement) (labels : Labels) :
    (SelectorRequirement.holds ⟨r.key, selectorOp r.operator, r.values.getD []⟩ labels = true) ↔
      r.Holds labels := by
  unfold selectorOp K8sRequirement.Holds SelectorRequirement.holds
  split
  · rename_i hop
    simp [hop, Option.any_eq_true]
  · split
    · rename_i hop
      cases hv : labels.lookup r.key <;> simp [hop]
    · split
      · rename_i hop
        simp [hop, Option.isSome_iff_exists]
      · split
        · rename_i hop
          simp [hop]
        · rename_i h1 h2 h3 h4
          simp [h1, h2, h3, h4]

theorem selectorMatches_matchLabels (sel : K8sLabelSelector) (labels : Labels) :
    selectorMatches (matchLabels sel) labels = true ↔ sel.Matches labels := by
  simp only [selectorMatches, matchLabels, K8sLabelSelector.Matches, Bool.and_eq_true,
    List.all_eq_true, List.mem_map, forall_exists_index, and_imp, forall_apply_eq_imp_iff₂,
    requirement_holds, beq_iff_eq]

theorem toU16_eq_some {n : Int} {u : UInt16} : toU16 n = some u ↔ (u.toNat : Int) = n := by
  unfold toU16
  constructor
  · intro h
    obtain ⟨hr, hu⟩ := Option.ite_none_right_eq_some.mp h
    rw [← Option.some.inj hu, UInt16.toNat_ofNat']
    omega
  · intro h
    have hlt := u.toNat_lt
    rw [if_pos (by omega), ← h, Int.toNat_natCast, UInt16.ofNat_toNat]

theorem toU16_eq_none {n : Int} : toU16 n = none ↔ n < 0 ∨ 65535 < n := by
  unfold toU16
  split
  · simp
    omega
  · simp
    omega

section Elements

variable {parseNet : String → Option IpNet} {named : String → String → UInt16 → Prop}

/-- The projected selector peer. -/
theorem selector_admits {p : K8sPeer} (hp : p.ipBlock = none) (policyNs : String) (ep : Endpoint) :
    AdmitsEndpoint policyNs ep
        (.selector (p.namespaceSelector.map matchLabels) (p.podSelector.map matchLabels)) ↔
      p.Admits parseNet policyNs ep := by
  unfold AdmitsEndpoint K8sPeer.Admits
  rw [hp]
  refine exists_congr fun pod => and_congr_right fun _ => and_congr ?_ ?_
  · cases p.namespaceSelector with
    | none => rfl
    | some sel =>
      exact exists_congr fun labels => and_congr_right fun _ =>
        selectorMatches_matchLabels sel labels
  · cases p.podSelector with
    | none => simp
    | some sel => simpa using selectorMatches_matchLabels sel pod.labels

/-- The projected block, when every text of it parses. -/
theorem block_admits {b : K8sIpBlock} {cidr : IpNet} (hcidr : parseNet b.cidr = some cidr)
    (hexcept : ∀ e ∈ b.except.getD [], (parseNet e).isSome = true) (policyNs : String)
    (ep : Endpoint) :
    AdmitsEndpoint policyNs ep (.ipBlock cidr ((b.except.getD []).filterMap parseNet)) ↔
      b.Admits parseNet ep.addr := by
  unfold AdmitsEndpoint K8sIpBlock.Admits
  refine and_congr (by simp [hcidr]) ?_
  simp only [List.mem_filterMap, forall_exists_index, and_imp]
  constructor
  · intro h e he
    obtain ⟨net, hnet⟩ := Option.isSome_iff_exists.mp (hexcept e he)
    exact ⟨net, hnet, h net e he hnet⟩
  · intro h net e he hnet
    obtain ⟨net', hnet', hout⟩ := h e he
    rw [hnet, Option.some_inj] at hnet'
    rwa [hnet']

/-- The entry without its endPort. -/
def K8sPort.single (p : K8sPort) : K8sPort := { p with endPort := none }

theorem mapPort_admits {p : K8sPort}
    (hrange : ∀ n, p.port = some (.int n) → (toU16 n).isSome = true)
    (protocol : String) (port : UInt16) :
    AdmitsPort named protocol port (mapPort p) ↔ p.single.Admits named protocol port := by
  unfold AdmitsPort K8sPort.Admits K8sPort.single mapPort
  refine and_congr_right fun _ => ?_
  rcases hport : p.port with _ | n | name
  · simp
  · obtain ⟨u, hu⟩ := Option.isSome_iff_exists.mp (hrange n hport)
    simp only [hu, Option.map_some, Option.getD_some]
    rw [← toU16_eq_some, hu, Option.some_inj, eq_comm]
  · simp

end Elements

/-! ## Objects the API admits -/

section Preserves

variable (parseNet : String → Option IpNet) (named : String → String → UInt16 → Prop)

/-- What the API server checks of an object, as far as the projection depends on it. -/
structure ApiValid (np : K8sNetworkPolicy) : Prop where
  metadata : np.ns.isSome = true ∧ np.name.isSome = true ∧ np.spec.isSome = true
  cidrs : ∀ dir, ∀ r ∈ np.rules dir, ∀ p ∈ r.peers.getD [], ∀ b, p.ipBlock = some b →
    (parseNet b.cidr).isSome = true ∧ ∀ e ∈ b.except.getD [], (parseNet e).isSome = true
  ports : ∀ dir, ∀ r ∈ np.rules dir, ∀ p ∈ r.ports.getD [], ∀ n, p.port = some (.int n) →
    1 ≤ n ∧ n ≤ 65535 ∧ ∀ e, p.endPort = some e → n ≤ e ∧ e ≤ 65535

/-- The projected policy says what the object says. -/
structure Preserved (np : K8sNetworkPolicy) (pol : NetworkPolicy) : Prop where
  ns : np.ns = some pol.ns
  selects : ∀ labels, selectorMatches pol.podSelector labels = true ↔ np.Selects labels
  covers : ∀ dir : Direction, dir.covers pol = true ↔ np.Covers dir
  length : ∀ dir : Direction, (dir.rules pol).length = (np.rules dir).length
  admits : ∀ (dir : Direction) (i : Nat) (r : PolicyRule) (a : K8sRule),
    (dir.rules pol)[i]? = some r → (np.rules dir)[i]? = some a →
    ∀ (ep : Endpoint) (protocol : String) (port : UInt16),
      RuleAdmits named pol.ns ep protocol port r ↔
        a.AdmitsPeer parseNet pol.ns ep ∧ a.AdmitsPort named protocol port

/-- Every port of an entry's range is admitted by the rule's entries without their endPorts, in
every rule that admits some peer. -/
def EndPortsCovered (np : K8sNetworkPolicy) : Prop :=
  ∀ dir, ∀ r ∈ np.rules dir, (∃ ep, r.AdmitsPeer parseNet (np.ns.getD "") ep) →
    ∀ p ∈ r.ports.getD [], ∀ n e, p.port = some (.int n) → p.endPort = some e →
      ∀ q : UInt16, n ≤ q.toNat → (q.toNat : Int) ≤ e →
        ∃ p' ∈ r.ports.getD [], p'.single.Admits named p.proto q

end Preserves

section Preserves

variable {parseNet : String → Option IpNet} {named : String → String → UInt16 → Prop}

theorem mapRule_peers {r : K8sRule} (hcidrs : ∀ p ∈ r.peers.getD [], ∀ b, p.ipBlock = some b →
      (parseNet b.cidr).isSome = true ∧ ∀ e ∈ b.except.getD [], (parseNet e).isSome = true)
    (policyNs : String) (ep : Endpoint) :
    ((mapRule parseNet r).peers = [] ∨
      ∃ p ∈ (mapRule parseNet r).peers, AdmitsEndpoint policyNs ep p) ↔
      r.AdmitsPeer parseNet policyNs ep := by
  -- no peer is dropped, and each keeps its meaning
  have hpeer : ∀ p ∈ r.peers.getD [], ∃ peer, mapPeer parseNet p = some peer ∧
      (AdmitsEndpoint policyNs ep peer ↔ p.Admits parseNet policyNs ep) := by
    intro p hp
    cases hb : p.ipBlock with
    | none => exact ⟨_, by rw [mapPeer, hb], selector_admits hb policyNs ep⟩
    | some b =>
      obtain ⟨hcidr, hexcept⟩ := hcidrs p hp b hb
      obtain ⟨cidr, hcidr⟩ := Option.isSome_iff_exists.mp hcidr
      refine ⟨_, by rw [mapPeer, hb]; simp [hcidr]; rfl, ?_⟩
      rw [block_admits hcidr hexcept, K8sPeer.Admits, hb]
  unfold K8sRule.AdmitsPeer
  refine or_congr ?_ ?_
  · rw [mapRule, List.filterMap_eq_nil_iff]
    constructor
    · intro hall
      refine List.eq_nil_iff_forall_not_mem.mpr fun p hp => ?_
      obtain ⟨peer, hmap, -⟩ := hpeer p hp
      rw [hall p hp] at hmap
      cases hmap
    · intro hnil p hp
      rw [hnil] at hp
      cases hp
  · simp only [mapRule, List.mem_filterMap]
    constructor
    · rintro ⟨peer, ⟨p, hp, hmap⟩, hadm⟩
      obtain ⟨peer', hmap', hiff⟩ := hpeer p hp
      rw [hmap, Option.some_inj] at hmap'
      subst hmap'
      exact ⟨p, hp, hiff.mp hadm⟩
    · rintro ⟨p, hp, hadm⟩
      obtain ⟨peer, hmap, hiff⟩ := hpeer p hp
      exact ⟨peer, ⟨p, hp, hmap⟩, hiff.mpr hadm⟩

theorem mapRule_ports {r : K8sRule} (hrange : ∀ p ∈ r.ports.getD [], ∀ n, p.port = some (.int n) →
      (toU16 n).isSome = true) (protocol : String) (port : UInt16) :
    ((mapRule parseNet r).ports = [] ∨
        ∃ p ∈ (mapRule parseNet r).ports, AdmitsPort named protocol port p) ↔
      r.ports.getD [] = [] ∨ ∃ p ∈ r.ports.getD [], p.single.Admits named protocol port := by
  refine or_congr ?_ ?_
  · rw [mapRule, mapPorts, List.map_eq_nil_iff]
  · simp only [mapRule, mapPorts, List.mem_map, exists_exists_and_eq_and]
    exact exists_congr fun p => and_congr_right fun hp => mapPort_admits (hrange p hp) protocol port

/-- A projected policy has the object's rules, in order. -/
theorem mapPolicy_rules {np : K8sNetworkPolicy} {pol : NetworkPolicy}
    (h : mapPolicy parseNet np = some pol) :
    np.ns = some pol.ns ∧
      ∀ dir : Direction, dir.rules pol = (np.rules dir).map (mapRule parseNet) := by
  obtain ⟨ns, hns, h⟩ := Option.bind_eq_some_iff.mp h
  obtain ⟨name, -, h⟩ := Option.bind_eq_some_iff.mp h
  obtain ⟨spec, hspec, rfl⟩ := Option.map_eq_some_iff.mp h
  refine ⟨hns, ?_⟩
  intro dir
  cases dir <;> simp [Direction.rules, K8sNetworkPolicy.rules, hspec]

theorem mapPolicyTypes_covers {np : K8sNetworkPolicy} {spec : K8sPolicySpec}
    (hspec : np.spec = some spec) :
    ((mapPolicyTypes spec).ingress = true ↔ np.Covers .ingress) ∧
      ((mapPolicyTypes spec).egress = true ↔ np.Covers .egress) := by
  have hrules : spec.egress.any (!·.isEmpty) = true ↔ np.rules .egress ≠ [] := by
    cases hegress : spec.egress with
    | none => simp [K8sNetworkPolicy.rules, hspec, hegress]
    | some rules => simp [K8sNetworkPolicy.rules, hspec, hegress]
  constructor
  · simp [mapPolicyTypes, K8sNetworkPolicy.Covers, hspec]
  · simp only [mapPolicyTypes, K8sNetworkPolicy.Covers, hspec, Option.bind_some, Bool.or_eq_true,
      Bool.and_eq_true, hrules, List.contains_iff_mem, List.isEmpty_iff]

/-- Everything but the rules is kept as it is. -/
theorem mapPolicy_head {np : K8sNetworkPolicy} {pol : NetworkPolicy}
    (h : mapPolicy parseNet np = some pol) :
    (∀ labels, selectorMatches pol.podSelector labels = true ↔ np.Selects labels) ∧
      ∀ dir : Direction, dir.covers pol = true ↔ np.Covers dir := by
  obtain ⟨ns, -, h⟩ := Option.bind_eq_some_iff.mp h
  obtain ⟨name, -, h⟩ := Option.bind_eq_some_iff.mp h
  obtain ⟨spec, hspec, rfl⟩ := Option.map_eq_some_iff.mp h
  constructor
  · intro labels
    cases hsel : spec.podSelector with
    | none => simp [K8sNetworkPolicy.Selects, hspec, hsel, selectorMatches]
    | some sel =>
      simpa [K8sNetworkPolicy.Selects, hspec, hsel] using selectorMatches_matchLabels sel labels
  · intro dir
    cases dir with
    | ingress => exact (mapPolicyTypes_covers hspec).1
    | egress => exact (mapPolicyTypes_covers hspec).2

theorem ApiValid.mapPolicy_some {np : K8sNetworkPolicy} (hvalid : ApiValid parseNet np) :
    ∃ pol, mapPolicy parseNet np = some pol := by
  obtain ⟨hns, hname, hspec⟩ := hvalid.metadata
  obtain ⟨ns, hns⟩ := Option.isSome_iff_exists.mp hns
  obtain ⟨name, hname⟩ := Option.isSome_iff_exists.mp hname
  obtain ⟨spec, hspec⟩ := Option.isSome_iff_exists.mp hspec
  rw [mapPolicy, hns, hname, hspec]
  exact ⟨_, rfl⟩

/-- The first port of a range belongs to the range. -/
theorem single_admits {p : K8sPort} (hvalid : ∀ n, p.port = some (.int n) →
    1 ≤ n ∧ n ≤ 65535 ∧ ∀ e, p.endPort = some e → n ≤ e ∧ e ≤ 65535) {protocol : String}
    {port : UInt16} (h : p.single.Admits named protocol port) : p.Admits named protocol port := by
  refine ⟨h.1, ?_⟩
  have h2 := h.2
  rcases hport : p.port with _ | n | name
  · simp
  · obtain ⟨hlow, -, hend⟩ := hvalid n hport
    have heq : (port.toNat : Int) = n := by simpa [K8sPort.single, hport] using h2
    cases he : p.endPort with
    | none => exact heq
    | some e =>
      have hle := (hend e he).1
      exact ⟨by omega, by omega, by omega⟩
  · simpa [K8sPort.single, hport] using h2

/-- What a rule admits beyond its projection lies in a range. -/
theorem port_cases {p : K8sPort} {protocol : String} {port : UInt16}
    (h : p.Admits named protocol port) :
    p.single.Admits named protocol port ∨ ∃ n e, p.port = some (.int n) ∧ p.endPort = some e ∧
      protocol = p.proto ∧ n ≤ port.toNat ∧ (port.toNat : Int) ≤ e := by
  obtain ⟨hproto, hport⟩ := h
  rcases hp : p.port with _ | n | name
  · exact Or.inl ⟨hproto, by simp [K8sPort.single, hp]⟩
  · cases he : p.endPort with
    | none =>
      rw [hp, he] at hport
      exact Or.inl ⟨hproto, by simpa [K8sPort.single, hp] using hport⟩
    | some e =>
      rw [hp, he] at hport
      exact Or.inr ⟨n, e, rfl, rfl, hproto, hport.2.1, hport.2.2⟩
  · rw [hp] at hport
    exact Or.inl ⟨hproto, by simpa [K8sPort.single, hp] using hport⟩

/-- The projection of an object the API admits keeps its meaning exactly when no port is lost
with an endPort. -/
theorem projection_preserves_iff (named : String → String → UInt16 → Prop)
    {np : K8sNetworkPolicy} (hvalid : ApiValid parseNet np) :
    (∃ pol, mapPolicy parseNet np = some pol ∧ Preserved parseNet named np pol) ↔
      EndPortsCovered parseNet named np := by
  obtain ⟨pol, hpol⟩ := hvalid.mapPolicy_some
  obtain ⟨hns, hrules⟩ := mapPolicy_rules hpol
  obtain ⟨hselects, hcovers⟩ := mapPolicy_head hpol
  have hrange : ∀ dir, ∀ r ∈ np.rules dir, ∀ p ∈ r.ports.getD [], ∀ n, p.port = some (.int n) →
      (toU16 n).isSome = true := by
    intro dir r hr p hp n hn
    obtain ⟨hlow, hhigh, -⟩ := hvalid.ports dir r hr p hp n hn
    rw [Option.isSome_iff_ne_none, Ne, toU16_eq_none]
    omega
  -- a projected rule admits what the rule without endPorts admits
  have hrule : ∀ dir, ∀ a ∈ np.rules dir, ∀ ep protocol port,
      RuleAdmits named pol.ns ep protocol port (mapRule parseNet a) ↔
        a.AdmitsPeer parseNet pol.ns ep ∧
          (a.ports.getD [] = [] ∨ ∃ p ∈ a.ports.getD [], p.single.Admits named protocol port) := by
    intro dir a ha ep protocol port
    exact and_congr (mapRule_peers (hvalid.cidrs dir a ha) pol.ns ep)
      (mapRule_ports (hrange dir a ha) protocol port)
  constructor
  · rintro ⟨pol', hpol', hpres⟩ dir a ha ⟨ep, hep⟩ p hp n e hn he q hlow hhigh
    rw [hpol, Option.some_inj] at hpol'
    subst hpol'
    obtain ⟨i, hi⟩ := List.mem_iff_getElem?.mp ha
    rw [hns, Option.getD_some] at hep
    have hadm : a.AdmitsPort named p.proto q := by
      have hfirst := (hvalid.ports dir a ha p hp n hn).1
      refine Or.inr ⟨p, hp, rfl, ?_⟩
      simp only [hn, he]
      exact ⟨by omega, hlow, hhigh⟩
    have hproj := (hpres.admits dir i (mapRule parseNet a) a (by simp [hrules, hi]) hi ep p.proto
      q).mpr ⟨hep, hadm⟩
    rcases ((hrule dir a ha ep p.proto q).mp hproj).2 with hnil | hex
    · rw [hnil] at hp
      cases hp
    · exact hex
  · intro hcov
    refine ⟨pol, hpol, hns, hselects, hcovers, fun dir => by simp [hrules], ?_⟩
    intro dir i r a hr ha ep protocol port
    rw [hrules, List.getElem?_map, ha, Option.map_some, Option.some_inj] at hr
    subst hr
    have hmem := List.mem_of_getElem? ha
    rw [hrule dir a hmem]
    refine and_congr_right fun hep => ?_
    constructor
    · rintro (hnil | ⟨p, hp, hadm⟩)
      · exact Or.inl hnil
      · exact Or.inr ⟨p, hp, single_admits (hvalid.ports dir a hmem p hp) hadm⟩
    · rintro (hnil | ⟨p, hp, hadm⟩)
      · exact Or.inl hnil
      · rcases port_cases hadm with hsingle | ⟨n, e, hn, he, rfl, hlow, hhigh⟩
        · exact Or.inr ⟨p, hp, hsingle⟩
        · refine Or.inr (hcov dir a hmem ⟨ep, ?_⟩ p hp n e hn he port hlow hhigh)
          rw [hns]
          exact hep

end Preserves

/-! ## Any object -/

/-- The world knows the endpoint: an address, or a pod of it that may be a peer. -/
def Endpoint.Seen (w : PolicyWorld) (ep : Endpoint) : Prop :=
  ∀ v, ep.pod = some v → ∃ pod ∈ w.pods, pod.hostNetwork = false ∧ ep.addr ∈ pod.ips ∧
    v.ns = pod.ns ∧ v.labels = pod.labels ∧
    ∀ labels, v.nsLabels = some labels → ∃ n ∈ w.namespaces, n.name = pod.ns ∧ n.labels = labels

section Widens

variable (parseNet : String → Option IpNet) (named : String → String → UInt16 → Prop)
  (w : PolicyWorld) (policyNs : String) (family : IpFamily)

/-- The rule as written admits the address, in this world. -/
def K8sRule.AdmitsAddr (a : K8sRule) (x : IpAddr) : Prop :=
  ∃ ep : Endpoint, ep.addr = x ∧ ep.Seen w ∧ a.AdmitsPeer parseNet policyNs ep

/-- The projected rule lets the address in, its peers resolved. -/
def LetsAddrIn (r : PolicyRule) (x : IpAddr) : Prop :=
  (resolvePeers r.peers w.pods w.namespaces policyNs family).has x = true

/-- The projected rule lets the port in. -/
def LetsPortIn (r : PolicyRule) (protocol : String) (port : UInt16) : Prop :=
  r.ports = [] ∨ ∃ p ∈ r.ports, AdmitsPort named protocol port p

/-- No peer of the rule can be read: each is a block whose CIDR does not parse. -/
def K8sRule.Unreadable (a : K8sRule) : Prop :=
  ∀ p ∈ a.peers.getD [], ∃ b, p.ipBlock = some b ∧ parseNet b.cidr = none

/-- An exception that can be read, of a block of the family that can be read. -/
def Excepted (peers : List K8sPeer) (e : IpNet) : Prop :=
  ∃ q ∈ peers, ∃ b cidr t, q.ipBlock = some b ∧ parseNet b.cidr = some cidr ∧
    cidr.family = family ∧ t ∈ b.except.getD [] ∧ parseNet t = some e

/-- The block can be read and contains the address, and no exception of the rule that contains it
is longer than the block, or as long and not of an earlier block. -/
def K8sRule.BlockOpens (a : K8sRule) (x : IpAddr) (b : K8sIpBlock) : Prop :=
  ∃ pre p post cidr, a.peers.getD [] = pre ++ p :: post ∧ p.ipBlock = some b ∧
    parseNet b.cidr = some cidr ∧ cidr.contains x = true ∧
    (∀ e, Excepted parseNet family pre e → e.contains x = true → e.prefixLen ≤ cidr.prefixLen) ∧
    ∀ e, Excepted parseNet family (p :: post) e → e.contains x = true →
      e.prefixLen < cidr.prefixLen

/-- Which addresses the entries of the rule open, once what cannot be read is left out: all, if
no peer is left, those of pods a selector picks, and those of open blocks. -/
def K8sRule.OpensAddr (a : K8sRule) (x : IpAddr) : Prop :=
  a.Unreadable parseNet ∨
    (∃ p ∈ a.peers.getD [], p.ipBlock = none ∧ ∃ ep : Endpoint, ep.addr = x ∧ ep.Seen w ∧
      p.Admits parseNet policyNs ep) ∨
    ∃ b, a.BlockOpens parseNet family x b

/-- The entries of the rule open some port: not all of them are names without a number. -/
def K8sRule.OpensPort (a : K8sRule) : Prop :=
  a.ports.getD [] = [] ∨ ∃ p ∈ a.ports.getD [],
    ∀ name, p.port = some (.string name) → ∃ port, named name p.proto port

/-- Where unusable elements let an address in: no peer of a list can be read, or a block stays
open although an exception of it cannot be read or contains the address (it is then wider than
the block). -/
inductive PeerHole (a : K8sRule) (x : IpAddr) : Prop
  | noPeer (h : a.peers.getD [] ≠ []) (hnone : a.Unreadable parseNet)
  | except (b : K8sIpBlock) (hopen : a.BlockOpens parseNet family x b) (t : String)
      (ht : t ∈ b.except.getD []) (hole : ∀ e, parseNet t = some e → e.contains x = true)

/-- Where unusable elements let a port in: an integer that is no port, or an endPort below the
port. -/
inductive PortHole (a : K8sRule) (protocol : String) (port : UInt16) : Prop
  | range (p : K8sPort) (hp : p ∈ a.ports.getD []) (hproto : protocol = p.proto) (n : Int)
      (hn : p.port = some (.int n)) (hout : n < 0 ∨ 65535 < n)
  | endPort (p : K8sPort) (hp : p ∈ a.ports.getD []) (hproto : protocol = p.proto) (e : Int)
      (hn : p.port = some (.int port.toNat)) (he : p.endPort = some e) (hlt : e < port.toNat)

variable {parseNet named w policyNs family}

theorem selector_ipEntries {p : K8sPeer} {peer : Peer} {x : IpAddr}
    (hmap : mapPeer parseNet p = some peer)
    (hx : x ∈ peer.ipEntries w.pods w.namespaces policyNs family) :
    ∃ ep : Endpoint, ep.addr = x ∧ ep.Seen w ∧ p.Admits parseNet policyNs ep := by
  cases hb : p.ipBlock with
  | some b =>
    rw [mapPeer, hb] at hmap
    obtain ⟨cidr, -, rfl⟩ := Option.map_eq_some_iff.mp hmap
    cases hx
  | none =>
    rw [mapPeer, hb, Option.some_inj] at hmap
    subst hmap
    obtain ⟨pod, hpod, hip⟩ := List.mem_flatMap.mp hx
    obtain ⟨hmem, hsel⟩ := List.mem_filter.mp hpod
    rw [Bool.and_eq_true, Bool.and_eq_true] at hsel
    obtain ⟨⟨hns, hhost⟩, hpodsel⟩ := hsel
    have hips : x ∈ pod.ips := (List.mem_filter.mp hip).1
    have hhost : pod.hostNetwork = false := by simpa using hhost
    have hlabels : ∀ sel, p.podSelector.map matchLabels = some sel →
        selectorMatches sel pod.labels = true := by
      intro sel hsel
      rw [hsel] at hpodsel
      exact hpodsel
    -- the namespace's labels come from the namespace the selector matched
    have hview : ∃ nsLabels : Option Labels,
        (∀ labels, nsLabels = some labels → ∃ n ∈ w.namespaces, n.name = pod.ns ∧
          n.labels = labels) ∧
        (match p.namespaceSelector.map matchLabels with
          | none => pod.ns = policyNs
          | some sel => ∃ labels, nsLabels = some labels ∧ selectorMatches sel labels = true) := by
      cases hnsel : p.namespaceSelector with
      | none =>
        rw [hnsel] at hns
        exact ⟨none, (fun _ h => by cases h), by simpa [matchedNamespaces] using hns⟩
      | some sel =>
        rw [hnsel] at hns
        simp only [Option.map_some, matchedNamespaces, List.contains_iff_mem, List.mem_map,
          List.mem_filter] at hns
        obtain ⟨n, ⟨hn, hmatch⟩, hname⟩ := hns
        refine ⟨some n.labels, fun labels h => ⟨n, hn, hname, Option.some.inj h⟩, ?_⟩
        exact ⟨n.labels, rfl, hmatch⟩
    obtain ⟨nsLabels, hknown, hnsok⟩ := hview
    refine ⟨⟨x, some ⟨pod.ns, pod.labels, nsLabels⟩⟩, rfl, ?_, ?_⟩
    · rintro v ⟨⟩
      exact ⟨pod, hmem, hhost, hips, rfl, rfl, hknown⟩
    · exact (selector_admits hb policyNs _).mp ⟨_, rfl, hnsok, hlabels⟩

/-- A selector peer that admits an endpoint of the world picks its address. -/
theorem peer_admits_of_seen {p : K8sPeer} {peer : Peer} (hblock : p.ipBlock = none)
    (hmap : mapPeer parseNet p = some peer) {ep : Endpoint} (hseen : ep.Seen w)
    (hadm : p.Admits parseNet policyNs ep) : peer.Admits w policyNs ep.addr := by
  rw [mapPeer, hblock, Option.some_inj] at hmap
  subst hmap
  obtain ⟨v, hv, hns, hsel⟩ := (selector_admits hblock policyNs ep).mpr hadm
  obtain ⟨pod, hpod, hhost, haddr, hvns, hlabels, hnsLabels⟩ := hseen v hv
  refine ⟨pod, hpod, hhost, ?_, fun sel hmem => ?_, haddr⟩
  · cases hnsel : p.namespaceSelector with
    | none =>
      rw [hnsel] at hns
      exact hvns.symm.trans hns
    | some sel =>
      rw [hnsel] at hns
      obtain ⟨labels, hsome, hmatch⟩ := hns
      obtain ⟨n, hn, hname, hl⟩ := hnsLabels labels hsome
      exact ⟨n, hn, hname, hl ▸ hmatch⟩
  · rw [← hlabels]
    exact hsel sel hmem

theorem mapPeer_eq_none {p : K8sPeer} :
    mapPeer parseNet p = none ↔ ∃ b, p.ipBlock = some b ∧ parseNet b.cidr = none := by
  unfold mapPeer
  cases p.ipBlock with
  | none => simp
  | some b => simp

/-- The entries a peer of the object adds to the set of its rule. -/
def peerEntries (parseNet : String → Option IpNet) (family : IpFamily) (p : K8sPeer) :
    List (IpNet × Bool) :=
  ((mapPeer parseNet p).map (·.netEntries family)).getD []

theorem mapRule_netEntries (a : K8sRule) :
    (mapRule parseNet a).peers.flatMap (·.netEntries family) =
    (a.peers.getD []).flatMap (peerEntries parseNet family) := by
  unfold mapRule
  dsimp only
  induction a.peers.getD [] with
  | nil => rfl
  | cons p peers ih =>
    rw [List.filterMap_cons, List.flatMap_cons, peerEntries]
    cases hmap : mapPeer parseNet p with
    | none => simpa [hmap] using ih
    | some peer => simpa [hmap] using ih

/-- A block's own net is followed by its exceptions. -/
theorem peerEntries_block {p : K8sPeer} {b : K8sIpBlock} {cidr : IpNet} (hb : p.ipBlock = some b)
    (hcidr : parseNet b.cidr = some cidr) (hf : cidr.family = family) :
    peerEntries parseNet family p =
      (cidr, false) :: ((b.except.getD []).filterMap parseNet).map (·, true) := by
  simp [peerEntries, mapPeer, hb, hcidr, Peer.netEntries, hf]

theorem mem_peerEntries_nomatch {peers : List K8sPeer} {e : IpNet} :
    (e, true) ∈ peers.flatMap (peerEntries parseNet family) ↔ Excepted parseNet family peers e := by
  rw [List.mem_flatMap, Excepted]
  refine exists_congr fun q => and_congr_right fun _ => ?_
  unfold peerEntries mapPeer
  cases hb : q.ipBlock with
  | none => simp [Peer.netEntries]
  | some b =>
    cases hcidr : parseNet b.cidr with
    | none => simp [hcidr]
    | some cidr =>
      by_cases hf : cidr.family = family
      · simp [hcidr, Peer.netEntries, hf]
      · simp [hcidr, Peer.netEntries, hf]

/-- An entry without `nomatch` is a block's own net. -/
theorem of_mem_peerEntries_open {p : K8sPeer} {net : IpNet}
    (h : (net, false) ∈ peerEntries parseNet family p) :
    ∃ b, p.ipBlock = some b ∧ parseNet b.cidr = some net ∧ net.family = family := by
  unfold peerEntries mapPeer at h
  cases hb : p.ipBlock with
  | none => simp [hb, Peer.netEntries] at h
  | some b =>
    cases hcidr : parseNet b.cidr with
    | none => simp [hb, hcidr] at h
    | some cidr =>
      by_cases hf : cidr.family = family
      · obtain rfl : net = cidr := by simpa [hb, hcidr, Peer.netEntries, hf] using h
        exact ⟨b, rfl, hcidr, hf⟩
      · simp [hb, hcidr, Peer.netEntries, hf] at h

/-- The set of a rule's blocks matches what its open blocks contain. -/
theorem hashNet_iff_blockOpens {a : K8sRule} {x : IpAddr} (hx : x.family = family) :
    (SetBody.hashNet ((a.peers.getD []).flatMap (peerEntries parseNet family))).mem x = true ↔
      ∃ b, a.BlockOpens parseNet family x b := by
  rw [hashNet_open_iff]
  constructor
  · rintro ⟨pre, net, post, hsplit, hc, hpre, hpost⟩
    obtain ⟨l₁, p, l₂, u, v, hl, hp, rfl, rfl⟩ := flatMap_eq_append_cons hsplit
    have hmem : (net, false) ∈ peerEntries parseNet family p := by rw [hp]; simp
    obtain ⟨b, hb, hcidr, hf⟩ := of_mem_peerEntries_open hmem
    -- The block's net is the first of its entries.
    rw [peerEntries_block hb hcidr hf] at hp
    obtain rfl : u = [] := by
      cases u with
      | nil => rfl
      | cons c u =>
        rw [List.cons_append, List.cons.injEq] at hp
        have hmem : (net, false) ∈ ((b.except.getD []).filterMap parseNet).map (·, true) := by
          rw [hp.2]
          simp
        simp at hmem
    rw [List.nil_append, List.cons.injEq] at hp
    refine ⟨b, l₁, p, l₂, net, hl, hb, hcidr, hc, fun e he hce => ?_, fun e he hce => ?_⟩
    · exact hpre e (by simpa using mem_peerEntries_nomatch.mpr he) hce
    · refine hpost e ?_ hce
      have hmem := mem_peerEntries_nomatch.mpr he
      rw [List.flatMap_cons, peerEntries_block hb hcidr hf, List.cons_append, List.mem_cons, hp.2]
        at hmem
      exact hmem.resolve_left (by simp)
  · rintro ⟨b, pre, p, post, cidr, hl, hb, hcidr, hc, hpre, hpost⟩
    have hf : cidr.family = family := by rw [← hx, IpNet.contains_family hc]
    refine ⟨pre.flatMap (peerEntries parseNet family), cidr,
      ((b.except.getD []).filterMap parseNet).map (·, true) ++
        post.flatMap (peerEntries parseNet family), ?_, hc, fun e he hce => ?_, fun e he hce => ?_⟩
    · rw [hl, List.flatMap_append, List.flatMap_cons, peerEntries_block hb hcidr hf,
        List.cons_append]
    · exact hpre e (mem_peerEntries_nomatch.mp he) hce
    · refine hpost e (mem_peerEntries_nomatch.mp ?_) hce
      rw [List.flatMap_cons, peerEntries_block hb hcidr hf, List.cons_append]
      exact List.mem_cons_of_mem _ he

/-- What a projected rule lets in, its entries open. -/
theorem letsAddrIn_iff {a : K8sRule} {x : IpAddr} (hx : x.family = family) :
    LetsAddrIn w policyNs family (mapRule parseNet a) x ↔
      a.OpensAddr parseNet w policyNs family x := by
  have hnil : (mapRule parseNet a).peers.isEmpty = true ↔ a.Unreadable parseNet := by
    rw [List.isEmpty_iff, mapRule, List.filterMap_eq_nil_iff]
    exact forall_congr' fun p => imp_congr_right fun _ => mapPeer_eq_none
  unfold LetsAddrIn resolvePeers K8sRule.OpensAddr
  by_cases hun : a.Unreadable parseNet
  · rw [if_pos (hnil.mpr hun)]
    exact iff_of_true rfl (Or.inl hun)
  · rw [if_neg (fun h => hun (hnil.mp h)), or_iff_right hun, ResolvedPeers.has, Bool.false_or,
      Bool.or_eq_true, mapRule_netEntries, hashNet_iff_blockOpens hx]
    refine or_congr_left ?_
    rw [List.contains_iff_mem, List.mem_dedup, List.mem_flatMap]
    constructor
    · rintro ⟨peer, hpeer, hip⟩
      obtain ⟨p, hp, hmap⟩ := List.mem_filterMap.mp hpeer
      cases hb : p.ipBlock with
      | some b =>
        rw [mapPeer, hb] at hmap
        obtain ⟨cidr, -, rfl⟩ := Option.map_eq_some_iff.mp hmap
        cases hip
      | none => exact ⟨p, hp, hb, selector_ipEntries hmap hip⟩
    · rintro ⟨p, hp, hb, ep, rfl, hseen, hadm⟩
      have hmap : mapPeer parseNet p = some (.selector (p.namespaceSelector.map matchLabels)
          (p.podSelector.map matchLabels)) := by rw [mapPeer, hb]
      exact ⟨_, List.mem_filterMap.mpr ⟨p, hp, hmap⟩,
        mem_selector_ipEntries.mpr ⟨hx, peer_admits_of_seen hb hmap hseen hadm⟩⟩

/-- An address that comes in comes through a hole or is admitted as written. -/
theorem admitsAddr_of_letsIn {a : K8sRule} {x : IpAddr} (hx : x.family = family)
    (hin : LetsAddrIn w policyNs family (mapRule parseNet a) x)
    (hhole : ¬ PeerHole parseNet family a x) : a.AdmitsAddr parseNet w policyNs x := by
  rcases (letsAddrIn_iff hx).mp hin with hun | ⟨p, hp, -, ep, haddr, hseen, hadm⟩ | ⟨b, hopen⟩
  · by_cases hnil : a.peers.getD [] = []
    · exact ⟨⟨x, none⟩, rfl, (fun v hv => by cases hv), Or.inl hnil⟩
    · exact absurd (.noPeer hnil hun) hhole
  · exact ⟨ep, haddr, hseen, Or.inr ⟨p, hp, hadm⟩⟩
  · obtain ⟨pre, p, post, cidr, hl, hb, hcidr, hc, -⟩ := id hopen
    refine ⟨⟨x, none⟩, rfl, (fun v hv => by cases hv), Or.inr ⟨p, by rw [hl]; simp, ?_⟩⟩
    rw [K8sPeer.Admits, hb]
    refine ⟨⟨cidr, hcidr, hc⟩, fun t ht => ?_⟩
    by_contra hno
    refine hhole (.except b hopen t ht fun e he => ?_)
    by_contra hout
    exact hno ⟨e, he, by simpa using hout⟩

theorem admitsPort_of_letsIn {a : K8sRule} {protocol : String} {port : UInt16}
    (hin : LetsPortIn named (mapRule parseNet a) protocol port)
    (hhole : ¬ PortHole a protocol port) : a.AdmitsPort named protocol port := by
  rcases hin with hnil | ⟨q, hq, hadm⟩
  · exact Or.inl (List.map_eq_nil_iff.mp hnil)
  · obtain ⟨p, hp, rfl⟩ := List.mem_map.mp hq
    have hproto : protocol = p.proto := hadm.1
    have hrange : ∀ n, p.port = some (.int n) → (toU16 n).isSome = true := by
      intro n hn
      rw [Option.isSome_iff_ne_none, Ne, toU16_eq_none]
      exact fun hout => hhole (.range p hp hproto n hn hout)
    have hsingle := (mapPort_admits hrange protocol port).mp hadm
    refine Or.inr ⟨p, hp, hproto, ?_⟩
    have h2 := hsingle.2
    rcases hport : p.port with _ | n | name
    · trivial
    · have heq : (port.toNat : Int) = n := by simpa [K8sPort.single, hport] using h2
      cases he : p.endPort with
      | none => exact heq
      | some e =>
        have hle : (port.toNat : Int) ≤ e := by
          by_contra hlt
          exact hhole (.endPort p hp hproto e (by rw [hport, heq]) he (by omega))
        exact ⟨by omega, by omega, hle⟩
    · simpa [K8sPort.single, hport] using h2

variable (parseNet named w family)

/-- Every rule of the projected policy lets in only what the rule of the object at its place
admits as written. -/
def NeverWidens (np : K8sNetworkPolicy) (pol : NetworkPolicy) : Prop :=
  ∀ (dir : Direction) (i : Nat) (r : PolicyRule) (a : K8sRule),
    (dir.rules pol)[i]? = some r → (np.rules dir)[i]? = some a →
    ∀ (x : IpAddr) (protocol : String) (port : UInt16), x.family = family →
      LetsAddrIn w pol.ns family r x → LetsPortIn named r protocol port →
      a.AdmitsAddr parseNet w pol.ns x ∧ a.AdmitsPort named protocol port

/-- What comes in through a hole of the rule, another element of it admits as written. The holes
and what the rule opens are read off its entries. -/
structure HolesCovered (policyNs : String) (a : K8sRule) : Prop where
  addr : a.OpensPort named → ∀ x : IpAddr, x.family = family → PeerHole parseNet family a x →
    a.AdmitsAddr parseNet w policyNs x
  port : (∃ x : IpAddr, x.family = family ∧ a.OpensAddr parseNet w policyNs family x) →
    ∀ protocol port, PortHole a protocol port → a.AdmitsPort named protocol port

variable {parseNet named w family}

/-- A port hole does let the port in. -/
theorem PortHole.letsIn {a : K8sRule} {protocol : String} {port : UInt16}
    (h : PortHole a protocol port) : LetsPortIn named (mapRule parseNet a) protocol port := by
  cases h with
  | range p hp hproto n hn hout =>
    refine Or.inr ⟨mapPort p, List.mem_map_of_mem hp, hproto, ?_⟩
    simp [mapPort, hn, toU16_eq_none.mpr hout]
  | endPort p hp hproto e hn he hlt =>
    refine Or.inr ⟨mapPort p, List.mem_map_of_mem hp, hproto, ?_⟩
    have hu : toU16 (port.toNat : Int) = some port := toU16_eq_some.mpr rfl
    simp [mapPort, hn, hu]

/-- A peer hole does let the address in. -/
theorem PeerHole.opens {a : K8sRule} {x : IpAddr} (h : PeerHole parseNet family a x) :
    a.OpensAddr parseNet w policyNs family x := by
  cases h with
  | noPeer _ hnone => exact Or.inl hnone
  | except b hopen _ _ _ => exact Or.inr (Or.inr ⟨b, hopen⟩)

theorem letsPortIn_iff {a : K8sRule} :
    (∃ protocol port, LetsPortIn named (mapRule parseNet a) protocol port) ↔ a.OpensPort named := by
  have hentry : ∀ p : K8sPort, (∃ protocol port, AdmitsPort named protocol port (mapPort p)) ↔
      ∀ name, p.port = some (.string name) → ∃ port, named name p.proto port := by
    intro p
    unfold AdmitsPort mapPort
    rcases p.port with _ | n | name
    · exact iff_of_true ⟨p.proto, 0, rfl, trivial⟩ (by simp)
    · refine iff_of_true ⟨p.proto, (toU16 n).getD 0, rfl, ?_⟩ (by simp)
      cases hn : toU16 n <;> simp [hn]
    · simp
  have hnil : (mapRule parseNet a).ports = [] ↔ a.ports.getD [] = [] := List.map_eq_nil_iff
  unfold LetsPortIn K8sRule.OpensPort
  rw [hnil]
  simp only [exists_or, exists_const, ← hentry]
  refine or_congr_right ?_
  simp only [mapRule, mapPorts, List.mem_map, exists_exists_and_eq_and]
  constructor
  · rintro ⟨protocol, port, p, hp, hadm⟩
    exact ⟨p, hp, protocol, port, hadm⟩
  · rintro ⟨p, hp, protocol, port, hadm⟩
    exact ⟨protocol, port, p, hp, hadm⟩

variable (parseNet named w family)

/-- No rule widens exactly when nothing comes in through an unusable element alone. -/
theorem projection_never_widens_iff {np : K8sNetworkPolicy} {pol : NetworkPolicy}
    (h : mapPolicy parseNet np = some pol) :
    NeverWidens parseNet named w family np pol ↔
      ∀ dir, ∀ a ∈ np.rules dir, HolesCovered parseNet named w family pol.ns a := by
  have hrules := (mapPolicy_rules h).2
  constructor
  · intro hnever dir a ha
    obtain ⟨i, hi⟩ := List.mem_iff_getElem?.mp ha
    have hat := hnever dir i (mapRule parseNet a) a (by simp [hrules, hi]) hi
    constructor
    · intro hopens x hx hhole
      obtain ⟨protocol, port, hport⟩ := letsPortIn_iff.mpr hopens
      exact (hat x protocol port hx ((letsAddrIn_iff hx).mpr hhole.opens) hport).1
    · rintro ⟨x, hx, haddr⟩ protocol port hhole
      exact (hat x protocol port hx ((letsAddrIn_iff hx).mpr haddr) hhole.letsIn).2
  · intro hcov dir i r a hr ha x protocol port hx haddr hport
    rw [hrules, List.getElem?_map, ha, Option.map_some, Option.some_inj] at hr
    subst hr
    have hat := hcov dir a (List.mem_of_getElem? ha)
    constructor
    · by_cases hhole : PeerHole parseNet family a x
      · exact hat.addr (letsPortIn_iff.mp ⟨protocol, port, hport⟩) x hx hhole
      · exact admitsAddr_of_letsIn hx haddr hhole
    · by_cases hhole : PortHole a protocol port
      · exact hat.port ⟨x, hx, (letsAddrIn_iff hx).mp haddr⟩ protocol port hhole
      · exact admitsPort_of_letsIn hport hhole

end Widens

section Sample

theorem eight_le : 8 ≤ (IpAddr.ofOctets 10 0 0 0).bits := by decide

/-- 10.0.0.0/8 is the only text of the samples that parses. -/
def parseTen (s : String) : Option IpNet :=
  if s = "10.0.0.0/8" then some ⟨.ofOctets 10 0 0 0, 8, eight_le⟩ else none

/-- No port has a name. -/
def unnamed (_ _ : String) (_ : UInt16) : Prop := False

def policyWith (rule : K8sRule) : K8sNetworkPolicy where
  ns := some "shop"
  name := some "web"
  spec := some { ingress := some [rule] }

theorem mem_policyWith_rules {rule r : K8sRule} {dir : Direction} :
    r ∈ (policyWith rule).rules dir ↔ dir = .ingress ∧ r = rule := by
  cases dir <;> simp [policyWith, K8sNetworkPolicy.rules]

/-- 80 to 81 as a range, and 81 again on its own. -/
def coveredRange : K8sRule where
  peers := some [{ ipBlock := some { cidr := "10.0.0.0/8" } }]
  ports := some [{ port := some (.int 80), endPort := some 81 }, { port := some (.int 81) }]

theorem coveredRange_preserved : ∃ pol, mapPolicy parseTen (policyWith coveredRange) = some pol ∧
    Preserved parseTen unnamed (policyWith coveredRange) pol := by
  refine (projection_preserves_iff unnamed ⟨⟨rfl, rfl, rfl⟩, ?_, ?_⟩).mpr ?_
  · intro dir r hr p hp b hb
    obtain ⟨-, rfl⟩ := mem_policyWith_rules.mp hr
    obtain rfl := List.mem_singleton.mp hp
    obtain rfl := Option.some.inj hb
    exact ⟨rfl, fun e he => absurd he List.not_mem_nil⟩
  · intro dir r hr p hp n hn
    obtain ⟨-, rfl⟩ := mem_policyWith_rules.mp hr
    simp only [coveredRange, Option.getD_some, List.mem_cons, List.not_mem_nil, or_false] at hp
    rcases hp with rfl | rfl <;> simp at hn <;> subst hn <;> simp
  · intro dir r hr _ p hp n e hn he q hlow hhigh
    obtain ⟨-, rfl⟩ := mem_policyWith_rules.mp hr
    simp only [coveredRange, Option.getD_some, List.mem_cons, List.not_mem_nil, or_false] at hp
    rcases hp with rfl | rfl
    · simp only [Option.some.injEq, IntOrString.int.injEq] at hn he
      rcases (show (q.toNat : Int) = 80 ∨ (q.toNat : Int) = 81 by omega) with hq | hq
      · exact ⟨{ port := some (.int 80), endPort := some 81 }, by simp [coveredRange], rfl, hq⟩
      · exact ⟨{ port := some (.int 81) }, by simp [coveredRange], rfl, hq⟩
    · cases he

/-- 80 to 90 from everywhere. -/
def portRange : K8sRule where
  ports := some [{ port := some (.int 80), endPort := some 90 }]

/-- Port 85 of the range 80 to 90 is lost. -/
theorem endPort_dropped :
    ¬ ∀ (parseNet : String → Option IpNet) (named : String → String → UInt16 → Prop)
      (np : K8sNetworkPolicy), ApiValid parseNet np →
      ∃ pol, mapPolicy parseNet np = some pol ∧ Preserved parseNet named np pol := by
  intro hall
  have hvalid : ApiValid parseTen (policyWith portRange) := by
    refine ⟨⟨rfl, rfl, rfl⟩, ?_, ?_⟩
    · intro dir r hr p hp
      obtain ⟨-, rfl⟩ := mem_policyWith_rules.mp hr
      cases hp
    · intro dir r hr p hp n hn
      obtain ⟨-, rfl⟩ := mem_policyWith_rules.mp hr
      obtain rfl := List.mem_singleton.mp hp
      simp at hn
      subst hn
      simp
  obtain ⟨pol, hpol, hpres⟩ := hall parseTen unnamed _ hvalid
  have hrule := hpres.admits .ingress 0 (mapRule parseTen portRange) portRange
    (by rw [(mapPolicy_rules hpol).2]; rfl) rfl ⟨.ofOctets 192 0 2 1, none⟩ "tcp" 85
  have hproj := hrule.mpr ⟨Or.inl rfl, Or.inr ⟨_, List.mem_singleton_self _, by decide, by decide⟩⟩
  rcases hproj.2 with hnil | ⟨q, hq, hadm⟩
  · cases hnil
  · obtain rfl := List.mem_singleton.mp hq
    have h85 : (85 : UInt16) = 80 := hadm.2
    exact absurd h85 (by decide)

/-- A block with an exception that does not parse, the same block without, a block that does not
parse; a port out of range next to every TCP port. -/
def halfUsable : K8sRule where
  peers := some [{ ipBlock := some { cidr := "10.0.0.0/8", except := some ["10.1.0.0/33"] } },
    { ipBlock := some { cidr := "10.0.0.0/8" } }, { ipBlock := some { cidr := "10.0.0.0/33" } }]
  ports := some [{ port := some (.int 70000) }, {}]

/-- The second block covers the hole of the first, the second port that of the first. -/
theorem halfUsable_covered (policyNs : String) :
    HolesCovered parseTen unnamed {} .V4 policyNs halfUsable := by
  constructor
  · intro _ x _ hhole
    cases hhole with
    | noPeer _ hnone =>
      obtain ⟨b, hb, hcidr⟩ := hnone _ List.mem_cons_self
      obtain rfl := Option.some.inj hb
      exact absurd hcidr (by decide)
    | except b hopen t ht _ =>
      obtain ⟨pre, p, post, cidr, hl, hb, hcidr, hc, -⟩ := hopen
      have hten : cidr = ⟨.ofOctets 10 0 0 0, 8, eight_le⟩ := by
        unfold parseTen at hcidr
        split at hcidr
        · exact (Option.some.inj hcidr).symm
        · cases hcidr
      refine ⟨⟨x, none⟩, rfl, (fun v hv => by cases hv), Or.inr
        ⟨_, List.mem_cons_of_mem _ List.mem_cons_self, ?_⟩⟩
      exact ⟨⟨cidr, by rw [hten]; rfl, hc⟩, fun e he => absurd he List.not_mem_nil⟩
  · intro _ protocol port hhole
    have hproto : protocol = "tcp" := by
      cases hhole with
      | range p hp hproto =>
        simp only [halfUsable, Option.getD_some, List.mem_cons, List.not_mem_nil, or_false] at hp
        rcases hp with rfl | rfl <;> exact hproto.trans (by decide)
      | endPort p hp hproto =>
        simp only [halfUsable, Option.getD_some, List.mem_cons, List.not_mem_nil, or_false] at hp
        rcases hp with rfl | rfl <;> exact hproto.trans (by decide)
    subst hproto
    exact Or.inr ⟨{}, by simp [halfUsable], by decide, trivial⟩

theorem halfUsable_not_widened : ∃ pol, mapPolicy parseTen (policyWith halfUsable) = some pol ∧
    NeverWidens parseTen unnamed {} .V4 (policyWith halfUsable) pol := by
  refine ⟨_, rfl, (projection_never_widens_iff parseTen unnamed {} .V4 rfl).mpr ?_⟩
  intro dir a ha
  obtain ⟨-, rfl⟩ := mem_policyWith_rules.mp ha
  exact halfUsable_covered _

/-- One block, and its prefix length is out of range. -/
def unusable : K8sRule where
  peers := some [{ ipBlock := some { cidr := "10.0.0.0/33" } }]

/-- The block is dropped, and the empty list lets every peer in. -/
theorem unusable_block_opens :
    ¬ ∀ (parseNet : String → Option IpNet) (named : String → String → UInt16 → Prop)
      (w : PolicyWorld) (family : IpFamily) (np : K8sNetworkPolicy) (pol : NetworkPolicy),
      mapPolicy parseNet np = some pol → NeverWidens parseNet named w family np pol := by
  intro hall
  have hnever := hall parseTen unnamed {} .V4 (policyWith unusable) _ rfl
  have hin : LetsAddrIn {} "shop" .V4 (mapRule parseTen unusable) (.ofOctets 192 0 2 1) := by
    unfold LetsAddrIn
    decide
  obtain ⟨⟨ep, -, -, hadm⟩, -⟩ := hnever .ingress 0 (mapRule parseTen unusable) unusable rfl rfl
    (.ofOctets 192 0 2 1) "tcp" 80 rfl hin (Or.inl rfl)
  rcases hadm with hnil | ⟨p, hp, hadm⟩
  · cases hnil
  · obtain rfl := List.mem_singleton.mp hp
    obtain ⟨⟨cidr, hcidr, -⟩, -⟩ := hadm
    exact absurd hcidr (by simp [parseTen])

end Sample

end KubeRouter.Agent
