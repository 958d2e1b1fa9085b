/-
  Projected NetworkPolicy inputs and peer resolution (`netpol/src/model.rs`,
  `netpol/src/translate.rs`, `policy_selects` and `pod_family_ips` of `synth.rs`).

  A `BTreeMap` of labels is an association list read with `lookup`. A `BTreeSet` of addresses
  is a duplicate-free list; its order (that of the address texts) decides nothing, since the
  entries only fill an ipset. Addresses and prefixes stand for their texts in set entries.
-/
import Mathlib.Data.List.Dedup
import KubeRouter.Common.Ip

namespace KubeRouter.Netpol

abbrev Labels := List (String × String)

/-! ## Selectors -/

inductive SelectorOp where
  | In
  | NotIn
  | Exists
  | DoesNotExist
deriving DecidableEq, Repr

structure SelectorRequirement where
  key : String
  /-- `none` is an operator the projection did not recognise. -/
  operator : Option SelectorOp
  values : List String
deriving DecidableEq, Repr

structure LabelSelector where
  matchLabels : Labels
  matchExpressions : List SelectorRequirement
deriving DecidableEq, Repr

/-- One `matchExpressions` entry. An unrecognised operator matches nothing. -/
def SelectorRequirement.holds (req : SelectorRequirement) (labels : Labels) : Bool :=
  let value := labels.lookup req.key
  match req.operator with
  | some .In => value.any (req.values.contains ·)
  | some .NotIn => value.all fun v => !req.values.contains v
  | some .Exists => value.isSome
  | some .DoesNotExist => value.isNone
  | none => false

def selectorMatches (selector : LabelSelector) (labels : Labels) : Bool :=
  selector.matchLabels.all (fun kv => labels.lookup kv.1 == some kv.2) &&
    selector.matchExpressions.all (·.holds labels)

/-! ## Objects -/

structure ContainerPort where
  name : Option String
  protocol : String
  port : UInt16
deriving DecidableEq, Repr

structure Pod where
  ns : String
  name : String
  labels : Labels
  ips : List IpAddr
  nodeName : String
  hostNetwork : Bool
  containerPorts : List ContainerPort
deriving DecidableEq, Repr

structure Namespace where
  name : String
  labels : Labels
deriving DecidableEq, Repr

inductive Peer where
  /-- A missing namespace selector means the policy's own namespace, a missing pod selector
      every pod of the selected namespaces. -/
  | selector (namespaceSelector podSelector : Option LabelSelector)
  | ipBlock (cidr : IpNet) (except : List IpNet)
deriving DecidableEq, Repr

inductive PortRef where
  | all
  | number (n : UInt16)
  | name (n : String)
deriving DecidableEq, Repr

structure PortSpec where
  protocol : String
  port : PortRef
deriving DecidableEq, Repr

/-- No peers means every peer, no ports means every port. -/
structure PolicyRule where
  peers : List Peer
  ports : List PortSpec
deriving DecidableEq, Repr

structure PolicyTypes where
  ingress : Bool
  egress : Bool
deriving DecidableEq, Repr

structure NetworkPolicy where
  ns : String
  name : String
  podSelector : LabelSelector
  policyTypes : PolicyTypes
  ingress : List PolicyRule
  egress : List PolicyRule
deriving DecidableEq, Repr

/-- The policy declares at least one direction. -/
def NetworkPolicy.active (p : NetworkPolicy) : Bool :=
  p.policyTypes.ingress || p.policyTypes.egress

def policySelects (policy : NetworkPolicy) (pod : Pod) : Bool :=
  pod.ns == policy.ns && selectorMatches policy.podSelector pod.labels

def podFamilyIps (pod : Pod) (family : IpFamily) : List IpAddr :=
  pod.ips.filter (·.family == family)

/-! ## Peers -/

structure ResolvedPeers where
  ipEntries : List IpAddr
  /-- CIDRs in order, each with its `nomatch` flag. -/
  netEntries : List (IpNet × Bool)
  matchAll : Bool
deriving DecidableEq, Repr

def matchedNamespaces (selector : Option LabelSelector) (namespaces : List Namespace)
    (defaultNs : String) : List String :=
  match selector with
  | none => [defaultNs]
  | some sel => (namespaces.filter fun n => selectorMatches sel n.labels).map (·.name)

/-- Pods a selector peer stands for. `hostNetwork` pods are never peers. -/
def peerPods (namespaceSelector podSelector : Option LabelSelector) (pods : List Pod)
    (namespaces : List Namespace) (policyNs : String) : List Pod :=
  let nss := matchedNamespaces namespaceSelector namespaces policyNs
  pods.filter fun p =>
    nss.contains p.ns && !p.hostNetwork && podSelector.all (selectorMatches · p.labels)

def Peer.ipEntries (peer : Peer) (pods : List Pod) (namespaces : List Namespace)
    (policyNs : String) (family : IpFamily) : List IpAddr :=
  match peer with
  | .selector nsSel podSel =>
    (peerPods nsSel podSel pods namespaces policyNs).flatMap (podFamilyIps · family)
  | .ipBlock _ _ => []

/-- The exceptions follow the net they are cut from. -/
def Peer.netEntries (peer : Peer) (family : IpFamily) : List (IpNet × Bool) :=
  match peer with
  | .selector _ _ => []
  | .ipBlock cidr except =>
    if cidr.family == family then (cidr, false) :: except.map (·, true) else []

def resolvePeers (peers : List Peer) (pods : List Pod) (namespaces : List Namespace)
    (policyNs : String) (family : IpFamily) : ResolvedPeers :=
  if peers.isEmpty then
    { ipEntries := [], netEntries := [], matchAll := true }
  else
    { ipEntries := (peers.flatMap (·.ipEntries pods namespaces policyNs family)).dedup
      netEntries := peers.flatMap (·.netEntries family)
      matchAll := false }

end KubeRouter.Netpol
