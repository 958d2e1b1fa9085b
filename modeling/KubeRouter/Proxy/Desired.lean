/-
  What a snapshot of Services asks for: the first half of `ServiceSync::reconcile_inner`
  (`proxy/src/sync.rs`).

  Every ClusterIP, validated external IP and validated LoadBalancer IP of a service port is a
  virtual service bound to the dummy interface; a NodePort is a virtual service on every node
  address, bound nowhere. A later service port with the same key replaces the earlier one.
  External and LoadBalancer addresses of a DSR service are queued for the FWMARK path when
  mangle handlers are configured.

  Proved:
  * `desired_wf`: every entry stands under its own key, and its destinations have weight 1
    and one tunnel flag; so an entry has one destination value for each backend
    (`TableWF.destAt_eq`).
-/
import KubeRouter.Proxy.Model

namespace KubeRouter.Proxy

/-- The settings of a `ServiceSync` that the IPVS sync reads. -/
structure Config where
  ranges : ValidationRanges := {}
  nodeIps : List IpAddr := []
  graceful : Bool := false
  gracefulPeriod : Nat := 0
  /-- Whether metric families are registered. -/
  metrics : Bool := false
  nodePortRange : Option (UInt16 × UInt16) := none
  /-- The families with a mangle handler, `true` for IPv6. -/
  dsrMangle : List Bool := []
  dsrMtu : Int := 1500

/-- A queued DSR programming job for the external and LoadBalancer VIPs of one service. -/
structure DsrJob where
  vips : List IpAddr
  protocol : Protocol
  port : UInt16
  endpoints : List EndpointInfo
  scheduler : Scheduler
  persistent : Option UInt32
deriving DecidableEq, Repr

/-- The locals the loop over the snapshot fills. -/
structure Desired where
  services : ServiceTable := ∅
  wantVips : Std.TreeSet IpAddr := ∅
  /-- `meta`: the owning `(namespace, name)` of a key. -/
  owner : Std.TreeMap String (String × String) := ∅
  dsrJobs : List DsrJob := []
  wantSloppyTcp : Bool := false

def serviceWantsSloppyTcp (svc : ServiceInfo) : Bool :=
  svc.dsr && svc.scheduler == .Mh

/-- The closure `dests`: the ready endpoints, only local ones under a Local policy. -/
def dests (svc : ServiceInfo) (eps : List EndpointInfo) (localOnly : Bool) :
    List IpvsDestination :=
  (eps.filter fun e => e.ready && (!localOnly || e.isLocal)).map fun e =>
    { addr := e.ip, port := e.port, weight := 1, tunnel := svc.dsr }

def persistentOf (svc : ServiceInfo) : Option UInt32 :=
  if svc.sessionAffinity then some svc.affinityTimeout else none

def ipvsService (svc : ServiceInfo) (addr : IpAddr) (port : UInt16) : IpvsService where
  addr := addr
  protocol := svc.protocol
  port := port
  scheduler := svc.scheduler
  schedFlags := svc.schedFlags
  persistent := persistentOf svc

namespace Desired

/-- Insert a virtual service of `svc` with its owner. -/
def put (D : Desired) (svc : ServiceInfo) (isvc : IpvsService) (ds : List IpvsDestination) :
    Desired :=
  { D with services := D.services.insert (svcKey isvc) (isvc, ds),
           owner := D.owner.insert (svcKey isvc) (svc.ns, svc.name) }

/-- The closure `add_vip`. -/
def addVip (svc : ServiceInfo) (eps : List EndpointInfo) (D : Desired) (vip : IpAddr)
    (localOnly : Bool) : Desired :=
  let D := D.put svc (ipvsService svc vip svc.port) (dests svc eps localOnly)
  { D with wantVips := D.wantVips.insert vip }

/-- One external or LoadBalancer address, after validation against `allowed`; the second
component collects the addresses that take the DSR path. -/
def addExternal (cfg : Config) (svc : ServiceInfo) (eps : List EndpointInfo)
    (allowed : List IpNet) (acc : Desired × List IpAddr) (vip : IpAddr) :
    Desired × List IpAddr :=
  if validateExternalIp vip allowed cfg.ranges.cluster cfg.ranges.strict then
    if !cfg.dsrMangle.isEmpty && svc.dsr then (acc.1, acc.2 ++ [vip])
    else (addVip svc eps acc.1 vip svc.externalTrafficLocal, acc.2)
  else acc

/-- Whether `np` lies in the configured range. -/
def nodePortInRange (cfg : Config) (np : UInt16) : Bool :=
  match cfg.nodePortRange with
  | some (lo, hi) => !(np < lo || np > hi)
  | none => true

def addNodePort (cfg : Config) (svc : ServiceInfo) (eps : List EndpointInfo) (D : Desired) :
    Desired :=
  match svc.nodePort with
  | none => D
  | some np =>
    if !nodePortInRange cfg np then D
    else
      let localOnly := svc.externalTrafficLocal
      let nodeportDests := dests svc eps localOnly
      -- Local with no local endpoint is skipped
      if localOnly && nodeportDests.isEmpty then D
      else cfg.nodeIps.foldl (fun D nip => D.put svc (ipvsService svc nip np) nodeportDests) D

/-- The body of the loop over the snapshot. -/
def add (cfg : Config) (D : Desired) (item : ServiceInfo × List EndpointInfo) : Desired :=
  let (svc, eps) := item
  let D := { D with wantSloppyTcp := D.wantSloppyTcp || serviceWantsSloppyTcp svc }
  let D := svc.clusterIps.foldl (fun D vip => addVip svc eps D vip svc.internalTrafficLocal) D
  let acc := svc.externalIps.foldl (addExternal cfg svc eps cfg.ranges.external) (D, [])
  let acc := svc.loadBalancerIps.foldl (addExternal cfg svc eps cfg.ranges.loadbalancer) acc
  let (D, dsrVips) := acc
  let D :=
    if dsrVips.isEmpty then D
    else { D with dsrJobs := D.dsrJobs ++ [{
            vips := dsrVips, protocol := svc.protocol, port := svc.port, endpoints := eps,
            scheduler := svc.scheduler, persistent := persistentOf svc }] }
  addNodePort cfg svc eps D

end Desired

def desired (cfg : Config) (snapshot : Snapshot) : Desired :=
  snapshot.foldl (Desired.add cfg) {}

theorem mem_dests {svc : ServiceInfo} {eps : List EndpointInfo} {localOnly : Bool}
    {d : IpvsDestination} : d ∈ dests svc eps localOnly ↔
      ∃ e ∈ eps, e.ready = true ∧ (localOnly = true → e.isLocal = true) ∧
        d = { addr := e.ip, port := e.port, weight := 1, tunnel := svc.dsr } := by
  unfold dests
  rw [List.mem_map]
  constructor
  · rintro ⟨e, he, rfl⟩
    obtain ⟨he, hready⟩ := List.mem_filter.mp he
    exact ⟨e, he, by simp_all, fun hl => by simp_all, rfl⟩
  · rintro ⟨e, he, hready, hlocal, rfl⟩
    refine ⟨e, List.mem_filter.mpr ⟨he, ?_⟩, rfl⟩
    cases localOnly <;> simp_all

/-! ## Entries -/

/-- An entry under its own key whose destinations have weight 1 and one tunnel flag. -/
structure EntryWF (k : String) (e : Entry) : Prop where
  key : svcKey e.1 = k
  weight : ∀ d ∈ e.2, d.weight = 1
  tunnel : ∀ d ∈ e.2, ∀ d' ∈ e.2, d.tunnel = d'.tunnel

def TableWF (m : ServiceTable) : Prop :=
  ∀ k e, m[k]? = some e → EntryWF k e

theorem tableWF_empty : TableWF ∅ := by
  intro k e h
  simp at h

theorem TableWF.insert {m : ServiceTable} (h : TableWF m) {k : String} {e : Entry}
    (he : EntryWF k e) : TableWF (m.insert k e) := by
  intro k' e' h'
  rw [Std.TreeMap.getElem?_insert] at h'
  split at h'
  · next hk =>
    have hk : k = k' := by simpa using hk
    cases h'
    rw [← hk]
    exact he
  · exact h k' e' h'

theorem dests_wf (svc : ServiceInfo) (eps : List EndpointInfo) (localOnly : Bool)
    (isvc : IpvsService) : EntryWF (svcKey isvc) (isvc, dests svc eps localOnly) := by
  have hmem : ∀ d ∈ dests svc eps localOnly, d.weight = 1 ∧ d.tunnel = svc.dsr := by
    intro d hd
    obtain ⟨e, _, rfl⟩ := List.mem_map.mp hd
    exact ⟨rfl, rfl⟩
  refine ⟨rfl, fun d hd => (hmem d hd).1, fun d hd d' hd' => ?_⟩
  rw [(hmem d hd).2, (hmem d' hd').2]

theorem addVip_wf {D : Desired} (h : TableWF D.services) (svc : ServiceInfo)
    (eps : List EndpointInfo) (vip : IpAddr) (localOnly : Bool) :
    TableWF (Desired.addVip svc eps D vip localOnly).services :=
  h.insert (dests_wf svc eps localOnly _)

theorem addExternal_wf (cfg : Config) (svc : ServiceInfo) (eps : List EndpointInfo)
    (allowed : List IpNet) (acc : Desired × List IpAddr) (vip : IpAddr)
    (h : TableWF acc.1.services) :
    TableWF (Desired.addExternal cfg svc eps allowed acc vip).1.services := by
  unfold Desired.addExternal
  split
  · split
    · exact h
    · exact addVip_wf h svc eps vip _
  · exact h

theorem addNodePort_wf (cfg : Config) (svc : ServiceInfo) (eps : List EndpointInfo) {D : Desired}
    (h : TableWF D.services) : TableWF (Desired.addNodePort cfg svc eps D).services := by
  unfold Desired.addNodePort
  split
  · exact h
  · split
    · exact h
    · dsimp only
      split
      · exact h
      · refine List.foldlRecOn (motive := fun D : Desired => TableWF D.services) cfg.nodeIps _ h ?_
        intro D hD nip _
        exact hD.insert (dests_wf svc eps _ _)

theorem add_wf (cfg : Config) {D : Desired} (h : TableWF D.services)
    (item : ServiceInfo × List EndpointInfo) : TableWF (Desired.add cfg D item).services := by
  obtain ⟨svc, eps⟩ := item
  unfold Desired.add
  apply addNodePort_wf
  have hcluster : TableWF (svc.clusterIps.foldl
      (fun D vip => Desired.addVip svc eps D vip svc.internalTrafficLocal)
      { D with wantSloppyTcp := D.wantSloppyTcp || serviceWantsSloppyTcp svc }).services := by
    refine List.foldlRecOn (motive := fun D : Desired => TableWF D.services) svc.clusterIps _
      h ?_
    intro D hD vip _
    exact addVip_wf hD svc eps vip _
  have hexternal : ∀ allowed (vips : List IpAddr) (acc : Desired × List IpAddr),
      TableWF acc.1.services →
      TableWF (vips.foldl (Desired.addExternal cfg svc eps allowed) acc).1.services := by
    intro allowed vips acc hacc
    refine List.foldlRecOn (motive := fun acc : Desired × List IpAddr => TableWF acc.1.services)
      vips _ hacc ?_
    intro acc hacc vip _
    exact addExternal_wf cfg svc eps allowed acc vip hacc
  have hlb := hexternal cfg.ranges.loadbalancer svc.loadBalancerIps _
    (hexternal cfg.ranges.external svc.externalIps (_, []) hcluster)
  split
  · exact hlb
  · exact hlb

theorem desired_wf (cfg : Config) (snapshot : Snapshot) :
    TableWF (desired cfg snapshot).services := by
  unfold desired
  refine List.foldlRecOn (motive := fun D : Desired => TableWF D.services) snapshot _
    tableWF_empty ?_
  intro D hD item _
  exact add_wf cfg hD item

/-! ## One destination for each backend -/

namespace TableWF

variable {m : ServiceTable} (h : TableWF m)

include h

theorem weight {k : String} {d : IpvsDestination} (hd : d ∈ destsOf m k) : d.weight = 1 := by
  unfold destsOf at hd
  cases he : m[k]? with
  | none => simp [he] at hd
  | some e =>
    rw [he] at hd
    exact (h k e he).weight d hd

/-- A backend has one value in an entry. -/
theorem eq_of_same {k : String} {d d' : IpvsDestination} (hd : d ∈ destsOf m k)
    (hd' : d' ∈ destsOf m k) (hs : d.addr = d'.addr ∧ d.port = d'.port) : d = d' := by
  have hw : d.weight = d'.weight := by rw [h.weight hd, h.weight hd']
  have ht : d.tunnel = d'.tunnel := by
    unfold destsOf at hd hd'
    cases he : m[k]? with
    | none => simp [he] at hd
    | some e =>
      rw [he] at hd hd'
      exact (h k e he).tunnel d hd d' hd'
  cases d
  cases d'
  simp_all

theorem destAt_eq {k : String} {a : IpAddr} {p : UInt16} {d : IpvsDestination} :
    destAt m k a p = some d ↔ d ∈ destsOf m k ∧ d.addr = a ∧ d.port = p := by
  constructor
  · intro hd
    exact ⟨List.mem_of_find?_eq_some hd, by simpa using List.find?_some hd⟩
  · rintro ⟨hd, rfl, rfl⟩
    have hsome : (destAt m k d.addr d.port).isSome := by
      rw [destAt, List.find?_isSome]
      exact ⟨d, hd, by simp⟩
    obtain ⟨e, he⟩ := Option.isSome_iff_exists.mp hsome
    have hs : e.addr = d.addr ∧ e.port = d.port := by simpa using List.find?_some he
    rw [he, h.eq_of_same (List.mem_of_find?_eq_some he) hd hs]

end TableWF

end KubeRouter.Proxy
