/-
  From Node objects to pod routes and BGP announcements (`select_node_ips` in
  `kube-client/src/node.rs`, the projections in `kube-router-rs/src/routing_wire.rs`, the
  announcements of `run_routing` and `advertise_service_vips_task` in `main.rs`).

  A node has at most one address of each family, but only one of the two, the IPv4 one if there
  is one, becomes the next hop of all its pod CIDRs and of every path it announces.
  `parseAddr` stands for `parse_ip`, `parseNet` and `parseIp` for `parse` of `IpNet` and `IpAddr`.

  The agent announces its pod CIDRs once, with an advertiser of their own, and then the service
  VIPs, with another one over the same engine, for whatever services and slices are cached at
  each tick. Any call to the engine may fail.

  Proved:
  * `nextHops_match_iff`: in every run all next hops have the family of their prefix if and only
    if every pod CIDR and every announced VIP has the family of the one address that was picked.
  * `dual_stack_node_mixed`: a node with an address and a pod CIDR of each family.
-/
import KubeRouter.Agent.ServiceWire
import KubeRouter.Routing.Advertise
import KubeRouter.Routing.Podnet

namespace KubeRouter.Agent

open Bgp Routing Program

/-! ## Node objects -/

inductive NodeAddressType where
  | Internal
  | External
  | Other
deriving DecidableEq, Repr

structure NodeAddress where
  kind : NodeAddressType
  address : String
deriving DecidableEq, Repr

structure K8sNodeAddress where
  type_ : String
  address : String
deriving DecidableEq, Repr

structure K8sNodeStatus where
  addresses : Option (List K8sNodeAddress) := none
deriving DecidableEq, Repr

structure K8sNodeSpec where
  podCidr : Option String := none
  podCidrs : Option (List String) := none
deriving DecidableEq, Repr

structure K8sNode where
  name : Option String := none
  spec : Option K8sNodeSpec := none
  status : Option K8sNodeStatus := none
deriving DecidableEq, Repr

def addressKind (type_ : String) : NodeAddressType :=
  if type_ = "InternalIP" then .Internal
  else if type_ = "ExternalIP" then .External
  else .Other

/-! ## Selection -/

structure NodeIps where
  v4 : Option IpAddr := none
  v6 : Option IpAddr := none
deriving DecidableEq, Repr

def rank : NodeAddressType → UInt8
  | .Internal => 0
  | .External => 1
  | .Other => 2

/-- The locals of `select_node_ips`. -/
structure Selection where
  out : NodeIps := {}
  bestRank : UInt8 × UInt8 := (255, 255)
deriving DecidableEq, Repr

section Projections

variable (parseAddr : String → Option IpAddr) (parseNet : String → Option IpNet)

def selectStep (s : Selection) (a : NodeAddress) : Selection :=
  if a.kind = .Other then s
  else
    match parseAddr a.address with
    | none => s
    | some ip =>
      let r := rank a.kind
      match ip.family with
      | .V4 =>
        if s.out.v4.isNone || r < s.bestRank.1 then
          { out := { s.out with v4 := some ip }, bestRank := (r, s.bestRank.2) }
        else s
      | .V6 =>
        if s.out.v6.isNone || r < s.bestRank.2 then
          { out := { s.out with v6 := some ip }, bestRank := (s.bestRank.1, r) }
        else s

def selectNodeIps (addresses : List NodeAddress) : NodeIps :=
  (addresses.foldl (selectStep parseAddr) {}).out

def nodeAddresses (node : K8sNode) : List NodeAddress :=
  ((node.status.bind (·.addresses)).getD []).map fun a =>
    { kind := addressKind a.type_, address := a.address }

def rawPodCidrs (spec : K8sNodeSpec) : List String :=
  match spec.podCidrs with
  | some cidrs => if cidrs.isEmpty then spec.podCidr.toList else cidrs
  | none => spec.podCidr.toList

def nodePodCidrs (node : K8sNode) : List IpNet :=
  ((node.spec.map rawPodCidrs).getD []).filterMap parseNet

/-- The address of `node_to_route` and `node_to_bgp`. -/
def nodeIp (node : K8sNode) : Option IpAddr :=
  let ips := selectNodeIps parseAddr (nodeAddresses node)
  ips.v4.or ips.v6

def nodeToRoute (node : K8sNode) : Option NodeRoute :=
  match node.name, nodeIp parseAddr node with
  | some name, some ip => some { name := name, ip := ip, podCidrs := nodePodCidrs parseNet node }
  | _, _ => none

def nodeRoutes (nodes : List K8sNode) : List NodeRoute :=
  nodes.filterMap (nodeToRoute parseAddr parseNet)

def findNode (nodes : List K8sNode) (name : String) : Option K8sNode :=
  nodes.find? (·.name == some name)

/-- The address of `local_node`. -/
def localIp (nodes : List K8sNode) (name : String) : Option IpAddr :=
  (findNode nodes name).bind (nodeIp parseAddr)

def localPodCidrs (nodes : List K8sNode) (name : String) : List IpNet :=
  ((findNode nodes name).map (nodePodCidrs parseNet)).getD []

end Projections

/-! ## Announcements -/

/-- The flags and annotations that decide what the agent announces. -/
structure AnnounceConfig where
  advertisePodCidr : Bool := true
  defaults : AdvertiseDefaults := ⟨false, false, false⟩
  communities : List UInt32 := []
  asPrepend : Option (UInt32 × UInt8) := none

/-- Whether `run_routing` starts the VIP task. -/
def AnnounceConfig.advertiseAny (cfg : AnnounceConfig) : Bool :=
  cfg.defaults.cluster || cfg.defaults.external || cfg.defaults.loadbalancer

/-- The cached services and slices at a tick of the VIP task. -/
structure Tick where
  services : List K8sService
  slices : List K8sEndpointSlice

section Announcements

variable (parseAddr parseIp : String → Option IpAddr) (parseNet : String → Option IpNet)
  (cfg : AnnounceConfig) (nodes : List K8sNode) (name : String)

def tickVips (tick : Tick) : List IpNet :=
  advertisedServiceVips (mapSvcVips parseIp tick.services tick.slices name) cfg.defaults

/-- `advertise_service_vips_task`, over the engine as the pod CIDRs left it. -/
def announceVips (fails : Nat → Option BgpError) (nextHop : IpAddr) (engine : Remote Tables)
    (ticks : List Tick) : Announcer :=
  ticks.foldl
    (fun s tick => (s.sync fails nextHop ⟨tickVips parseIp cfg name tick, true⟩).2)
    { adv := { communities := cfg.communities, asPrepend := cfg.asPrepend }, engine := engine }

/-- The announcement of the pod CIDRs. -/
def announcePods (fails : Nat → Option BgpError) (nextHop : IpAddr) : Announcer :=
  (Announcer.sync fails nextHop {}
    ⟨localPodCidrs parseNet nodes name, cfg.advertisePodCidr⟩).2

/-- What the engine announces after the start and some ticks. -/
def announced (fails : Nat → Option BgpError) (ticks : List Tick) : Tables :=
  match localIp parseAddr nodes name with
  | none => {}
  | some nextHop =>
    let pods := announcePods parseNet cfg nodes name fails nextHop
    if cfg.advertiseAny then
      (announceVips parseIp cfg name fails nextHop pods.engine ticks).engine.state
    else pods.engine.state

end Announcements

/-! ## Next hops of a path -/

/-- The next hop an attribute carries. -/
def hopOf : Attr → Option IpAddr
  | .NextHop ip => some ip
  | .MpReachNlri nextHop _ => some nextHop
  | .Origin _ | .Communities _ | .AsPathPrepend _ _ => none

/-- The next hop of a path, and those of its attributes. -/
def hops (path : Path) : List IpAddr := path.nextHop :: path.attrs.filterMap hopOf

theorem hops_build (b : PathBuilder) : hops b.build = [b.nextHop, b.nextHop] := by
  rcases b with ⟨p, nextHop, w, communities, prepend⟩
  cases hfam : p.family <;> cases communities <;> cases prepend <;>
    simp [hops, PathBuilder.build, hfam] <;> rfl

theorem hops_announcement (adv : Advertiser) (nextHop : IpAddr) (p : IpNet) :
    hops (adv.announcement nextHop p) = [nextHop, nextHop] := by
  unfold Advertiser.announcement
  cases adv.asPrepend with
  | none => exact hops_build _
  | some prepend =>
    show hops (PathBuilder.asPathPrepend _ prepend.1 prepend.2).build = _
    unfold PathBuilder.asPathPrepend
    split
    · exact hops_build _
    · exact hops_build _

/-! ## What the engine announces -/

/-- Every path is for its prefix, goes through `nextHop` and is for a prefix in `P`. -/
def Through (nextHop : IpAddr) (P : IpNet → Prop) (t : Tables) : Prop :=
  ∀ p path, t.paths[p]? = some path → path.pfx = p ∧ (∀ h ∈ hops path, h = nextHop) ∧ P p

theorem Through.mono {nextHop : IpAddr} {P Q : IpNet → Prop} {t : Tables} (h : Through nextHop P t)
    (himp : ∀ p, P p → Q p) : Through nextHop Q t := by
  intro p path hp
  obtain ⟨hpfx, hhops, hP⟩ := h p path hp
  exact ⟨hpfx, hhops, himp p hP⟩

/-- One call of a sync. -/
theorem Through.apply {nextHop : IpAddr} {P : IpNet → Prop} {t : Tables} (h : Through nextHop P t)
    {s : Announcer} {args : SyncArgs} (hargs : ∀ p, args.wants p = true → P p) {c : EngineCall}
    (hc : c ∈ s.script nextHop args) : Through nextHop P (t.apply c) := by
  intro p path hp
  have hcell : (t.apply c).paths[p]? = (pathWrite p c).getD t.paths[p]? := writes_paths p t c
  rw [hcell] at hp
  rcases List.mem_append.mp hc with hc | hc
  · obtain ⟨q, hq, rfl⟩ := List.mem_map.mp hc
    have hwants := (Advertiser.mem_toAdd.mp hq).1
    rw [Advertiser.contains_desiredSet] at hwants
    by_cases heq : q = p
    · subst heq
      simp only [pathWrite, Advertiser.announcement_pfx, if_true, Option.getD_some,
        Option.some.injEq] at hp
      subst hp
      refine ⟨Advertiser.announcement_pfx _ _ _, fun h hh => ?_, hargs q hwants⟩
      simpa [hops_announcement] using hh
    · simp only [pathWrite, Advertiser.announcement_pfx, heq, if_false, Option.getD_none] at hp
      exact h p path hp
  · obtain ⟨q, hq, rfl⟩ := List.mem_map.mp hc
    by_cases heq : q = p
    · simp [pathWrite, heq] at hp
    · simp only [pathWrite, Advertiser.withdrawal_pfx, heq, if_false, Option.getD_none] at hp
      exact h p path hp

theorem Through.sync {nextHop : IpAddr} {P : IpNet → Prop} {s : Announcer}
    (h : Through nextHop P s.engine.state) {args : SyncArgs}
    (hargs : ∀ p, args.wants p = true → P p) (fails : Nat → Option BgpError) :
    Through nextHop P (s.sync fails nextHop args).2.engine.state := by
  obtain ⟨pre, hpre, heq⟩ := @Announcer.sync_cut fails nextHop s args
  rw [heq]
  have hmem : ∀ c ∈ pre, c ∈ s.script nextHop args := fun c hc => hpre.subset hc
  generalize s.engine.state = t at h
  clear heq hpre
  induction pre generalizing t with
  | nil => exact h
  | cons c pre ih =>
    exact ih (fun d hd => hmem d (List.mem_cons_of_mem _ hd)) (t.apply c)
      (h.apply hargs (hmem c List.mem_cons_self))

/-- Every prefix on record is announced. -/
def Kept (s : Announcer) : Prop := ∀ p, s.records p = true → s.announces p = true

/-- A sync without failures announces what it is asked for. -/
theorem Kept.sync {s : Announcer} (h : Kept s) {fails : Nat → Option BgpError}
    (hok : ∀ n, fails n = none) (nextHop : IpAddr) (args : SyncArgs) :
    Kept (s.sync fails nextHop args).2 ∧
      ∀ p, args.wants p = true → (s.sync fails nextHop args).2.announces p = true := by
  obtain ⟨n, hn⟩ := @Announcer.sync_reliable fails nextHop s args hok
  have hcorr := Announcer.sync_corrects hn
  have hwanted : ∀ p, args.wants p = true → (s.sync fails nextHop args).2.announces p = true := by
    intro p hp
    by_cases heq : args.wants p = s.records p
    · rw [hcorr.trusted p heq]
      exact h p (heq ▸ hp)
    · rw [hcorr.changed p heq, hp]
  refine ⟨fun p hp => hwanted p ?_, hwanted⟩
  unfold Announcer.records at hp
  rwa [(Announcer.sync_ok hn).1, Advertiser.contains_desiredSet] at hp

/-! ## The address that is picked -/

section Picked

variable (parseAddr : String → Option IpAddr)

/-- An internal or external address of the family. -/
def usable (fam : IpFamily) (a : NodeAddress) : Bool :=
  a.kind != .Other && (parseAddr a.address).any (·.family == fam)

/-- The family of the address that is picked. -/
def pickedFamily (node : K8sNode) : Option IpFamily :=
  if (nodeAddresses node).any (usable parseAddr .V4) then some .V4
  else if (nodeAddresses node).any (usable parseAddr .V6) then some .V6
  else none

/-- What was selected among the addresses `seen`. -/
structure Selected (seen : List NodeAddress) (ips : NodeIps) : Prop where
  v4 : (ips.v4.map (·.family)) = if seen.any (usable parseAddr .V4) then some .V4 else none
  v6 : (ips.v6.map (·.family)) = if seen.any (usable parseAddr .V6) then some .V6 else none

variable {parseAddr}

/-- An address that cannot be used changes nothing. -/
theorem Selected.skip {seen : List NodeAddress} {ips : NodeIps} (h : Selected parseAddr seen ips)
    {a : NodeAddress} (hskip : ∀ fam, usable parseAddr fam a = false) :
    Selected parseAddr (seen ++ [a]) ips := by
  have hany : ∀ fam, (seen ++ [a]).any (usable parseAddr fam) =
      seen.any (usable parseAddr fam) := by
    intro fam
    simp [hskip fam]
  exact ⟨by rw [hany, h.v4], by rw [hany, h.v6]⟩

/-- A slot that holds an address of its family. -/
theorem isSome_slot {fam : IpFamily} {o : Option IpAddr} {found : Bool}
    (h : o.map (·.family) = if found then some fam else none) (hsome : o.isNone = false) :
    o.map (·.family) = some fam := by
  cases o with
  | none => cases hsome
  | some ip =>
    cases found with
    | false => cases h
    | true => exact h

theorem Selected.step {seen : List NodeAddress} {s : Selection} (h : Selected parseAddr seen s.out)
    (a : NodeAddress) : Selected parseAddr (seen ++ [a]) (selectStep parseAddr s a).out := by
  unfold selectStep
  split
  · next hother => exact h.skip fun fam => by simp [usable, hother]
  · next hkind =>
    split
    · next hparse => exact h.skip fun fam => by simp [usable, hparse]
    · next ip hparse =>
      have husable : ∀ fam, usable parseAddr fam a = (ip.family == fam) := by
        intro fam
        simp [usable, hparse, hkind]
      have hany : ∀ fam, (seen ++ [a]).any (usable parseAddr fam) =
          (seen.any (usable parseAddr fam) || ip.family == fam) := by
        intro fam
        simp [husable]
      dsimp only
      split
      · next hfam =>
        have hfound : (seen ++ [a]).any (usable parseAddr .V4) = true := by simp [hany, hfam]
        have hother : (seen ++ [a]).any (usable parseAddr .V6) =
          seen.any (usable parseAddr .V6) := by
          simp [hany, hfam]
        split
        · exact ⟨by simp [hfound, hfam], by rw [hother]; exact h.v6⟩
        · next hkeep =>
          have hsome := (Bool.or_eq_false_iff.mp (Bool.eq_false_of_not_eq_true hkeep)).1
          exact ⟨by rw [hfound, isSome_slot h.v4 hsome]; rfl, by rw [hother]; exact h.v6⟩
      · next hfam =>
        have hfound : (seen ++ [a]).any (usable parseAddr .V6) = true := by simp [hany, hfam]
        have hother : (seen ++ [a]).any (usable parseAddr .V4) =
          seen.any (usable parseAddr .V4) := by
          simp [hany, hfam]
        split
        · exact ⟨by rw [hother]; exact h.v4, by simp [hfound, hfam]⟩
        · next hkeep =>
          have hsome := (Bool.or_eq_false_iff.mp (Bool.eq_false_of_not_eq_true hkeep)).1
          exact ⟨by rw [hother]; exact h.v4, by rw [hfound, isSome_slot h.v6 hsome]; rfl⟩

theorem selectNodeIps_spec (addresses : List NodeAddress) :
    Selected parseAddr addresses (selectNodeIps parseAddr addresses) := by
  unfold selectNodeIps
  induction addresses using List.reverseRecOn with
  | nil => exact ⟨rfl, rfl⟩
  | append_singleton seen a ih =>
    rw [List.foldl_concat]
    exact ih.step a

theorem nodeIp_family (node : K8sNode) :
    (nodeIp parseAddr node).map (·.family) = pickedFamily parseAddr node := by
  obtain ⟨h4, h6⟩ := @selectNodeIps_spec parseAddr (nodeAddresses node)
  unfold nodeIp pickedFamily
  dsimp only
  cases hv4 : (selectNodeIps parseAddr (nodeAddresses node)).v4 with
  | none =>
    rw [hv4] at h4
    split at h4
    · cases h4
    · next hnone => rw [if_neg hnone, Option.none_or, h6]
  | some ip =>
    rw [hv4] at h4
    split at h4
    · next hfound => rw [if_pos hfound, Option.some_or, h4]
    · cases h4

end Picked

/-! ## Families -/

section Families

variable (parseAddr parseIp : String → Option IpAddr) (parseNet : String → Option IpNet)
  (cfg : AnnounceConfig) (nodes : List K8sNode) (name : String)

/-- Every next hop of every path has the family of the path's prefix. -/
def PathsMatch (t : Tables) : Prop :=
  ∀ (p : IpNet) (path : Path), t.paths[p]? = some path →
    ∀ h ∈ hops path, h.family = path.pfx.family

/-- The pod routes have gateways of their destination's family, and the engine's paths next hops
of their prefix's, at every tick and whatever calls fail. -/
structure NextHopsMatch (ticks : List Tick) : Prop where
  routes : ∀ r ∈ desiredPodRoutes name (nodeRoutes parseAddr parseNet nodes),
    ∀ gateway, r.gateway = some gateway → gateway.family = r.dst.family
  paths : ∀ fails before, before <+: ticks →
    PathsMatch (announced parseAddr parseIp parseNet cfg nodes name fails before)

/-- The pod CIDRs of a node that is routed to, and the prefixes this node announces, have the
family of the one address that is picked. -/
structure OneFamily (ticks : List Tick) : Prop where
  routed : ∀ node ∈ nodes, ∀ other, node.name = some other → other ≠ name →
    ∀ fam, pickedFamily parseAddr node = some fam →
      ∀ cidr ∈ nodePodCidrs parseNet node, cidr.family = fam
  pods : ∀ node, findNode nodes name = some node → cfg.advertisePodCidr = true →
    ∀ fam, pickedFamily parseAddr node = some fam →
      ∀ cidr ∈ nodePodCidrs parseNet node, cidr.family = fam
  vips : ∀ node, findNode nodes name = some node → cfg.advertiseAny = true →
    ∀ fam, pickedFamily parseAddr node = some fam →
      ∀ tick ∈ ticks, ∀ vip ∈ tickVips parseIp cfg name tick, vip.family = fam

variable {parseAddr parseIp parseNet cfg nodes name}

theorem nodeToRoute_eq_some {node : K8sNode} {n : NodeRoute} :
    nodeToRoute parseAddr parseNet node = some n ↔ node.name = some n.name ∧
      nodeIp parseAddr node = some n.ip ∧ n.podCidrs = nodePodCidrs parseNet node := by
  unfold nodeToRoute
  rcases n with ⟨nm, ip, cidrs⟩
  cases node.name <;> cases nodeIp parseAddr node <;> simp [eq_comm]

theorem pickedFamily_of_nodeIp {node : K8sNode} {ip : IpAddr}
    (h : nodeIp parseAddr node = some ip) : pickedFamily parseAddr node = some ip.family := by
  rw [← nodeIp_family, h]
  rfl

theorem exists_nodeIp {node : K8sNode} {fam : IpFamily}
    (h : pickedFamily parseAddr node = some fam) :
    ∃ ip, nodeIp parseAddr node = some ip ∧ ip.family = fam := by
  rw [← nodeIp_family] at h
  exact Option.map_eq_some_iff.mp h

theorem routes_match_iff :
    (∀ r ∈ desiredPodRoutes name (nodeRoutes parseAddr parseNet nodes),
      ∀ gateway, r.gateway = some gateway → gateway.family = r.dst.family) ↔
    ∀ node ∈ nodes, ∀ other, node.name = some other → other ≠ name →
      ∀ fam, pickedFamily parseAddr node = some fam →
        ∀ cidr ∈ nodePodCidrs parseNet node, cidr.family = fam := by
  constructor
  · intro h node hnode other hother hne fam hfam cidr hcidr
    obtain ⟨ip, hip, rfl⟩ := exists_nodeIp hfam
    have hroute : nodeToRoute parseAddr parseNet node =
        some ⟨other, ip, nodePodCidrs parseNet node⟩ :=
      nodeToRoute_eq_some.mpr ⟨hother, hip, rfl⟩
    have hmem : ⟨cidr, some ip, mainTable⟩ ∈
        desiredPodRoutes name (nodeRoutes parseAddr parseNet nodes) :=
      mem_desiredPodRoutes.mpr
        ⟨_, List.mem_filterMap.mpr ⟨node, hnode, hroute⟩, hne, hcidr, rfl, rfl⟩
    exact (h _ hmem ip rfl).symm
  · intro h r hr gateway hgateway
    obtain ⟨n, hn, hne, hdst, hgw, -⟩ := mem_desiredPodRoutes.mp hr
    obtain ⟨node, hnode, hroute⟩ := List.mem_filterMap.mp hn
    obtain ⟨hname, hip, hcidrs⟩ := nodeToRoute_eq_some.mp hroute
    rw [hgw] at hgateway
    cases hgateway
    rw [hcidrs] at hdst
    exact (h node hnode n.name hname hne _ (pickedFamily_of_nodeIp hip) r.dst hdst).symm

section Local

variable {node : K8sNode} {nextHop : IpAddr} (hnode : findNode nodes name = some node)
  (hip : nodeIp parseAddr node = some nextHop)

theorem announceVips_concat (fails : Nat → Option BgpError) (engine : Remote Tables)
    (before : List Tick) (tick : Tick) :
    announceVips parseIp cfg name fails nextHop engine (before ++ [tick]) =
      ((announceVips parseIp cfg name fails nextHop engine before).sync fails nextHop
        ⟨tickVips parseIp cfg name tick, true⟩).2 :=
  List.foldl_concat ..

include hnode

theorem localPodCidrs_eq : localPodCidrs parseNet nodes name = nodePodCidrs parseNet node := by
  unfold localPodCidrs
  rw [hnode]
  rfl

include hip

theorem announced_eq (fails : Nat → Option BgpError) (ticks : List Tick) :
    announced parseAddr parseIp parseNet cfg nodes name fails ticks =
      let pods := announcePods parseNet cfg nodes name fails nextHop
      if cfg.advertiseAny then
        (announceVips parseIp cfg name fails nextHop pods.engine ticks).engine.state
      else pods.engine.state := by
  have hlocal : localIp parseAddr nodes name = some nextHop := by
    unfold localIp
    rw [hnode]
    exact hip
  unfold announced
  rw [hlocal]

/-- What the engine announces was asked for. -/
theorem through_announced (fails : Nat → Option BgpError) (ticks : List Tick) :
    Through nextHop
      (fun p => cfg.advertisePodCidr = true ∧ p ∈ nodePodCidrs parseNet node ∨
        cfg.advertiseAny = true ∧ ∃ tick ∈ ticks, p ∈ tickVips parseIp cfg name tick)
      (announced parseAddr parseIp parseNet cfg nodes name fails ticks) := by
  have hpods : Through nextHop
      (fun p => cfg.advertisePodCidr = true ∧ p ∈ nodePodCidrs parseNet node)
      (announcePods parseNet cfg nodes name fails nextHop).engine.state := by
    refine Through.sync (s := {}) (fun p path hp => ?_) (fun p hp => ?_) fails
    · simp at hp
    · rw [localPodCidrs_eq hnode] at hp
      simpa [SyncArgs.wants] using hp
  rw [announced_eq hnode hip]
  dsimp only
  split
  · next hany =>
    induction ticks using List.reverseRecOn with
    | nil => exact hpods.mono fun p hp => .inl hp
    | append_singleton before tick ih =>
      rw [announceVips_concat]
      refine Through.sync (ih.mono fun p hp => ?_) (fun p hp => ?_) fails
      · rcases hp with hp | ⟨hany, t, ht, hp⟩
        · exact .inl hp
        · exact .inr ⟨hany, t, List.mem_append_left _ ht, hp⟩
      · have hmem : p ∈ tickVips parseIp cfg name tick := by simpa [SyncArgs.wants] using hp
        exact .inr ⟨hany, tick, List.mem_append_right _ (List.mem_singleton_self tick), hmem⟩
  · exact hpods.mono fun p hp => .inl hp

omit hnode hip in
theorem kept_announceVips (engine : Remote Tables) (ticks : List Tick) :
    Kept (announceVips parseIp cfg name (fun _ => none) nextHop engine ticks) := by
  induction ticks using List.reverseRecOn with
  | nil =>
    intro p hp
    simp [announceVips, Announcer.records] at hp
  | append_singleton before tick ih =>
    rw [announceVips_concat]
    exact (ih.sync (fun _ => rfl) nextHop _).1

/-- Without failures the pod CIDRs are announced before the first tick. -/
theorem announced_pods {cidr : IpNet} (hpod : cfg.advertisePodCidr = true)
    (hcidr : cidr ∈ nodePodCidrs parseNet node) :
    (announced parseAddr parseIp parseNet cfg nodes name (fun _ => none) []).paths.contains cidr =
      true := by
  have hempty : Kept {} := by
    intro p hp
    simp [Announcer.records] at hp
  have hwants : SyncArgs.wants ⟨localPodCidrs parseNet nodes name, cfg.advertisePodCidr⟩ cidr =
      true := by
    rw [localPodCidrs_eq hnode]
    simp [SyncArgs.wants, hpod, hcidr]
  have hok : ∀ n, (fun _ => none : Nat → Option BgpError) n = none := fun _ => rfl
  have hpods := (hempty.sync hok nextHop _).2 cidr hwants
  rw [announced_eq hnode hip]
  dsimp only
  split
  · exact hpods
  · exact hpods

/-- Without failures a tick announces its VIPs. -/
theorem announced_vips {before : List Tick} {tick : Tick} {vip : IpNet}
    (hany : cfg.advertiseAny = true) (hvip : vip ∈ tickVips parseIp cfg name tick) :
    (announced parseAddr parseIp parseNet cfg nodes name (fun _ => none)
      (before ++ [tick])).paths.contains vip = true := by
  rw [announced_eq hnode hip]
  dsimp only
  rw [if_pos hany, announceVips_concat]
  refine ((kept_announceVips _ before).sync (fun _ => rfl) nextHop _).2 vip ?_
  simp [SyncArgs.wants, hvip]

/-- An announced prefix has the family of the next hop where all paths match. -/
theorem family_of_announced {fails : Nat → Option BgpError} {ticks : List Tick} {p : IpNet}
    (hmatch : PathsMatch (announced parseAddr parseIp parseNet cfg nodes name fails ticks))
    (hp : (announced parseAddr parseIp parseNet cfg nodes name fails ticks).paths.contains p =
      true) : p.family = nextHop.family := by
  rw [Std.TreeMap.contains_eq_isSome_getElem?] at hp
  obtain ⟨path, hpath⟩ := Option.isSome_iff_exists.mp hp
  obtain ⟨rfl, hhops, -⟩ := through_announced hnode hip fails ticks p path hpath
  have hhop : path.nextHop ∈ hops path := List.mem_cons_self
  rw [← hmatch _ path hpath _ hhop, hhops _ hhop]

end Local

/-- All next hops match in every run exactly when one family suffices for each node. -/
theorem nextHops_match_iff (ticks : List Tick) :
    NextHopsMatch parseAddr parseIp parseNet cfg nodes name ticks ↔
      OneFamily parseAddr parseIp parseNet cfg nodes name ticks := by
  constructor
  · intro h
    constructor
    · exact routes_match_iff.mp h.routes
    · intro node hnode hpod fam hfam cidr hcidr
      obtain ⟨nextHop, hip, rfl⟩ := exists_nodeIp hfam
      exact family_of_announced hnode hip (h.paths _ [] List.nil_prefix)
        (announced_pods hnode hip hpod hcidr)
    · intro node hnode hany fam hfam tick htick vip hvip
      obtain ⟨nextHop, hip, rfl⟩ := exists_nodeIp hfam
      obtain ⟨before, after, rfl⟩ := List.append_of_mem htick
      have hpre : before ++ [tick] <+: before ++ tick :: after := ⟨after, by simp⟩
      exact family_of_announced hnode hip (h.paths _ _ hpre) (announced_vips hnode hip hany hvip)
  · intro h
    refine ⟨routes_match_iff.mpr h.routed, fun fails before hpre p path hpath hop hhop => ?_⟩
    cases hlocal : localIp parseAddr nodes name with
    | none =>
      unfold announced at hpath
      rw [hlocal] at hpath
      simp at hpath
    | some nextHop =>
      obtain ⟨node, hnode, hip⟩ := Option.bind_eq_some_iff.mp hlocal
      obtain ⟨rfl, hhops, hasked⟩ := through_announced hnode hip fails before p path hpath
      have hfam := pickedFamily_of_nodeIp hip
      rw [hhops hop hhop]
      rcases hasked with ⟨hpod, hcidr⟩ | ⟨hany, tick, htick, hvip⟩
      · exact (h.pods node hnode hpod _ hfam _ hcidr).symm
      · exact (h.vips node hnode hany _ hfam tick (hpre.subset htick) _ hvip).symm

end Families

/-! ## A dual-stack node -/

def v6Cidr : IpNet := ⟨.V6 0xfd001024400010000000000000000000#128, 64, by decide⟩

def parseNodeAddr (s : String) : Option IpAddr :=
  if s = "192.168.32.3" then some (.ofOctets 192 168 32 3)
  else if s = "192.168.32.4" then some (.ofOctets 192 168 32 4)
  else if s = "fd00:32::4" then some (.V6 0xfd000032000000000000000000000004#128)
  else none

def parseNodeNet (s : String) : Option IpNet :=
  if s = "10.244.1.0/24" then some podCidr
  else if s = "fd00:1024:4000:1000::/64" then some v6Cidr
  else none

def localNode : K8sNode where
  name := some "a"
  status := some { addresses := some [⟨"InternalIP", "192.168.32.3"⟩] }

/-- An internal address and a pod CIDR of each family. -/
def dualStackNode : K8sNode where
  name := some "b"
  spec := some { podCidrs := some ["10.244.1.0/24", "fd00:1024:4000:1000::/64"] }
  status := some
    { addresses := some [⟨"InternalIP", "192.168.32.4"⟩, ⟨"InternalIP", "fd00:32::4"⟩] }

/-- Node a routes the IPv6 pods of node b through 192.168.32.4. -/
theorem dual_stack_node_mixed :
    (⟨v6Cidr, some (.ofOctets 192 168 32 4), mainTable⟩ : Route) ∈
        desiredPodRoutes "a" (nodeRoutes parseNodeAddr parseNodeNet [localNode, dualStackNode]) ∧
      ¬NextHopsMatch parseNodeAddr parseNodeAddr parseNodeNet {}
        [localNode, dualStackNode] "a" [] := by
  have hroute : (⟨v6Cidr, some (.ofOctets 192 168 32 4), mainTable⟩ : Route) ∈
      desiredPodRoutes "a" (nodeRoutes parseNodeAddr parseNodeNet [localNode, dualStackNode]) := by
    decide
  exact ⟨hroute, fun h => absurd (h.routes _ hroute _ rfl) (by decide)⟩

end KubeRouter.Agent
