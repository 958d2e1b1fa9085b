/-
  The two projections of Kubernetes Services and EndpointSlices: for the service proxy
  (`proxy_wire.rs`, `endpoints_for`, `map_services`) and for BGP (`svc_vip_wire.rs`,
  `has_local_endpoints`, `map_svc_vips`), and what BGP announces of the second
  (`routing/src/service_vips.rs`).

  `parseIp` stands for `FromStr` of `IpAddr`. The set of host routes is a list here: only
  membership counts. Of a service, the health-check port, the hairpin annotations and the port
  name are left out as in the proxy's model; the name still picks the endpoints.

  Proved:
  * `mem_advertised_iff`: the announced addresses, by service and class.
  * `asks_iff`: the virtual services a service port claims, in terms of the objects.
  * `only_attracts_served_iff`: every announced address of a service is served by it exactly when
    one of its ports is the last to ask for a virtual service on it and, under a Local policy,
    has a local endpoint to send to.
  * `attracts_unserved`: the local annotation and a headless service break it.
-/
import KubeRouter.Agent.PolicyWire
import KubeRouter.Common.Text
import KubeRouter.Proxy.Claims

namespace KubeRouter.Proxy

/-- `to_ascii_uppercase`. -/
def toAsciiUppercase (s : String) : String := String.ofList (s.toList.map Char.toUpper)

def Protocol.parse (s : String) : Protocol :=
  let s := toAsciiUppercase s
  if s = "UDP" then .Udp else if s = "SCTP" then .Sctp else .Tcp

def Scheduler.parse (s : String) : Scheduler :=
  let s := String.ofList ((Text.trim s.toList).map Char.toLower)
  if s = "lc" then .Lc
  else if s = "sh" then .Sh
  else if s = "dh" then .Dh
  else if s = "mh" then .Mh
  else .Rr

def SchedFlags.parse (value : String) : SchedFlags :=
  let toks := (value.toList.splitOn ',').map fun tok => String.ofList (Text.trim tok)
  { flag1 := toks.contains "flag-1", flag2 := toks.contains "flag-2",
    flag3 := toks.contains "flag-3" }

end KubeRouter.Proxy

namespace KubeRouter.Agent

open KubeRouter.Netpol (Labels)
open KubeRouter.Proxy (Protocol Scheduler SchedFlags ServiceInfo EndpointInfo IpvsService
  IpvsDestination Entry Claim Desired desired dests validateExternalIp IsLast itemClaims)

/-! ## Kubernetes objects -/

structure K8sServicePort where
  name : Option String := none
  protocol : Option String := none
  port : Int
  nodePort : Option Int := none
deriving DecidableEq, Repr

structure K8sServiceSpec where
  type_ : Option String := none
  clusterIps : Option (List String) := none
  clusterIp : Option String := none
  externalIps : Option (List String) := none
  internalTrafficPolicy : Option String := none
  externalTrafficPolicy : Option String := none
  sessionAffinity : Option String := none
  /-- `sessionAffinityConfig.clientIP.timeoutSeconds`. -/
  timeoutSeconds : Option Int := none
  ports : Option (List K8sServicePort) := none
deriving DecidableEq, Repr

structure K8sService where
  ns : Option String
  name : Option String
  annotations : Option Labels := none
  spec : Option K8sServiceSpec := none
  /-- The `ip` of each `status.loadBalancer.ingress`. -/
  ingress : Option (List (Option String)) := none
deriving DecidableEq, Repr

structure K8sEndpoint where
  addresses : List String
  /-- `conditions.ready`. -/
  ready : Option Bool := none
  nodeName : Option String := none
deriving DecidableEq, Repr

structure K8sEndpointPort where
  name : Option String := none
  port : Option Int := none
deriving DecidableEq, Repr

structure K8sEndpointSlice where
  ns : Option String
  labels : Option Labels := none
  ports : Option (List K8sEndpointPort) := none
  endpoints : Option (List K8sEndpoint) := none
deriving DecidableEq, Repr

def schedulerAnn : String := "kube-router.io/service.scheduler"
def schedflagsAnn : String := "kube-router.io/service.schedflags"
def dsrAnn : String := "kube-router.io/service.dsr"
def localAnn : String := "kube-router.io/service.local"
def advClusterAnn : String := "kube-router.io/service.advertise.clusterip"
def advExternalAnn : String := "kube-router.io/service.advertise.externalip"
def advLbAnn : String := "kube-router.io/service.advertise.loadbalancer"
def skipLbAnn : String := "kube-router.io/service.skiplbips"
def serviceNameLabel : String := "kubernetes.io/service-name"

namespace K8sService

def anns (svc : K8sService) : Labels := svc.annotations.getD []

/-- The legacy annotation that forces traffic to local endpoints. -/
def localAnnotated (svc : K8sService) : Bool := svc.anns.lookup localAnn == some "true"

end K8sService

def K8sEndpoint.isReady (ep : K8sEndpoint) : Bool := ep.ready.getD true

/-- The slice belongs to the service. -/
def K8sEndpointSlice.isFor (slice : K8sEndpointSlice) (ns name : String) : Bool :=
  slice.ns == some ns && slice.labels.bind (·.lookup serviceNameLabel) == some name

/-- `u32::try_from`. -/
def toU32 (n : Int) : Option UInt32 :=
  if 0 ≤ n ∧ n < 4294967296 then some (UInt32.ofNat n.toNat) else none

section Projections

variable (parseIp : String → Option IpAddr)

/-! ## The service proxy's view -/

/-- The number the slice gives the port of that name; names match exactly. -/
def K8sEndpointSlice.portNumber (slice : K8sEndpointSlice) (portName : String) : Option UInt16 :=
  ((slice.ports.getD []).find? fun p => p.name.getD "" == portName).bind fun p => p.port.bind toU16

def endpointsFor (slices : List K8sEndpointSlice) (ns name portName localNode : String) :
    List EndpointInfo :=
  (slices.filter (·.isFor ns name)).flatMap fun slice =>
    match slice.portNumber portName with
    | none => []
    | some port => (slice.endpoints.getD []).flatMap fun ep =>
        (ep.addresses.filterMap parseIp).map fun ip =>
          { ip := ip, port := port, isLocal := ep.nodeName == some localNode, ready := ep.isReady }

/-- `clusterIPs`, or `clusterIP` when they hold none; `None` and the empty text are dropped. -/
def rawClusterIps (spec : K8sServiceSpec) : List String :=
  let usable := fun ip : String => ip != "None" && ip != ""
  let listed := (spec.clusterIps.getD []).filter usable
  if listed.isEmpty then spec.clusterIp.toList.filter usable else listed

def clusterAddresses (spec : K8sServiceSpec) : List IpAddr := (rawClusterIps spec).filterMap parseIp

def externalAddresses (spec : K8sServiceSpec) : List IpAddr :=
  (spec.externalIps.getD []).filterMap parseIp

def ingressAddresses (svc : K8sService) : List IpAddr :=
  (svc.ingress.getD []).filterMap (·.bind parseIp)

def internalTrafficLocal (svc : K8sService) (spec : K8sServiceSpec) : Bool :=
  svc.localAnnotated || spec.internalTrafficPolicy == some "Local"

def externalTrafficLocal (svc : K8sService) (spec : K8sServiceSpec) : Bool :=
  svc.localAnnotated || spec.externalTrafficPolicy == some "Local"

/-- One port of a service; the closure over `spec.ports` in `map_services`. -/
def mapServicePort (slices : List K8sEndpointSlice) (localNode ns name : String) (svc : K8sService)
    (spec : K8sServiceSpec) (sp : K8sServicePort) : Option (ServiceInfo × List EndpointInfo) :=
  (toU16 sp.port).map fun port =>
    let scheduler := ((svc.anns.lookup schedulerAnn).map Scheduler.parse).getD .Rr
    ({ ns := ns
       name := name
       protocol := Protocol.parse (sp.protocol.getD "TCP")
       port := port
       nodePort := sp.nodePort.bind toU16
       clusterIps := clusterAddresses parseIp spec
       externalIps := externalAddresses parseIp spec
       loadBalancerIps := ingressAddresses parseIp svc
       scheduler := scheduler
       -- Flags are read for Maglev only.
       schedFlags := if scheduler = .Mh then
           ((svc.anns.lookup schedflagsAnn).map SchedFlags.parse).getD {}
         else {}
       sessionAffinity := spec.sessionAffinity == some "ClientIP"
       affinityTimeout := if spec.sessionAffinity = some "ClientIP" then
           (spec.timeoutSeconds.bind toU32).getD 10800
         else 0
       dsr := (svc.anns.lookup dsrAnn).isSome
       internalTrafficLocal := internalTrafficLocal svc spec
       externalTrafficLocal := externalTrafficLocal svc spec },
     endpointsFor parseIp slices ns name (sp.name.getD "") localNode)

def mapService (slices : List K8sEndpointSlice) (localNode : String) (svc : K8sService) :
    List (ServiceInfo × List EndpointInfo) :=
  match svc.ns, svc.name, svc.spec with
  | some ns, some name, some spec =>
    if spec.type_ = some "ExternalName" then []
    -- headless
    else if (clusterAddresses parseIp spec).isEmpty then []
    else (spec.ports.getD []).filterMap (mapServicePort parseIp slices localNode ns name svc spec)
  | _, _, _ => []

def mapServices (services : List K8sService) (slices : List K8sEndpointSlice) (localNode : String) :
    List (ServiceInfo × List EndpointInfo) :=
  services.flatMap (mapService parseIp slices localNode)

/-! ## The BGP view -/

structure SvcVip where
  clusterIps : List IpAddr
  externalIps : List IpAddr
  lbIps : List IpAddr
  internalTrafficLocal : Bool
  externalTrafficLocal : Bool
  hasLocalEndpoints : Bool
  advCluster : Option Bool
  advExternal : Option Bool
  advLb : Option Bool
  skipLbIps : Bool
deriving DecidableEq, Repr

def annBool (anns : Labels) (key : String) : Option Bool := (anns.lookup key).map (· == "true")

def hasLocalEndpoints (slices : List K8sEndpointSlice) (ns name localNode : String) : Bool :=
  slices.any fun slice => slice.isFor ns name &&
    (slice.endpoints.getD []).any fun ep => ep.nodeName == some localNode && ep.isReady

def mapSvcVip (slices : List K8sEndpointSlice) (localNode : String) (svc : K8sService) :
    Option SvcVip :=
  match svc.ns, svc.name, svc.spec with
  | some ns, some name, some spec =>
    if spec.type_ = some "ExternalName" then none
    else some
      { clusterIps := clusterAddresses parseIp spec
        externalIps := externalAddresses parseIp spec
        lbIps := ingressAddresses parseIp svc
        -- The annotation counts for the external policy only.
        internalTrafficLocal := spec.internalTrafficPolicy == some "Local"
        externalTrafficLocal := externalTrafficLocal svc spec
        hasLocalEndpoints := hasLocalEndpoints slices ns name localNode
        advCluster := annBool svc.anns advClusterAnn
        advExternal := annBool svc.anns advExternalAnn
        advLb := annBool svc.anns advLbAnn
        skipLbIps := (svc.anns.lookup skipLbAnn).isSome }
  | _, _, _ => none

def mapSvcVips (services : List K8sService) (slices : List K8sEndpointSlice) (localNode : String) :
    List SvcVip :=
  services.filterMap (mapSvcVip parseIp slices localNode)

end Projections

/-! ## Announcements -/

structure AdvertiseDefaults where
  cluster : Bool
  external : Bool
  loadbalancer : Bool
deriving DecidableEq, Repr

def hostRoute (ip : IpAddr) : IpNet := ⟨ip, ip.bits, le_refl _⟩

def shouldAdvertise (defaultOn : Bool) (ann : Option Bool) (isClusterIp : Bool)
    (svc : SvcVip) : Bool :=
  if !ann.getD defaultOn then false
  else if isClusterIp && svc.internalTrafficLocal && !svc.hasLocalEndpoints then false
  else if !isClusterIp && svc.externalTrafficLocal && !svc.hasLocalEndpoints then false
  else true

def advertisedServiceVips (services : List SvcVip) (d : AdvertiseDefaults) : List IpNet :=
  services.flatMap fun svc =>
    (if shouldAdvertise d.cluster svc.advCluster true svc then svc.clusterIps.map hostRoute
      else []) ++
    (if shouldAdvertise d.external svc.advExternal false svc then svc.externalIps.map hostRoute
      else []) ++
    (if !svc.skipLbIps && shouldAdvertise d.loadbalancer svc.advLb false svc then
      svc.lbIps.map hostRoute else [])

/-- The traffic class of an address. -/
inductive VipClass where
  | cluster
  | external
  | loadBalancer
deriving DecidableEq, Repr

def SvcVip.ips (svc : SvcVip) : VipClass → List IpAddr
  | .cluster => svc.clusterIps
  | .external => svc.externalIps
  | .loadBalancer => svc.lbIps

/-- The gates of the class are open. -/
def SvcVip.advertises (svc : SvcVip) (d : AdvertiseDefaults) : VipClass → Bool
  | .cluster => shouldAdvertise d.cluster svc.advCluster true svc
  | .external => shouldAdvertise d.external svc.advExternal false svc
  | .loadBalancer => !svc.skipLbIps && shouldAdvertise d.loadbalancer svc.advLb false svc

theorem hostRoute_injective : Function.Injective hostRoute := fun _ _ h => congrArg IpNet.addr h

theorem mem_advertised_iff {services : List SvcVip} {d : AdvertiseDefaults} {v : IpAddr} :
    hostRoute v ∈ advertisedServiceVips services d ↔
      ∃ svc ∈ services, ∃ c, svc.advertises d c = true ∧ v ∈ svc.ips c := by
  have hmap : ∀ ips : List IpAddr, hostRoute v ∈ ips.map hostRoute ↔ v ∈ ips := fun ips =>
    List.mem_map_of_injective hostRoute_injective
  unfold advertisedServiceVips
  rw [List.mem_flatMap]
  refine exists_congr fun svc => and_congr_right fun _ => ?_
  simp only [List.mem_append, List.mem_ite_nil_right, hmap]
  constructor
  · rintro ((⟨ha, hv⟩ | ⟨ha, hv⟩) | ⟨ha, hv⟩)
    · exact ⟨.cluster, ha, hv⟩
    · exact ⟨.external, ha, hv⟩
    · exact ⟨.loadBalancer, ha, hv⟩
  · rintro ⟨c, ha, hv⟩
    cases c with
    | cluster => exact Or.inl (Or.inl ⟨ha, hv⟩)
    | external => exact Or.inl (Or.inr ⟨ha, hv⟩)
    | loadBalancer => exact Or.inr ⟨ha, hv⟩

/-! ## What a service port asks for -/

section Asks

variable (parseIp : String → Option IpAddr) (cfg : Proxy.Config) (slices : List K8sEndpointSlice)
  (localNode : String)

/-- Neither projection skips the service by its metadata or its type. -/
structure Projected (svc : K8sService) (ns name : String) (spec : K8sServiceSpec) : Prop where
  ns_eq : svc.ns = some ns
  name_eq : svc.name = some name
  spec_eq : svc.spec = some spec
  not_externalName : spec.type_ ≠ some "ExternalName"

/-- The addresses of a service, by class. -/
def VipClass.addresses (svc : K8sService) (spec : K8sServiceSpec) : VipClass → List IpAddr
  | cluster => clusterAddresses parseIp spec
  | external => externalAddresses parseIp spec
  | loadBalancer => ingressAddresses parseIp svc

/-- The policy `map_services` reads for the class. -/
def VipClass.isLocal (svc : K8sService) (spec : K8sServiceSpec) : VipClass → Bool
  | cluster => internalTrafficLocal svc spec
  | external | loadBalancer => externalTrafficLocal svc spec

/-- The endpoints of a service port. -/
def portEndpoints (ns name : String) (sp : K8sServicePort) : List EndpointInfo :=
  endpointsFor parseIp slices ns name (sp.name.getD "") localNode

/-- On a ClusterIP, at its own port. -/
def AsksInternal (spec : K8sServiceSpec) (sp : K8sServicePort) (v : IpAddr) (p : UInt16) : Prop :=
  toU16 sp.port = some p ∧ v ∈ clusterAddresses parseIp spec

/-- On an external or LoadBalancer address that passes validation, at its own port; on a node
    address, at its NodePort. A NodePort asks for nothing under a Local policy without a ready
    endpoint on this node. -/
def AsksExternal (ns name : String) (svc : K8sService) (spec : K8sServiceSpec) (sp : K8sServicePort)
    (v : IpAddr) (p : UInt16) : Prop :=
  (toU16 sp.port = some p ∧
    ((v ∈ externalAddresses parseIp spec ∧
        validateExternalIp v cfg.ranges.external cfg.ranges.cluster cfg.ranges.strict = true) ∨
      (v ∈ ingressAddresses parseIp svc ∧
        validateExternalIp v cfg.ranges.loadbalancer cfg.ranges.cluster cfg.ranges.strict =
          true))) ∨
  ((toU16 sp.port).isSome = true ∧ sp.nodePort.bind toU16 = some p ∧
    Desired.nodePortInRange cfg p = true ∧ v ∈ cfg.nodeIps ∧
    (externalTrafficLocal svc spec = true →
      ∃ e ∈ portEndpoints parseIp slices localNode ns name sp, e.ready = true ∧ e.isLocal = true))

/-- A port of a service with a ClusterIP asks for the virtual service `(v, proto, p)`. -/
def Asks (x : K8sService × K8sServicePort) (v : IpAddr) (proto : Protocol) (p : UInt16) : Prop :=
  ∃ ns name spec, Projected x.1 ns name spec ∧ clusterAddresses parseIp spec ≠ [] ∧
    proto = Protocol.parse (x.2.protocol.getD "TCP") ∧
    (AsksInternal parseIp spec x.2 v p ∨
      AsksExternal parseIp cfg slices localNode ns name x.1 spec x.2 v p)

/-- Every service port, in list order. -/
def servicePorts (services : List K8sService) : List (K8sService × K8sServicePort) :=
  services.flatMap fun svc => ((svc.spec.bind (·.ports)).getD []).map fun sp => (svc, sp)

/-- The projection of one service port. -/
def projectPort (x : K8sService × K8sServicePort) : Option (ServiceInfo × List EndpointInfo) :=
  match x.1.ns, x.1.name, x.1.spec with
  | some ns, some name, some spec =>
    if spec.type_ = some "ExternalName" ∨ clusterAddresses parseIp spec = [] then none
    else mapServicePort parseIp slices localNode ns name x.1 spec x.2
  | _, _, _ => none

variable {parseIp cfg slices localNode}

theorem projectPort_eq_some {x : K8sService × K8sServicePort}
    {item : ServiceInfo × List EndpointInfo} :
    projectPort parseIp slices localNode x = some item ↔
      ∃ ns name spec, Projected x.1 ns name spec ∧ clusterAddresses parseIp spec ≠ [] ∧
        mapServicePort parseIp slices localNode ns name x.1 spec x.2 = some item := by
  unfold projectPort
  constructor
  · intro h
    split at h
    · next ns name spec hns hname hspec =>
      split at h
      · cases h
      · next hskip =>
        rw [not_or] at hskip
        exact ⟨ns, name, spec, ⟨hns, hname, hspec, hskip.1⟩, hskip.2, h⟩
    · cases h
  · rintro ⟨ns, name, spec, hp, hip, h⟩
    rw [hp.ns_eq, hp.name_eq, hp.spec_eq]
    dsimp only
    rw [if_neg (not_or.mpr ⟨hp.not_externalName, hip⟩), h]

theorem mapServices_eq (services : List K8sService) :
    mapServices parseIp services slices localNode =
      (servicePorts services).filterMap (projectPort parseIp slices localNode) := by
  unfold mapServices servicePorts
  rw [List.filterMap_flatMap]
  refine List.flatMap_congr fun svc _ => ?_
  rw [List.filterMap_map]
  unfold mapService
  cases hns : svc.ns with
  | none => simp [projectPort, hns]
  | some ns =>
    cases hname : svc.name with
    | none => simp [projectPort, hns, hname]
    | some name =>
      cases hspec : svc.spec with
      | none => simp
      | some spec =>
        have hproject : (projectPort parseIp slices localNode ∘ fun sp => (svc, sp)) = fun sp =>
            if spec.type_ = some "ExternalName" ∨ clusterAddresses parseIp spec = [] then none
            else mapServicePort parseIp slices localNode ns name svc spec sp := by
          funext sp
          simp only [Function.comp, projectPort, hns, hname, hspec]
        rw [hproject]
        by_cases htype : spec.type_ = some "ExternalName"
        · simp [htype]
        by_cases hip : clusterAddresses parseIp spec = []
        · simp [htype, hip]
        · simp [htype, hip]

/-- What `map_services` makes of a port, field by field. -/
structure PortView (parseIp : String → Option IpAddr) (slices : List K8sEndpointSlice)
    (localNode ns name : String) (svc : K8sService) (spec : K8sServiceSpec) (sp : K8sServicePort)
    (item : ServiceInfo × List EndpointInfo) : Prop where
  owner : (item.1.ns, item.1.name) = (ns, name)
  protocol : item.1.protocol = Protocol.parse (sp.protocol.getD "TCP")
  port : toU16 sp.port = some item.1.port
  nodePort : item.1.nodePort = sp.nodePort.bind toU16
  clusterIps : item.1.clusterIps = clusterAddresses parseIp spec
  externalIps : item.1.externalIps = externalAddresses parseIp spec
  loadBalancerIps : item.1.loadBalancerIps = ingressAddresses parseIp svc
  internal : item.1.internalTrafficLocal = internalTrafficLocal svc spec
  external : item.1.externalTrafficLocal = externalTrafficLocal svc spec
  endpoints : item.2 = portEndpoints parseIp slices localNode ns name sp

theorem mapServicePort_view {ns name : String} {svc : K8sService} {spec : K8sServiceSpec}
    {sp : K8sServicePort} {item : ServiceInfo × List EndpointInfo}
    (h : mapServicePort parseIp slices localNode ns name svc spec sp = some item) :
    PortView parseIp slices localNode ns name svc spec sp item := by
  obtain ⟨port, hport, rfl⟩ := Option.map_eq_some_iff.mp h
  exact ⟨rfl, rfl, hport, rfl, rfl, rfl, rfl, rfl, rfl, rfl⟩

theorem exists_mapServicePort {ns name : String} {svc : K8sService} {spec : K8sServiceSpec}
    {sp : K8sServicePort} (h : (toU16 sp.port).isSome = true) :
    ∃ item, mapServicePort parseIp slices localNode ns name svc spec sp = some item := by
  obtain ⟨port, hport⟩ := Option.isSome_iff_exists.mp h
  exact ⟨_, by rw [mapServicePort, hport, Option.map_some]⟩

namespace PortView

variable {ns name : String} {svc : K8sService} {spec : K8sServiceSpec} {sp : K8sServicePort}
  {item : ServiceInfo × List EndpointInfo} {v : IpAddr} {proto : Protocol} {p : UInt16}

theorem internal_key (h : PortView parseIp slices localNode ns name svc spec sp item) :
    (∃ c ∈ Proxy.internalClaims item, c.key = (v, proto, p)) ↔
      proto = Protocol.parse (sp.protocol.getD "TCP") ∧ AsksInternal parseIp spec sp v p := by
  rw [Proxy.mem_internalClaims_key, AsksInternal, h.port, h.protocol, h.clusterIps,
    Option.some.injEq]

theorem external_key (h : PortView parseIp slices localNode ns name svc spec sp item) :
    (∃ c ∈ Proxy.externalClaims cfg item, c.key = (v, proto, p)) ↔
      proto = Protocol.parse (sp.protocol.getD "TCP") ∧
        AsksExternal parseIp cfg slices localNode ns name svc spec sp v p := by
  rw [Proxy.mem_externalClaims_key, AsksExternal, h.port, h.protocol, h.nodePort, h.externalIps,
    h.loadBalancerIps, h.external, h.endpoints, Option.some.injEq]
  simp only [Option.isSome_some, true_and]

end PortView

/-- The claims of one service port. -/
def portClaims (parseIp : String → Option IpAddr) (cfg : Proxy.Config)
    (slices : List K8sEndpointSlice) (localNode : String) (x : K8sService × K8sServicePort) :
    List Claim :=
  ((projectPort parseIp slices localNode x).map (itemClaims cfg)).getD []

theorem claims_eq (services : List K8sService) :
    (mapServices parseIp services slices localNode).flatMap (itemClaims cfg) =
      (servicePorts services).flatMap (portClaims parseIp cfg slices localNode) := by
  rw [mapServices_eq]
  induction servicePorts services with
  | nil => rfl
  | cons x xs ih =>
    rw [List.flatMap_cons, ← ih, portClaims]
    cases hx : projectPort parseIp slices localNode x with
    | none => simp [hx]
    | some item => simp [hx]

/-- A service port asks for what it claims. -/
theorem asks_iff {x : K8sService × K8sServicePort} {v : IpAddr} {proto : Protocol} {p : UInt16} :
    Asks parseIp cfg slices localNode x v proto p ↔
      ∃ c ∈ portClaims parseIp cfg slices localNode x, c.key = (v, proto, p) := by
  constructor
  · rintro ⟨ns, name, spec, hp, hip, hproto, hasks⟩
    have hport : (toU16 x.2.port).isSome = true := by
      rcases hasks with ⟨h, -⟩ | ⟨h, -⟩ | ⟨h, -⟩
      · simp [h]
      · simp [h]
      · exact h
    have hmap : ∃ item, mapServicePort parseIp slices localNode ns name x.1 spec x.2 = some item :=
      exists_mapServicePort hport
    obtain ⟨item, hitem⟩ := hmap
    have hview := mapServicePort_view hitem
    rw [portClaims, projectPort_eq_some.mpr ⟨ns, name, spec, hp, hip, hitem⟩]
    simp only [Option.map_some, Option.getD_some, itemClaims, List.mem_append]
    rcases hasks with h | h
    · obtain ⟨c, hc, hkey⟩ := hview.internal_key.mpr ⟨hproto, h⟩
      exact ⟨c, Or.inl hc, hkey⟩
    · obtain ⟨c, hc, hkey⟩ := hview.external_key.mpr ⟨hproto, h⟩
      exact ⟨c, Or.inr hc, hkey⟩
  · rintro ⟨c, hc, hkey⟩
    unfold portClaims at hc
    cases hx : projectPort parseIp slices localNode x with
    | none => simp [hx] at hc
    | some item =>
      rw [hx, Option.map_some, Option.getD_some, itemClaims, List.mem_append] at hc
      obtain ⟨ns, name, spec, hp, hip, hitem⟩ := projectPort_eq_some.mp hx
      have hview := mapServicePort_view hitem
      rcases hc with hc | hc
      · obtain ⟨hproto, h⟩ := hview.internal_key.mp ⟨c, hc, hkey⟩
        exact ⟨ns, name, spec, hp, hip, hproto, Or.inl h⟩
      · obtain ⟨hproto, h⟩ := hview.external_key.mp ⟨c, hc, hkey⟩
        exact ⟨ns, name, spec, hp, hip, hproto, Or.inr h⟩

/-- Only local endpoints back the virtual service: its last claim follows the external policy if
    there is an external one, else the internal policy. -/
def KeptLocal (parseIp : String → Option IpAddr) (cfg : Proxy.Config)
    (slices : List K8sEndpointSlice) (localNode ns name : String) (svc : K8sService)
    (spec : K8sServiceSpec) (sp : K8sServicePort) (v : IpAddr) (p : UInt16) : Prop :=
  (AsksExternal parseIp cfg slices localNode ns name svc spec sp v p →
    externalTrafficLocal svc spec = true) ∧
  (¬AsksExternal parseIp cfg slices localNode ns name svc spec sp v p →
    internalTrafficLocal svc spec = true)

/-- The last claim a service port makes on a key. -/
theorem isLast_portClaims {x : K8sService × K8sServicePort} {c : Claim}
    (h : IsLast (portClaims parseIp cfg slices localNode x) c) :
    ∃ spec, Projected x.1 c.svc.ns c.svc.name spec ∧
      c.eps = portEndpoints parseIp slices localNode c.svc.ns c.svc.name x.2 ∧
      (c.localOnly = true ↔
        KeptLocal parseIp cfg slices localNode c.svc.ns c.svc.name x.1 spec x.2 c.vip c.port) := by
  unfold portClaims at h
  cases hx : projectPort parseIp slices localNode x with
  | none =>
    rw [hx] at h
    exact absurd h.mem List.not_mem_nil
  | some item =>
    rw [hx, Option.map_some, Option.getD_some, itemClaims, Proxy.isLast_append] at h
    obtain ⟨ns, name, spec, hp, hip, hitem⟩ := projectPort_eq_some.mp hx
    have hview := mapServicePort_view hitem
    obtain ⟨hns, hname⟩ := Prod.mk.inj hview.owner
    have hproto : ∀ {b}, Proxy.ClaimOf item b c →
        c.svc.protocol = Protocol.parse (x.2.protocol.getD "TCP") := fun hc => by
      rw [hc.svc, hview.protocol]
    -- An external claim on the key decides the policy; else the claim is an internal one.
    rcases h with h | ⟨h, hother⟩
    · have hc := Proxy.externalClaims_of h.mem
      obtain ⟨-, hext⟩ := hview.external_key.mp ⟨c, h.mem, rfl⟩
      refine ⟨spec, by rw [hc.svc, hns, hname]; exact hp,
        by rw [hc.eps, hview.endpoints, hc.svc, hns, hname], ?_⟩
      rw [hc.localOnly_eq, hview.external, hc.svc, hns, hname]
      exact ⟨fun hl => ⟨fun _ => hl, fun hn => absurd hext hn⟩, fun hk => hk.1 hext⟩
    · have hc := Proxy.internalClaims_of h.mem
      have hext : ¬AsksExternal parseIp cfg slices localNode ns name x.1 spec x.2 c.vip c.port := by
        intro hext
        obtain ⟨c', hc', hkey⟩ := hview.external_key.mpr ⟨hproto hc, hext⟩
        exact hother c' hc' hkey
      refine ⟨spec, by rw [hc.svc, hns, hname]; exact hp,
        by rw [hc.eps, hview.endpoints, hc.svc, hns, hname], ?_⟩
      rw [hc.localOnly_eq, hview.internal, hc.svc, hns, hname]
      exact ⟨fun hl => ⟨fun h => absurd h hext, fun _ => hl⟩, fun hk => hk.2 hext⟩

end Asks

/-! ## What a node attracts and what it serves -/

section Serving

variable (parseIp : String → Option IpAddr) (cfg : Proxy.Config) (services : List K8sService)
  (slices : List K8sEndpointSlice) (localNode : String) (d : AdvertiseDefaults)

/-- A ready endpoint of the service on this node, at that address and port. -/
def LocalEndpoint (ns name : String) (a : IpAddr) (p : UInt16) : Prop :=
  ∃ portName, ∃ e ∈ endpointsFor parseIp slices ns name portName localNode,
    e.ready = true ∧ e.isLocal = true ∧ e.ip = a ∧ e.port = p

/-- An IPVS service on `v` for the service; one with a local destination if it must be local. -/
def Serves (ns name : String) (v : IpAddr) (needLocal : Bool) : Prop :=
  let D := desired cfg (mapServices parseIp services slices localNode)
  (∃ e, D.Programs (ns, name) e ∧ e.1.addr = v) ∧
    (needLocal = true → ∃ e, D.Programs (ns, name) e ∧ e.1.addr = v ∧
      ∃ dst ∈ e.2, LocalEndpoint parseIp slices localNode ns name dst.addr dst.port)

/-- Every announced address of a service is served by it. -/
def OnlyAttractsServed : Prop :=
  ∀ svc ∈ services, ∀ ns name spec, Projected svc ns name spec →
    ∀ (c : VipClass) (v : IpAddr), v ∈ c.addresses parseIp svc spec →
      hostRoute v ∈ advertisedServiceVips (mapSvcVips parseIp services slices localNode) d →
      Serves parseIp cfg services slices localNode ns name v (c.isLocal svc spec)

/-- The service port is the last in list order to ask for the virtual service. -/
def LastToAsk (x : K8sService × K8sServicePort) (v : IpAddr) (proto : Protocol)
    (p : UInt16) : Prop :=
  Asks parseIp cfg slices localNode x v proto p ∧
    ∃ pre post, servicePorts services = pre ++ x :: post ∧
      ∀ y ∈ post, ¬Asks parseIp cfg slices localNode y v proto p

/-- A port of the service (of one of its name) is the last to ask for a virtual service on `v`
    and, where it must be local, one of the endpoints it sends to is on this node. -/
def Backed (ns name : String) (v : IpAddr) (needLocal : Bool) : Prop :=
  ∃ proto p x spec, LastToAsk parseIp cfg services slices localNode x v proto p ∧
    Projected x.1 ns name spec ∧
    (needLocal = true → ∃ e ∈ portEndpoints parseIp slices localNode ns name x.2, e.ready = true ∧
      (KeptLocal parseIp cfg slices localNode ns name x.1 spec x.2 v p → e.isLocal = true) ∧
      LocalEndpoint parseIp slices localNode ns name e.ip e.port)

/-- Some service with the address announces it. -/
def Announced (v : IpAddr) : Prop :=
  ∃ svc ∈ services, ∃ sv, mapSvcVip parseIp slices localNode svc = some sv ∧
    ∃ c, sv.advertises d c = true ∧ v ∈ sv.ips c

variable {parseIp cfg services slices localNode d}

theorem exists_dests {svc : ServiceInfo} {eps : List EndpointInfo} {localOnly : Bool}
    {P : IpAddr → UInt16 → Prop} :
    (∃ dst ∈ dests svc eps localOnly, P dst.addr dst.port) ↔
      ∃ e ∈ eps, e.ready = true ∧ (localOnly = true → e.isLocal = true) ∧ P e.ip e.port := by
  constructor
  · rintro ⟨dst, hdst, hP⟩
    obtain ⟨e, he, hr, hl, rfl⟩ := Proxy.mem_dests.mp hdst
    exact ⟨e, he, hr, hl, hP⟩
  · rintro ⟨e, he, hr, hl, hP⟩
    exact ⟨_, Proxy.mem_dests.mpr ⟨e, he, hr, hl, rfl⟩, hP⟩

/-- The last claims of the snapshot are those of the last ports to ask. -/
theorem isLast_iff {c : Claim} :
    IsLast ((mapServices parseIp services slices localNode).flatMap (itemClaims cfg)) c ↔
      ∃ x, IsLast (portClaims parseIp cfg slices localNode x) c ∧
        LastToAsk parseIp cfg services slices localNode x c.vip c.svc.protocol c.port := by
  rw [claims_eq, Proxy.isLast_flatMap]
  constructor
  · rintro ⟨pre, x, post, hports, hlast, hpost⟩
    refine ⟨x, hlast, asks_iff.mpr ⟨c, hlast.mem, rfl⟩, pre, post, hports, fun y hy hasks => ?_⟩
    obtain ⟨c', hc', hkey⟩ := asks_iff.mp hasks
    exact hpost y hy c' hc' hkey
  · rintro ⟨x, hlast, -, pre, post, hports, hpost⟩
    refine ⟨pre, x, post, hports, hlast, fun y hy c' hc' hkey => ?_⟩
    exact hpost y hy (asks_iff.mpr ⟨c', hc', hkey⟩)

/-- An entry on `v` that meets `Q` belongs to a last port to ask. -/
theorem programs_iff (hdsr : cfg.dsrMangle = []) {ns name : String} {v : IpAddr}
    {Q : Entry → Prop} :
    (∃ e, (desired cfg (mapServices parseIp services slices localNode)).Programs (ns, name) e ∧
      e.1.addr = v ∧ Q e) ↔
      ∃ x c, IsLast (portClaims parseIp cfg slices localNode x) c ∧
        LastToAsk parseIp cfg services slices localNode x c.vip c.svc.protocol c.port ∧
        c.owner = (ns, name) ∧ c.vip = v ∧ Q c.entry := by
  constructor
  · rintro ⟨e, hprog, hv, hQ⟩
    obtain ⟨c, hlast, howner, rfl⟩ := (Proxy.programmed_iff hdsr).mp hprog
    obtain ⟨x, hx, hask⟩ := isLast_iff.mp hlast
    exact ⟨x, c, hx, hask, howner, hv, hQ⟩
  · rintro ⟨x, c, hx, hask, howner, hv, hQ⟩
    exact ⟨c.entry, (Proxy.programmed_iff hdsr).mpr ⟨c, isLast_iff.mpr ⟨x, hx, hask⟩, howner, rfl⟩,
      hv, hQ⟩

theorem serves_iff (hdsr : cfg.dsrMangle = []) {ns name : String} {v : IpAddr} {needLocal : Bool} :
    Serves parseIp cfg services slices localNode ns name v needLocal ↔
      Backed parseIp cfg services slices localNode ns name v needLocal := by
  -- One entry serves both parts: a local one when it is needed, else any.
  have hone : Serves parseIp cfg services slices localNode ns name v needLocal ↔
      ∃ e, (desired cfg (mapServices parseIp services slices localNode)).Programs (ns, name) e ∧
        e.1.addr = v ∧ (needLocal = true →
          ∃ dst ∈ e.2, LocalEndpoint parseIp slices localNode ns name dst.addr dst.port) := by
    unfold Serves
    constructor
    · rintro ⟨⟨e, hprog, hv⟩, hlocal⟩
      cases needLocal with
      | false => exact ⟨e, hprog, hv, by simp⟩
      | true =>
        obtain ⟨e', hprog', hv', hdst⟩ := hlocal rfl
        exact ⟨e', hprog', hv', fun _ => hdst⟩
    · rintro ⟨e, hprog, hv, hdst⟩
      exact ⟨⟨e, hprog, hv⟩, fun h => ⟨e, hprog, hv, hdst h⟩⟩
  rw [hone, programs_iff hdsr]
  constructor
  · rintro ⟨x, c, hlast, hask, howner, rfl, hdst⟩
    obtain ⟨rfl, rfl⟩ := Prod.mk.inj howner
    obtain ⟨spec, hp, heps, hkept⟩ := isLast_portClaims hlast
    refine ⟨c.svc.protocol, c.port, x, spec, hask, hp, fun h => ?_⟩
    obtain ⟨e, he, hr, hl, hlocal⟩ := exists_dests.mp (hdst h)
    exact ⟨e, heps ▸ he, hr, fun hk => hl (hkept.mpr hk), hlocal⟩
  · rintro ⟨proto, p, x, spec, hask, hp, hdst⟩
    obtain ⟨c₀, hc₀, hkey₀⟩ := asks_iff.mp hask.1
    obtain ⟨c, hlast, hkey⟩ := Proxy.exists_isLast hc₀
    obtain ⟨rfl, rfl, rfl⟩ : c.vip = v ∧ c.svc.protocol = proto ∧ c.port = p := by
      simpa [Claim.key] using hkey.trans hkey₀
    obtain ⟨spec', hp', heps, hkept⟩ := isLast_portClaims hlast
    -- The port belongs to one service.
    obtain rfl : c.svc.ns = ns := Option.some.inj (hp'.ns_eq.symm.trans hp.ns_eq)
    obtain rfl : c.svc.name = name := Option.some.inj (hp'.name_eq.symm.trans hp.name_eq)
    obtain rfl : spec' = spec := Option.some.inj (hp'.spec_eq.symm.trans hp.spec_eq)
    refine ⟨x, c, hlast, hask, rfl, rfl, fun h => exists_dests.mpr ?_⟩
    obtain ⟨e, he, hr, hl, hlocal⟩ := hdst h
    exact ⟨e, heps ▸ he, hr, fun hk => hl (hkept.mp hk), hlocal⟩

theorem announced_iff {v : IpAddr} :
    hostRoute v ∈ advertisedServiceVips (mapSvcVips parseIp services slices localNode) d ↔
      Announced parseIp services slices localNode d v := by
  rw [mem_advertised_iff, mapSvcVips, Announced]
  simp only [List.mem_filterMap]
  constructor
  · rintro ⟨sv, ⟨svc, hsvc, hsv⟩, h⟩
    exact ⟨svc, hsvc, sv, hsv, h⟩
  · rintro ⟨svc, hsvc, sv, hsv, h⟩
    exact ⟨sv, ⟨svc, hsvc, hsv⟩, h⟩

/-- A node serves whatever it attracts exactly when every announced address of a service is
    backed by it. -/
theorem only_attracts_served_iff (parseIp : String → Option IpAddr) (cfg : Proxy.Config)
    (hdsr : cfg.dsrMangle = []) (services : List K8sService) (slices : List K8sEndpointSlice)
    (localNode : String) (d : AdvertiseDefaults) :
    OnlyAttractsServed parseIp cfg services slices localNode d ↔
      ∀ svc ∈ services, ∀ ns name spec, Projected svc ns name spec →
        ∀ (c : VipClass) (v : IpAddr), v ∈ c.addresses parseIp svc spec →
          Announced parseIp services slices localNode d v →
          Backed parseIp cfg services slices localNode ns name v (c.isLocal svc spec) := by
  unfold OnlyAttractsServed
  simp only [announced_iff, serves_iff hdsr]

end Serving

/-- `parseIp` on the texts below. -/
def parseVip (s : String) : Option IpAddr :=
  if s = "10.96.0.10" then some (.ofOctets 10 96 0 10)
  else if s = "203.0.113.7" then some (.ofOctets 203 0 113 7)
  else if s = "10.0.0.2" then some (.ofOctets 10 0 0 2)
  else none

def httpPort : K8sServicePort := { name := some "http", port := 80 }

/-- A ClusterIP service with internal traffic policy Local. -/
def webSpec : K8sServiceSpec where
  clusterIps := some ["10.96.0.10"]
  internalTrafficPolicy := some "Local"
  ports := some [httpPort]

def web : K8sService := { ns := some "shop", name := some "web", spec := some webSpec }

/-- One ready endpoint of `web`, on `node`. -/
def webSlice (node : String) : K8sEndpointSlice where
  ns := some "shop"
  labels := some [(serviceNameLabel, "web")]
  ports := some [{ name := some "http", port := some 8080 }]
  endpoints := some [{ addresses := ["10.0.0.2"], nodeName := some node }]

def allDefaults : AdvertiseDefaults := ⟨true, true, true⟩

/-- With an endpoint on the node, `web` is announced and served. -/
theorem web_served : OnlyAttractsServed parseVip {} [web] [webSlice "n1"] "n1" allDefaults := by
  refine (only_attracts_served_iff parseVip {} rfl [web] [webSlice "n1"] "n1" allDefaults).mpr ?_
  intro svc hsvc ns name spec hp c v hv _
  obtain rfl := List.mem_singleton.mp hsvc
  obtain rfl : "shop" = ns := Option.some.inj hp.ns_eq
  obtain rfl : "web" = name := Option.some.inj hp.name_eq
  obtain rfl : webSpec = spec := Option.some.inj hp.spec_eq
  obtain rfl : v = .ofOctets 10 96 0 10 := by
    cases c with
    | cluster => exact List.mem_singleton.mp hv
    | external => exact absurd hv List.not_mem_nil
    | loadBalancer => exact absurd hv List.not_mem_nil
  have hproj : Projected web "shop" "web" webSpec := ⟨rfl, rfl, rfl, by decide⟩
  refine ⟨.Tcp, 80, (web, httpPort), webSpec, ⟨⟨"shop", "web", webSpec, hproj, by decide, by decide,
    Or.inl ⟨by decide, by decide⟩⟩, [], [], rfl, fun y hy => absurd hy List.not_mem_nil⟩, hproj, ?_⟩
  intro _
  exact ⟨⟨.ofOctets 10 0 0 2, 8080, true, true⟩, by decide, rfl, fun _ => rfl, "http", _,
    List.mem_singleton_self _, rfl, rfl, rfl, rfl⟩

/-- Local endpoints come from endpoints on the node. -/
theorem endpointsFor_local {parseIp : String → Option IpAddr} {slices : List K8sEndpointSlice}
    {ns name portName localNode : String} {e : EndpointInfo}
    (h : e ∈ endpointsFor parseIp slices ns name portName localNode) (hl : e.isLocal = true) :
    ∃ slice ∈ slices, ∃ ep ∈ slice.endpoints.getD [], ep.nodeName = some localNode := by
  obtain ⟨slice, hslice, h⟩ := List.mem_flatMap.mp h
  split at h
  · exact absurd h List.not_mem_nil
  · obtain ⟨ep, hep, h⟩ := List.mem_flatMap.mp h
    obtain ⟨ip, -, rfl⟩ := List.mem_map.mp h
    exact ⟨slice, List.mem_of_mem_filter hslice, ep, hep, by simpa using hl⟩

/-- `web` under the legacy annotation in place of the traffic policy. -/
def annotatedSpec : K8sServiceSpec := { webSpec with internalTrafficPolicy := none }

def annotatedWeb : K8sService :=
  { web with spec := some annotatedSpec, annotations := some [(localAnn, "true")] }

/-- A headless service with an external address. -/
def headlessSpec : K8sServiceSpec where
  clusterIps := some ["None"]
  externalIps := some ["203.0.113.7"]
  ports := some [httpPort]

def headlessWeb : K8sService := { web with spec := some headlessSpec }

/-- Announced without a destination: the annotation keeps ClusterIP traffic local in the proxy
    and is not looked at by BGP. Announced without an IPVS service: the proxy skips a headless
    service, BGP does not. -/
theorem attracts_unserved :
    ¬OnlyAttractsServed parseVip {} [annotatedWeb] [webSlice "n2"] "n1" allDefaults ∧
    ¬OnlyAttractsServed parseVip {} [headlessWeb] [webSlice "n1"] "n1" allDefaults := by
  refine ⟨fun h => ?_, fun h => ?_⟩
  · have hserves := h annotatedWeb (List.mem_singleton_self _) "shop" "web" annotatedSpec
      ⟨rfl, rfl, rfl, by decide⟩ .cluster (.ofOctets 10 96 0 10) (by decide) (by decide)
    obtain ⟨e, -, -, dst, -, portName, ep, hep, -, hl, -⟩ := hserves.2 rfl
    obtain ⟨slice, hslice, ep, hep, hnode⟩ := endpointsFor_local hep hl
    obtain rfl := List.mem_singleton.mp hslice
    obtain rfl := List.mem_singleton.mp hep
    exact absurd hnode (by decide)
  · have hserves := h headlessWeb (List.mem_singleton_self _) "shop" "web" headlessSpec
      ⟨rfl, rfl, rfl, by decide⟩ .external (.ofOctets 203 0 113 7) (by decide) (by decide)
    obtain ⟨proto, p, x, spec, ⟨⟨ns, name, spec', hp, hip, -⟩, pre, post, hports, -⟩, -⟩ :=
      (serves_iff rfl).mp hserves
    have hx : x ∈ servicePorts [headlessWeb] := by
      rw [hports]
      simp
    obtain rfl := List.mem_singleton.mp hx
    obtain rfl : headlessSpec = spec' := Option.some.inj hp.spec_eq
    exact absurd hip (by decide)

end KubeRouter.Agent
