/-
  Services, endpoints and their IPVS counterparts (`proxy/src/model.rs`, the data types of
  `proxy/src/ipvs.rs`, `proxy/src/validation.rs`).

  A virtual service is identified by address, protocol and port; the maps of the service
  proxy are keyed by the `Debug` text of that triple (`svcKey`), and so are the tables of the
  kernel model. A destination of a service is identified by address and port.

  Left out: the fields of a service that only hairpin SNAT and the health-check servers read.
-/
import KubeRouter.Common.Ip

namespace KubeRouter.Proxy

inductive Protocol where
  | Tcp
  | Udp
  | Sctp
deriving DecidableEq, Repr

/-- The variant name, as `Debug` prints it. -/
def Protocol.debug : Protocol → String
  | Tcp => "Tcp"
  | Udp => "Udp"
  | Sctp => "Sctp"

def protoName : Protocol → String
  | .Tcp => "tcp"
  | .Udp => "udp"
  | .Sctp => "sctp"

inductive Scheduler where
  | Rr
  | Lc
  | Sh
  | Dh
  | Mh
deriving DecidableEq, Repr, Inhabited

structure SchedFlags where
  flag1 : Bool := false
  flag2 : Bool := false
  flag3 : Bool := false
deriving DecidableEq, Repr

/-! ## Kubernetes side -/

structure ServiceInfo where
  ns : String
  name : String
  protocol : Protocol
  port : UInt16
  nodePort : Option UInt16
  clusterIps : List IpAddr
  externalIps : List IpAddr
  loadBalancerIps : List IpAddr
  scheduler : Scheduler
  schedFlags : SchedFlags
  sessionAffinity : Bool
  affinityTimeout : UInt32
  dsr : Bool
  internalTrafficLocal : Bool
  externalTrafficLocal : Bool
deriving DecidableEq, Repr

structure EndpointInfo where
  ip : IpAddr
  port : UInt16
  isLocal : Bool
  ready : Bool
deriving DecidableEq, Repr

/-- `ServiceProvider::services`: every service port with its endpoints. -/
abbrev Snapshot := List (ServiceInfo × List EndpointInfo)

/-- External and LoadBalancer address ranges of the service-proxy flags. -/
structure ValidationRanges where
  external : List IpNet := []
  loadbalancer : List IpNet := []
  cluster : List IpNet := []
  strict : Bool := false
deriving DecidableEq, Repr

/-- Lenient mode admits every address; strict mode asks for an allowed range and refuses the
ClusterIP ranges. -/
def validateExternalIp (ip : IpAddr) (allowed cluster : List IpNet) (strict : Bool) : Bool :=
  if !strict then true
  else if cluster.any (·.contains ip) then false
  else allowed.any (·.contains ip)

/-! ## IPVS side -/

structure IpvsService where
  addr : IpAddr
  protocol : Protocol
  port : UInt16
  scheduler : Scheduler
  schedFlags : SchedFlags
  persistent : Option UInt32
deriving DecidableEq, Repr

/-- Identity of a virtual service. -/
def IpvsService.key (s : IpvsService) : IpAddr × Protocol × UInt16 :=
  (s.addr, s.protocol, s.port)

/-- `format!("{:?}", key)`. -/
def keyText (key : IpAddr × Protocol × UInt16) : String :=
  "(" ++ key.1.toText ++ ", " ++ key.2.1.debug ++ ", " ++ toString key.2.2.toNat ++ ")"

def svcKey (s : IpvsService) : String := keyText s.key

structure IpvsDestination where
  addr : IpAddr
  port : UInt16
  weight : Int
  tunnel : Bool
deriving DecidableEq, Repr

namespace IpvsDestination

/-- The same backend: equal address and port. -/
def same (d e : IpvsDestination) : Bool := d.addr == e.addr && d.port == e.port

theorem same_iff {d e : IpvsDestination} : d.same e = true ↔ d.addr = e.addr ∧ d.port = e.port := by
  simp [same]

theorem same_self (d : IpvsDestination) : d.same d = true := by
  simp [same]

theorem same_comm (d e : IpvsDestination) : d.same e = e.same d := by
  simp only [same, Bool.beq_comm]

end IpvsDestination

/-- A service with its destinations, as the sync loop records it. -/
abbrev Entry := IpvsService × List IpvsDestination

/-- `BTreeMap<String, (IpvsService, Vec<IpvsDestination>)>`. -/
abbrev ServiceTable := Std.TreeMap String Entry

/-- The destinations recorded for `k`, none when `k` is not recorded. -/
def destsOf (m : ServiceTable) (k : String) : List IpvsDestination :=
  (m[k]?.map (·.2)).getD []

/-- The recorded destination of `k` at the backend `(a, p)`. -/
def destAt (m : ServiceTable) (k : String) (a : IpAddr) (p : UInt16) : Option IpvsDestination :=
  (destsOf m k).find? fun d => d.addr == a && d.port == p

end KubeRouter.Proxy
