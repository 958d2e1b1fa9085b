/-
  From Services and EndpointSlices to backends: where the node sends a packet for a virtual service
  after a sync of the objects (`map_services`, `ServiceSync::reconcile_inner`, and the kernel behind
  `SystemIpvs`).

  The reading of the objects is the API's: the slices of a service list its endpoints under the
  port's name, one that is not ready gets nothing, and under a Local policy only the endpoints on
  this node do. Which of several ports that ask for one virtual service decides is the proxy's own
  rule, the last one (`LastToAsk`).

  No call fails here, and no mangle handler is configured; with one, the external addresses of DSR
  services leave this table.

  Proved:
  * `sends_iff_backs`: the table for the objects sends where the objects say.
  * `services_delivered`: after every run, the kernel forwards to ready endpoints of the objects
    only, and holds every one of them; without graceful termination it forwards to exactly these.
-/
import KubeRouter.Agent.ServiceWire
import KubeRouter.Proxy.Forwarding

namespace KubeRouter.Agent

open KubeRouter.Proxy (Protocol Snapshot EndpointInfo Sends IsLast Backend runPasses Kernel)

/-! ## What the objects ask for -/

section Objects

variable (parseIp : String → Option IpAddr) (cfg : Proxy.Config) (services : List K8sService)
  (slices : List K8sEndpointSlice) (localNode : String)

/-- The slices of the service list a ready endpoint at `(a, p)` under the name of the port; one on
    this node if it must be. -/
def ReadyEndpoint (ns name : String) (sp : K8sServicePort) (onNode : Prop) (a : IpAddr)
    (p : UInt16) : Prop :=
  ∃ slice ∈ slices, slice.isFor ns name = true ∧ slice.portNumber (sp.name.getD "") = some p ∧
    ∃ ep ∈ slice.endpoints.getD [], ep.isReady = true ∧
      (onNode → ep.nodeName = some localNode) ∧ ∃ s ∈ ep.addresses, parseIp s = some a

/-- The last service port to ask for the virtual service has a ready endpoint at `(a, p)`, one on
    this node where its policy wants that. -/
def Backs (v : IpAddr) (proto : Protocol) (port : UInt16) (a : IpAddr) (p : UInt16) : Prop :=
  ∃ x ns name spec, LastToAsk parseIp cfg services slices localNode x v proto port ∧
    Projected x.1 ns name spec ∧
    ReadyEndpoint parseIp slices localNode ns name x.2
      (KeptLocal parseIp cfg slices localNode ns name x.1 spec x.2 v port) a p

variable {parseIp cfg services slices localNode}

/-- `endpoints_for`, read back to the slices. -/
theorem readyEndpoint_iff {ns name : String} {sp : K8sServicePort} {onNode : Prop} {a : IpAddr}
    {p : UInt16} :
    (∃ e ∈ portEndpoints parseIp slices localNode ns name sp, e.ready = true ∧
      (onNode → e.isLocal = true) ∧ e.ip = a ∧ e.port = p) ↔
      ReadyEndpoint parseIp slices localNode ns name sp onNode a p := by
  unfold portEndpoints endpointsFor
  constructor
  · rintro ⟨e, he, hready, hlocal, rfl, rfl⟩
    obtain ⟨slice, hslice, he⟩ := List.mem_flatMap.mp he
    obtain ⟨hslice, hfor⟩ := List.mem_filter.mp hslice
    cases hport : slice.portNumber (sp.name.getD "") with
    | none =>
      rw [hport] at he
      exact absurd he List.not_mem_nil
    | some n =>
      rw [hport] at he
      obtain ⟨ep, hep, he⟩ := List.mem_flatMap.mp he
      obtain ⟨ip, hip, rfl⟩ := List.mem_map.mp he
      obtain ⟨s, hs, hparse⟩ := List.mem_filterMap.mp hip
      exact ⟨slice, hslice, hfor, hport, ep, hep, hready, fun h => by simpa using hlocal h, s, hs,
        hparse⟩
  · rintro ⟨slice, hslice, hfor, hport, ep, hep, hready, hlocal, s, hs, hparse⟩
    refine ⟨{ ip := a, port := p, isLocal := ep.nodeName == some localNode, ready := ep.isReady },
      List.mem_flatMap.mpr ⟨slice, List.mem_filter.mpr ⟨hslice, hfor⟩, ?_⟩, hready,
      fun h => by simpa using hlocal h, rfl, rfl⟩
    rw [hport]
    exact List.mem_flatMap.mpr ⟨ep, hep, List.mem_map.mpr ⟨a, List.mem_filterMap.mpr
      ⟨s, hs, hparse⟩, rfl⟩⟩

/-- The table for the objects sends where the objects say. -/
theorem sends_iff_backs (hdsr : cfg.dsrMangle = []) {v : IpAddr} {proto : Protocol} {port : UInt16}
    {a : IpAddr} {p : UInt16} :
    Sends cfg (mapServices parseIp services slices localNode) v proto port a p ↔
      Backs parseIp cfg services slices localNode v proto port a p := by
  unfold Sends
  rw [Proxy.ipvsClaims_eq hdsr]
  simp only [isLast_iff]
  constructor
  · rintro ⟨c, ⟨x, hlast, hask⟩, hkey, hd⟩
    obtain ⟨rfl, rfl, rfl⟩ : c.vip = v ∧ c.svc.protocol = proto ∧ c.port = port := by
      simpa [Proxy.Claim.key] using hkey
    obtain ⟨spec, hp, heps, hkept⟩ := isLast_portClaims hlast
    refine ⟨x, c.svc.ns, c.svc.name, spec, hask, hp, readyEndpoint_iff.mp ?_⟩
    obtain ⟨e, he, hready, hlocal, hat⟩ :=
      (exists_dests (P := fun a' p' => a' = a ∧ p' = p)).mp hd
    exact ⟨e, heps ▸ he, hready, fun hk => hlocal (hkept.mpr hk), hat⟩
  · rintro ⟨x, ns, name, spec, hask, hp, hready⟩
    obtain ⟨c₀, hc₀, hkey₀⟩ := asks_iff.mp hask.1
    obtain ⟨c, hlast, hkey⟩ := Proxy.exists_isLast hc₀
    obtain ⟨rfl, rfl, rfl⟩ : c.vip = v ∧ c.svc.protocol = proto ∧ c.port = port := by
      simpa [Proxy.Claim.key] using hkey.trans hkey₀
    obtain ⟨spec', hp', heps, hkept⟩ := isLast_portClaims hlast
    obtain rfl : c.svc.ns = ns := Option.some.inj (hp'.ns_eq.symm.trans hp.ns_eq)
    obtain rfl : c.svc.name = name := Option.some.inj (hp'.name_eq.symm.trans hp.name_eq)
    obtain rfl : spec' = spec := Option.some.inj (hp'.spec_eq.symm.trans hp.spec_eq)
    refine ⟨c, ⟨x, hlast, hask⟩, rfl, (exists_dests (P := fun a' p' => a' = a ∧ p' = p)).mpr ?_⟩
    obtain ⟨e, he, hr, hlocal, hat⟩ := readyEndpoint_iff.mpr hready
    exact ⟨e, heps ▸ he, hr, fun hl => hlocal (hkept.mp hl), hat⟩

end Objects

/-! ## Delivery -/

/-- `passes` is the run before the objects are looked at: full resyncs and event passes over any
    snapshots. -/
theorem services_delivered (parseIp : String → Option IpAddr) (cfg : Proxy.Config)
    (hdsr : cfg.dsrMangle = []) (connStats : Nat → Option (UInt32 × UInt32)) (now : Nat → Nat)
    (sysctl : Nat → Bool) (passes : List (Bool × Snapshot)) (full : Bool)
    (services : List K8sService) (slices : List K8sEndpointSlice) (localNode : String)
    (v : IpAddr) (proto : Protocol) (port : UInt16) (a : IpAddr) (p : UInt16) :
    let K := (runPasses (.system connStats now sysctl) cfg
      (passes ++ [(full, mapServices parseIp services slices localNode)]) {}).kernel
    let backs := Backs parseIp cfg services slices localNode v proto port a p
    (K.Forwards v proto port a p → backs) ∧
      (backs → K.Accepts cfg v ∧ ∃ d, K.Holds v proto port a p d) ∧
      (cfg.graceful = false → (K.Forwards v proto port a p ↔ backs)) := by
  intro K backs
  have hsound : K.Forwards v proto port a p → backs := fun h =>
    (sends_iff_backs hdsr).mp (Proxy.sends_of_forwards h)
  refine ⟨hsound, fun hbacks => ?_, fun hg => ⟨hsound, fun hbacks => ?_⟩⟩
  · obtain ⟨haccepts, d, hholds, -⟩ := Proxy.holds_of_sends ((sends_iff_backs hdsr).mpr hbacks)
    exact ⟨haccepts, d, hholds⟩
  · obtain ⟨-, d, hholds, hweight⟩ := Proxy.holds_of_sends ((sends_iff_backs hdsr).mpr hbacks)
    exact ⟨d, hholds, hweight hg⟩

/-- `web` behind its ClusterIP, after a pass that knew no service: the endpoint on the node gets
    the connections, the one on another node does not. -/
theorem web_delivered :
    (runPasses (.system (fun _ => none) id (fun _ => true)) {}
      [(true, []), (false, mapServices parseVip [web] [webSlice "n1"] "n1")] {}).kernel.Forwards
        (.ofOctets 10 96 0 10) .Tcp 80 (.ofOctets 10 0 0 2) 8080 ∧
    ¬(runPasses (.system (fun _ => none) id (fun _ => true)) {}
      [(true, []), (false, mapServices parseVip [web] [webSlice "n2"] "n1")] {}).kernel.Forwards
        (.ofOctets 10 96 0 10) .Tcp 80 (.ofOctets 10 0 0 2) 8080 := by
  have hproj : Projected web "shop" "web" webSpec := ⟨rfl, rfl, rfl, by decide⟩
  constructor
  · refine ((services_delivered parseVip {} rfl (fun _ => none) id (fun _ => true)
      [(true, [])] false [web] [webSlice "n1"] "n1" _ _ _ _ _).2.2 rfl).mpr ?_
    refine ⟨(web, httpPort), "shop", "web", webSpec, ⟨⟨"shop", "web", webSpec, hproj, by decide,
      by decide, Or.inl ⟨by decide, by decide⟩⟩, [], [], rfl,
      fun y hy => absurd hy List.not_mem_nil⟩, hproj, webSlice "n1",
      List.mem_singleton_self _, by decide, by decide, _, List.mem_singleton_self _, rfl,
      fun _ => rfl, _, List.mem_singleton_self _, by decide⟩
  · intro h
    obtain ⟨x, ns, name, spec, ⟨-, pre, post, hports, -⟩, hp, slice, hslice, -, -, ep,
      hep, -, hnode, -⟩ := (services_delivered parseVip {} rfl (fun _ => none) id (fun _ => true)
        [(true, [])] false [web] [webSlice "n2"] "n1" _ _ _ _ _).1 h
    obtain rfl := List.mem_singleton.mp hslice
    obtain rfl := List.mem_singleton.mp hep
    have hx : x ∈ servicePorts [web] := by
      rw [hports]
      simp
    obtain rfl := List.mem_singleton.mp hx
    obtain rfl : webSpec = spec := Option.some.inj hp.spec_eq
    have hkept : KeptLocal parseVip {} [webSlice "n2"] "n1" ns name web webSpec httpPort
        (.ofOctets 10 96 0 10) 80 := by
      refine ⟨fun hext => ?_, fun _ => by decide⟩
      rcases hext with ⟨-, ⟨hv, -⟩ | ⟨hv, -⟩⟩ | ⟨-, hnp, -⟩
      · exact absurd hv List.not_mem_nil
      · exact absurd hv List.not_mem_nil
      · cases hnp
    exact absurd (hnode hkept) (by decide)

end KubeRouter.Agent
