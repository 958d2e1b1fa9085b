/-
  Address families of the service proxy: `endpoints_for` (`proxy_wire.rs`), the desired state and
  the DSR jobs (`proxy/src/sync.rs`), `configure_dsr_host` (`proxy/src/dsr.rs`) and the netlink
  request for a FWMARK service.

  The endpoints of all slices of a service, IPv4 and IPv6, are one list; every address of the
  service, of either family, is given all of it. A FWMARK service is always requested for IPv4
  (`serviceFamily_fwmark`).

  Proved:
  * `familiesAgree_iff`: when every pass gives every address destinations of its own family, and
    creates FWMARK services in it.
  * `dual_stack_mixed`: a dual-stack service breaks it.
-/
import KubeRouter.Agent.ServiceWire
import KubeRouter.Proxy.Backends
import KubeRouter.Proxy.Genetlink

namespace KubeRouter.Agent

open KubeRouter.Proxy

/-! ## Families -/

/-- In every pass over the snapshot, each destination given to an address has the family of the
address, and so has the FWMARK service created for it. -/
def FamiliesAgree (cfg : Proxy.Config) (snapshot : Snapshot) : Prop :=
  ∀ c reg, Makes cfg snapshot c reg →
    (∀ a d, Gives reg a d c → d.addr.family = a.1.family) ∧
    ∀ a m scheduler persistent, c = .addFwmarkService m scheduler persistent →
      reg.slots m = some (markKey a) →
      serviceFamily (fwmarkServiceAttr m scheduler persistent) = some (neBytes16 (af a.1))

/-- The endpoints that the last claim of an address lets through have its family; an address on
the FWMARK path is IPv4, as are its ready endpoints. -/
def FamiliesMatch (cfg : Proxy.Config) (snapshot : Snapshot) : Prop :=
  (∀ c, IsLast (snapshot.flatMap (ipvsClaims cfg)) c → ∀ e ∈ c.eps, e.ready = true →
    (c.localOnly = true → e.isLocal = true) → e.ip.family = c.vip.family) ∧
  ∀ i, Reached cfg snapshot i → i.tuple.vip.family = .V4 ∧
    ∀ e ∈ i.endpoints, e.ready = true → e.ip.family = .V4

theorem af_eq_afInet {ip : IpAddr} :
    (some (neBytes16 afInet) = some (neBytes16 (af ip))) ↔ ip.family = .V4 := by
  cases ip with
  | V4 a => exact ⟨fun _ => rfl, fun _ => rfl⟩
  | V6 a =>
    constructor
    · intro h
      have hbytes : neBytes16 afInet = neBytes16 afInet6 := Option.some.inj h
      exact absurd hbytes (by decide)
    · intro h
      cases h

section Passes

variable {cfg : Proxy.Config} {snapshot : Snapshot}

theorem given_family_iff :
    (∀ c reg, Makes cfg snapshot c reg → ∀ a d, Gives reg a d c → d.addr.family = a.1.family) ↔
      (∀ c, IsLast (snapshot.flatMap (ipvsClaims cfg)) c → ∀ e ∈ c.eps, e.ready = true →
        (c.localOnly = true → e.isLocal = true) → e.ip.family = c.vip.family) ∧
      ∀ i, Reached cfg snapshot i → ∀ e ∈ i.endpoints, e.ready = true →
        e.ip.family = i.tuple.vip.family := by
  constructor
  · intro h
    have hgiven : ∀ a d, (∃ c reg, Makes cfg snapshot c reg ∧ Gives reg a d c) →
        d.addr.family = a.1.family := by
      rintro a d ⟨c, reg, hmakes, hgives⟩
      exact h c reg hmakes a d hgives
    refine ⟨fun c hlast e he hready hlocal => ?_, fun i hreached e he hready => ?_⟩
    · refine hgiven c.key ⟨e.ip, e.port, 1, c.svc.dsr⟩ (given_iff.mpr (.inl ⟨c, hlast, rfl, ?_⟩))
      exact Proxy.mem_dests.mpr ⟨e, he, hready, hlocal, rfl⟩
    · refine hgiven i.address (tunnelDest e) (given_iff.mpr (.inr ⟨i, hreached, rfl, ?_⟩))
      exact mem_itemDests.mpr ⟨e, he, hready, rfl⟩
  · rintro ⟨hclaims, hitems⟩ c reg hmakes a d hgives
    obtain ⟨c', hlast, rfl, hd⟩ | ⟨i, hreached, rfl, hd⟩ := given_iff.mp ⟨c, reg, hmakes, hgives⟩
    · obtain ⟨e, he, hready, hlocal, rfl⟩ := Proxy.mem_dests.mp hd
      exact hclaims c' hlast e he hready hlocal
    · obtain ⟨e, he, hready, rfl⟩ := mem_itemDests.mp hd
      exact hitems i hreached e he hready

theorem created_family_iff :
    (∀ c reg, Makes cfg snapshot c reg → ∀ a m scheduler persistent,
      c = .addFwmarkService m scheduler persistent → reg.slots m = some (markKey a) →
      serviceFamily (fwmarkServiceAttr m scheduler persistent) = some (neBytes16 (af a.1))) ↔
      ∀ i, Reached cfg snapshot i → i.tuple.vip.family = .V4 := by
  simp only [serviceFamily_fwmark, af_eq_afInet]
  constructor
  · intro h i hreached
    obtain ⟨c, reg, hmakes, m, scheduler, persistent, hc, hm⟩ := created_iff.mpr ⟨i, hreached, rfl⟩
    exact h c reg hmakes i.address m scheduler persistent hc hm
  · intro h c reg hmakes a m scheduler persistent hc hm
    obtain ⟨i, hreached, rfl⟩ := created_iff.mp ⟨c, reg, hmakes, m, scheduler, persistent, hc, hm⟩
    exact h i hreached

end Passes

/-- For all Services and EndpointSlices, seen from a node with any addresses. -/
theorem familiesAgree_iff (parseIp : String → Option IpAddr) (services : List K8sService)
    (slices : List K8sEndpointSlice) (localNode : String) (cfg : Proxy.Config) :
    FamiliesAgree cfg (mapServices parseIp services slices localNode) ↔
      FamiliesMatch cfg (mapServices parseIp services slices localNode) := by
  unfold FamiliesAgree FamiliesMatch
  have hsplit : ∀ (P Q : Call → FwMarkRegistry → Prop) (snapshot : Snapshot),
      (∀ c reg, Makes cfg snapshot c reg → P c reg ∧ Q c reg) ↔
        (∀ c reg, Makes cfg snapshot c reg → P c reg) ∧
          ∀ c reg, Makes cfg snapshot c reg → Q c reg := by
    intro P Q snapshot
    exact ⟨fun h => ⟨fun c reg hm => (h c reg hm).1, fun c reg hm => (h c reg hm).2⟩,
      fun h c reg hm => ⟨h.1 c reg hm, h.2 c reg hm⟩⟩
  rw [hsplit, given_family_iff, created_family_iff, and_assoc]
  refine and_congr_right fun _ => ?_
  constructor
  · rintro ⟨hends, hvip⟩ i hreached
    refine ⟨hvip i hreached, fun e he hready => ?_⟩
    rw [hends i hreached e he hready, hvip i hreached]
  · intro h
    refine ⟨fun i hreached e he hready => ?_, fun i hreached => (h i hreached).1⟩
    rw [(h i hreached).2 e he hready, (h i hreached).1]

section Sample

/-- `parseIp` on the texts below. -/
def parseDual (s : String) : Option IpAddr :=
  if s = "10.96.0.10" then some (.ofOctets 10 96 0 10)
  else if s = "fd00:96::a" then some (.V6 0xfd00009600000000000000000000000a#128)
  else if s = "10.244.1.5" then some (.ofOctets 10 244 1 5)
  else if s = "fd00:244:1::5" then some (.V6 0xfd000244000100000000000000000005#128)
  else none

/-- A dual-stack service. -/
def dualWeb : K8sService :=
  { web with spec := some { clusterIps := some ["10.96.0.10", "fd00:96::a"],
                            ports := some [httpPort] } }

/-- The slice of one family. -/
def dualSlice (address : String) : K8sEndpointSlice :=
  { webSlice "n1" with endpoints := some [{ addresses := [address], nodeName := some "n1" }] }

def dualSnapshot : Snapshot :=
  mapServices parseDual [dualWeb] [dualSlice "10.244.1.5", dualSlice "fd00:244:1::5"] "n1"

end Sample

/-- The IPv4 address of `dualWeb` is given its IPv6 endpoint. -/
theorem dual_stack_mixed : ¬∀ parseIp services slices localNode cfg,
    FamiliesAgree cfg (mapServices parseIp services slices localNode) := by
  intro hagree
  have hgiven := hagree parseDual [dualWeb]
      [dualSlice "10.244.1.5", dualSlice "fd00:244:1::5"] "n1" {}
  have hclaims := (given_family_iff.mp fun c reg hmakes => (hgiven c reg hmakes).1).1
  have hlast : IsLast (dualSnapshot.flatMap (ipvsClaims {}))
      (((dualSnapshot.flatMap (ipvsClaims {})).head (by decide))) := by
    refine ⟨[], (dualSnapshot.flatMap (ipvsClaims {})).tail, ?_, ?_⟩
    · exact (List.cons_head_tail _).symm
    · decide +kernel
  have hmixed := hclaims _ hlast ⟨.V6 0xfd000244000100000000000000000005#128, 8080, true, true⟩
    (by decide +kernel) rfl (fun _ => rfl)
  revert hmixed
  decide +kernel

end KubeRouter.Agent
