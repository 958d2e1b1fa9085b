/-
  Traffic policies (`external_traffic_local` and `internal_traffic_local` of a service, the closure
  `dests` and the DSR jobs in `proxy/src/sync.rs`, `configure_dsr_host` in `proxy/src/dsr.rs`).

  ClusterIPs follow the internal policy of their service, external and LoadBalancer addresses and
  the NodePort the external one. Under a Local policy only endpoints of this node may be given to
  the address. The closure `dests` filters by the policy it is handed; a DSR job carries all
  endpoints of the service and no policy, and `configure_dsr_host` asks only whether they are ready.

  Addresses may be shared: the last service port of the snapshot that claims an address decides
  what the IPVS table holds there. Whether an endpoint is local is read off its own entry, in the
  list of the service port that is written (`Behind`): another service may list the same pod
  differently.

  Proved:
  * `policyKept_iff`: when every pass over a snapshot keeps to the Local policies.
  * `policySafe_iff_dsr`: where no address is under two policies, only DSR items can break one.
  * `dsr_ignores_policy`: a DSR service under the Local policy is given a remote endpoint.
-/
import KubeRouter.Proxy.Backends

namespace KubeRouter.Proxy

/-! ## Policies -/

section Addresses

variable (cfg : Config) (item : ServiceInfo × List EndpointInfo) (a : Address)

def InternalAddress : Prop :=
  a.2.1 = item.1.protocol ∧ a.2.2 = item.1.port ∧ a.1 ∈ item.1.clusterIps

def ExternalAddress : Prop :=
  a.2.1 = item.1.protocol ∧
    ((a.2.2 = item.1.port ∧ (a.1 ∈ item.1.externalIps ∨ a.1 ∈ item.1.loadBalancerIps)) ∨
      (item.1.nodePort = some a.2.2 ∧ a.1 ∈ cfg.nodeIps))

end Addresses

/-- Some service has the address under this policy, `true` for Local. -/
def PolicyAt (cfg : Config) (snapshot : Snapshot) (a : Address) (policy : Bool) : Prop :=
  ∃ item ∈ snapshot,
    (InternalAddress item a ∧ item.1.internalTrafficLocal = policy) ∨
      (ExternalAddress cfg item a ∧ item.1.externalTrafficLocal = policy)

/-- The entries of a claim that the closure `dests` lets through. -/
def Claim.served (c : Claim) : List EndpointInfo :=
  c.eps.filter fun e => e.ready && (!c.localOnly || e.isLocal)

/-- The entries of a DSR item that are written. -/
def DsrItem.served (i : DsrItem) : List EndpointInfo := i.endpoints.filter (·.ready)

/-- The entry stands behind a destination of the address: it is served by the last service port
that claims the address, or by a DSR item for it that has a mark. -/
def Behind (cfg : Config) (snapshot : Snapshot) (a : Address) (d : IpvsDestination)
    (e : EndpointInfo) : Prop :=
  (∃ c, IsLast (snapshot.flatMap (ipvsClaims cfg)) c ∧ c.key = a ∧ e ∈ c.served ∧
    d = { addr := e.ip, port := e.port, weight := 1, tunnel := c.svc.dsr }) ∨
    ∃ i, Reached cfg snapshot i ∧ i.address = a ∧ e ∈ i.served ∧ d = tunnelDest e

/-- No pass over the snapshot gives an address under a Local policy a destination behind which
stands an endpoint that is not local. -/
def PolicyKept (cfg : Config) (snapshot : Snapshot) : Prop :=
  ∀ c reg, Makes cfg snapshot c reg → ∀ a d, PolicyAt cfg snapshot a true → Gives reg a d c →
    ∀ e, Behind cfg snapshot a d e → e.isLocal = true

/-- All ready entries are local. -/
def ReadyLocal (eps : List EndpointInfo) : Prop := ∀ e ∈ eps, e.ready = true → e.isLocal = true

/-- For an address under a Local policy, the last claim of it is under one too or has local ready
endpoints only, and so has every DSR item that serves it. -/
def PolicySafe (cfg : Config) (snapshot : Snapshot) : Prop :=
  ∀ a, PolicyAt cfg snapshot a true →
    (∀ c, IsLast (snapshot.flatMap (ipvsClaims cfg)) c → c.key = a →
      c.localOnly = true ∨ ReadyLocal c.eps) ∧
    ∀ i, Reached cfg snapshot i → i.address = a → ReadyLocal i.endpoints

/-! ## What is given -/

section Given

variable {cfg : Config} {snapshot : Snapshot}

/-- The endpoints of a claim are endpoints of the snapshot. -/
theorem ipvsClaims_eps {c : Claim} (h : c ∈ snapshot.flatMap (ipvsClaims cfg)) :
    ∃ item ∈ snapshot, c.eps = item.2 ∧
      ((c ∈ internalClaims item ∧ c.localOnly = item.1.internalTrafficLocal) ∨
        (c ∈ externalClaims cfg item ∧ c.localOnly = item.1.externalTrafficLocal)) := by
  obtain ⟨item, hitem, hc⟩ := List.mem_flatMap.mp h
  have hsplit : c ∈ internalClaims item ∨ c ∈ externalClaims cfg item := by
    unfold ipvsClaims at hc
    split at hc
    · exact (List.mem_append.mp hc).imp_right fun hc => mem_externalClaims.mpr (.inr hc)
    · exact List.mem_append.mp hc
  obtain hc | hc := hsplit
  · have hof := internalClaims_of hc
    exact ⟨item, hitem, hof.eps, .inl ⟨hc, hof.localOnly_eq⟩⟩
  · have hof := externalClaims_of hc
    exact ⟨item, hitem, hof.eps, .inr ⟨hc, hof.localOnly_eq⟩⟩

theorem mem_claimServed {c : Claim} {e : EndpointInfo} : e ∈ c.served ↔
    e ∈ c.eps ∧ e.ready = true ∧ (c.localOnly = true → e.isLocal = true) := by
  unfold Claim.served
  rw [List.mem_filter]
  cases c.localOnly <;> simp

theorem mem_itemServed {i : DsrItem} {e : EndpointInfo} :
    e ∈ i.served ↔ e ∈ i.endpoints ∧ e.ready = true := List.mem_filter

/-- What passes give to an address are the destinations with an entry behind them. -/
theorem given_iff_behind {a : Address} {d : IpvsDestination} :
    (∃ c reg, Makes cfg snapshot c reg ∧ Gives reg a d c) ↔ ∃ e, Behind cfg snapshot a d e := by
  rw [given_iff]
  constructor
  · rintro (⟨c, hlast, hkey, hd⟩ | ⟨i, hreached, haddr, hd⟩)
    · obtain ⟨e, he, hready, hlocal, hd⟩ := mem_dests.mp hd
      exact ⟨e, .inl ⟨c, hlast, hkey, mem_claimServed.mpr ⟨he, hready, hlocal⟩, hd⟩⟩
    · obtain ⟨e, he, hready, hd⟩ := mem_itemDests.mp hd
      exact ⟨e, .inr ⟨i, hreached, haddr, mem_itemServed.mpr ⟨he, hready⟩, hd⟩⟩
  · rintro ⟨e, ⟨c, hlast, hkey, he, hd⟩ | ⟨i, hreached, haddr, he, hd⟩⟩
    · obtain ⟨he, hready, hlocal⟩ := mem_claimServed.mp he
      exact .inl ⟨c, hlast, hkey, mem_dests.mpr ⟨e, he, hready, hlocal, hd⟩⟩
    · obtain ⟨he, hready⟩ := mem_itemServed.mp he
      exact .inr ⟨i, hreached, haddr, mem_itemDests.mpr ⟨e, he, hready, hd⟩⟩

/-- A claim stands under its own policy. -/
theorem policyAt_claim {c : Claim} (h : c ∈ snapshot.flatMap (ipvsClaims cfg)) :
    PolicyAt cfg snapshot c.key c.localOnly := by
  obtain ⟨item, hitem, _, ⟨hc, hpolicy⟩ | ⟨hc, hpolicy⟩⟩ := ipvsClaims_eps h
  · obtain ⟨hproto, hport, hip⟩ := mem_internalClaims_key.mp ⟨c, hc, rfl⟩
    exact ⟨item, hitem, .inl ⟨⟨hproto, hport.symm, hip⟩, hpolicy.symm⟩⟩
  · obtain ⟨hproto, ⟨hport, hip⟩ | ⟨hnp, _, hip, _⟩⟩ := mem_externalClaims_key.mp ⟨c, hc, rfl⟩
    · refine ⟨item, hitem, .inr ⟨⟨hproto, .inl ⟨hport.symm, ?_⟩⟩, hpolicy.symm⟩⟩
      exact hip.imp And.left And.left
    · exact ⟨item, hitem, .inr ⟨⟨hproto, .inr ⟨hnp, hip⟩⟩, hpolicy.symm⟩⟩

end Given

/-! ## Keeping to the policies -/

/-- Every pass keeps to the Local policies exactly when the snapshot is safe. -/
theorem policyKept_iff (cfg : Config) (snapshot : Snapshot) :
    PolicyKept cfg snapshot ↔ PolicySafe cfg snapshot := by
  constructor
  · intro hkept a ha
    -- An entry that stands behind a destination is written, so it is local.
    have hbehind : ∀ d e, Behind cfg snapshot a d e → e.isLocal = true := by
      intro d e he
      obtain ⟨c, reg, hmakes, hgives⟩ := given_iff_behind.mpr ⟨e, he⟩
      exact hkept c reg hmakes a d ha hgives e he
    refine ⟨fun c hlast hkey => ?_, fun i hreached haddr e he hready => ?_⟩
    · cases hlocal : c.localOnly with
      | true => exact .inl rfl
      | false =>
        right
        intro e he hready
        refine hbehind _ e (.inl ⟨c, hlast, hkey, mem_claimServed.mpr ⟨he, hready, ?_⟩, rfl⟩)
        simp [hlocal]
    · exact hbehind _ e (.inr ⟨i, hreached, haddr, mem_itemServed.mpr ⟨he, hready⟩, rfl⟩)
  · intro hsafe c reg _ a d ha _ e hbehind
    obtain ⟨hclaim, hitem⟩ := hsafe a ha
    obtain ⟨c', hlast, hkey, he, _⟩ | ⟨i, hreached, haddr, he, _⟩ := hbehind
    · obtain ⟨he, hready, hlocal⟩ := mem_claimServed.mp he
      obtain hpolicy | hall := hclaim c' hlast hkey
      · -- the filter has asked
        exact hlocal hpolicy
      · exact hall e he hready
    · obtain ⟨he, hready⟩ := mem_itemServed.mp he
      exact hitem i hreached haddr e he hready

/-- Where no address is under two policies, it is up to the DSR items. -/
theorem policySafe_iff_dsr (cfg : Config) (snapshot : Snapshot)
    (hone : ∀ a, PolicyAt cfg snapshot a true → ¬PolicyAt cfg snapshot a false) :
    PolicySafe cfg snapshot ↔ ∀ i, Reached cfg snapshot i → PolicyAt cfg snapshot i.address true →
      ReadyLocal i.endpoints := by
  constructor
  · intro hsafe i hreached ha
    exact (hsafe i.address ha).2 i hreached rfl
  · intro hdsr a ha
    refine ⟨fun c hlast hkey => .inl ?_, fun i hreached haddr => hdsr i hreached (haddr ▸ ha)⟩
    have hpolicy := policyAt_claim hlast.mem
    rw [hkey] at hpolicy
    cases hlocal : c.localOnly with
    | true => rfl
    | false => exact absurd (hlocal ▸ hpolicy) (hone a ha)

section Sample

def webRemoteEndpoint : EndpointInfo where
  ip := .ofOctets 10 244 2 7
  port := 8080
  isLocal := false
  ready := true

/-- `web` as a DSR service under the Local policy, with one endpoint on another node. -/
def webRemote : Snapshot :=
  [({ web with dsr := true, externalIps := [.ofOctets 203 0 113 5], externalTrafficLocal := true },
    [webRemoteEndpoint])]

def webRemoteItem : DsrItem where
  tuple := ⟨.ofOctets 203 0 113 5, .Tcp, 80⟩
  endpoints := [webRemoteEndpoint]

theorem webRemote_reached : Reached dsrCfg webRemote webRemoteItem := by
  have hok : (assignAll ∅ ([] ++ [webRemoteItem])).isOk = true := by decide +kernel
  cases h : assignAll ∅ ([] ++ [webRemoteItem]) with
  | error msg =>
    rw [h] at hok
    cases hok
  | ok r => exact ⟨[], [], ∅, r, by decide +kernel, h⟩

end Sample

/-- The DSR job of `webRemote` carries the remote endpoint to 203.0.113.5:80. -/
theorem dsr_ignores_policy : ¬∀ cfg snapshot, PolicyKept cfg snapshot := by
  intro hkept
  have hbehind : Behind dsrCfg webRemote webRemoteItem.address (tunnelDest webRemoteEndpoint)
      webRemoteEndpoint :=
    .inr ⟨webRemoteItem, webRemote_reached, rfl, List.mem_singleton_self _, rfl⟩
  obtain ⟨c, reg, hmakes, hgives⟩ := given_iff_behind.mpr ⟨_, hbehind⟩
  have hlocal : PolicyAt dsrCfg webRemote webRemoteItem.address true :=
    ⟨_, List.mem_singleton_self _, .inr ⟨⟨rfl, .inl ⟨rfl, .inl (List.mem_singleton_self _)⟩⟩, rfl⟩⟩
  have hfalse := hkept dsrCfg webRemote c reg hmakes _ _ hlocal hgives _ hbehind
  cases hfalse

end KubeRouter.Proxy
