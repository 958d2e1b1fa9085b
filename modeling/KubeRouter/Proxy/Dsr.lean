/-
  The host side of the DSR datapath over runs of the service proxy (`process_dsr_jobs` in
  `proxy/src/sync.rs`, `configure_dsr_host` in `proxy/src/dsr.rs`).

  `dsrWanted` is what a snapshot asks for: a FWMARK service for each validated external or
  LoadBalancer address of a DSR service, with the ready endpoints as tunnel destinations and a
  MARK rule in two mangle chains. A pass only ever adds: no call takes a FWMARK service, a
  destination of one or a mangle rule away, and `FwMarkRegistry::remove` has no caller. So the
  kernel holds what all snapshots of the run asked for together (`run_dsr`).

  TCPMSS rules stand in the same table; they start with `-s`, MARK rules with `-d`.

  Proved:
  * `dsr_exact_iff`: behind a pass of a run without failures the DSR datapath is exactly the
    wanted one if and only if every address has a mangle handler for its family and all that
    earlier snapshots asked for is wanted by the last one too.
  * `dsr_left_behind`: a DSR service that is gone keeps its FWMARK service.
-/
import KubeRouter.Common.AddrText
import KubeRouter.Proxy.FwMark
import KubeRouter.Proxy.Resync

namespace KubeRouter.Proxy

open Program

/-! ## What a snapshot asks for -/

/-- What a FWMARK stands for. -/
structure DsrTuple where
  vip : IpAddr
  protocol : Protocol
  port : UInt16
deriving DecidableEq, Repr

namespace DsrTuple

def identity (t : DsrTuple) : Identity where
  ip := t.vip.toText
  proto := t.protocol
  port := t.port

/-- The key of the FWMARK registry. -/
def key (t : DsrTuple) : String := t.identity.key

theorem key_inj {t u : DsrTuple} (h : t.key = u.key) : t = u := by
  have hid : t.identity = u.identity :=
    key_injective (addressText_toText t.vip) (addressText_toText u.vip) h
  obtain ⟨hip, hproto, hport⟩ := Identity.mk.inj hid
  have hvip := IpAddr.toText_injective hip
  cases t
  cases u
  simp_all

end DsrTuple

/-- One FWMARK service. -/
structure DsrItem where
  tuple : DsrTuple
  endpoints : List EndpointInfo
deriving DecidableEq, Repr

def tunnelDest (ep : EndpointInfo) : IpvsDestination where
  addr := ep.ip
  port := ep.port
  weight := 1
  tunnel := true

/-- The ready endpoints, as tunnel destinations. -/
def DsrItem.dests (i : DsrItem) : List IpvsDestination :=
  (i.endpoints.filter (·.ready)).map tunnelDest

theorem mem_itemDests {i : DsrItem} {d : IpvsDestination} :
    d ∈ i.dests ↔ ∃ e ∈ i.endpoints, e.ready = true ∧ d = tunnelDest e := by
  simp only [DsrItem.dests, List.mem_map, List.mem_filter]
  constructor
  · rintro ⟨e, ⟨he, hready⟩, rfl⟩
    exact ⟨e, he, hready, rfl⟩
  · rintro ⟨e, he, hready, rfl⟩
    exact ⟨e, ⟨he, hready⟩, rfl⟩

/-- The validated external and LoadBalancer addresses. -/
def dsrVips (cfg : Config) (svc : ServiceInfo) : List IpAddr :=
  (svc.externalIps.filter fun vip =>
    validateExternalIp vip cfg.ranges.external cfg.ranges.cluster cfg.ranges.strict) ++
  svc.loadBalancerIps.filter fun vip =>
    validateExternalIp vip cfg.ranges.loadbalancer cfg.ranges.cluster cfg.ranges.strict

def dsrWantedOf (cfg : Config) (item : ServiceInfo × List EndpointInfo) : List DsrItem :=
  if item.1.dsr then
    (dsrVips cfg item.1).map fun vip => ⟨⟨vip, item.1.protocol, item.1.port⟩, item.2⟩
  else []

def dsrWanted (cfg : Config) (snapshot : Snapshot) : List DsrItem :=
  snapshot.flatMap (dsrWantedOf cfg)

/-! ### Jobs -/

def DsrJob.item (job : DsrJob) (vip : IpAddr) : DsrItem :=
  ⟨⟨vip, job.protocol, job.port⟩, job.endpoints⟩

def jobItems (jobs : List DsrJob) : List DsrItem := jobs.flatMap fun job => job.vips.map job.item

section Jobs

variable (cfg : Config) (svc : ServiceInfo) (eps : List EndpointInfo)

theorem addExternal_jobs (allowed : List IpNet) (vips : List IpAddr)
    (acc : Desired × List IpAddr) :
    (vips.foldl (Desired.addExternal cfg svc eps allowed) acc).1.dsrJobs = acc.1.dsrJobs := by
  induction vips generalizing acc with
  | nil => rfl
  | cons vip vips ih =>
    rw [List.foldl_cons, ih]
    unfold Desired.addExternal
    split
    · split <;> rfl
    · rfl

/-- With handlers configured, the validated addresses of a DSR service are collected. -/
theorem addExternal_vips (henabled : cfg.dsrMangle ≠ []) (allowed : List IpNet)
    (vips : List IpAddr) (acc : Desired × List IpAddr) :
    (vips.foldl (Desired.addExternal cfg svc eps allowed) acc).2 = acc.2 ++
      if svc.dsr then
        vips.filter fun vip =>
          validateExternalIp vip allowed cfg.ranges.cluster cfg.ranges.strict
      else [] := by
  have hempty : cfg.dsrMangle.isEmpty = false := by simpa using henabled
  induction vips generalizing acc with
  | nil => simp
  | cons vip vips ih =>
    rw [List.foldl_cons, ih]
    unfold Desired.addExternal
    cases hvalid : validateExternalIp vip allowed cfg.ranges.cluster cfg.ranges.strict with
    | false => simp [hvalid]
    | true =>
      cases hdsr : svc.dsr with
      | false => simp
      | true => simp [hempty, hvalid]

theorem addNodePort_jobs (D : Desired) :
    (Desired.addNodePort cfg svc eps D).dsrJobs = D.dsrJobs := by
  unfold Desired.addNodePort
  split
  · rfl
  · split
    · rfl
    · dsimp only
      split
      · rfl
      · refine List.foldlRecOn (motive := fun E : Desired => E.dsrJobs = D.dsrJobs) cfg.nodeIps _
          rfl ?_
        intro E hE nip _
        exact hE

theorem add_jobs (henabled : cfg.dsrMangle ≠ []) (D : Desired)
    (item : ServiceInfo × List EndpointInfo) :
    jobItems (Desired.add cfg D item).dsrJobs = jobItems D.dsrJobs ++ dsrWantedOf cfg item := by
  obtain ⟨svc, eps⟩ := item
  unfold Desired.add
  dsimp only
  rw [addNodePort_jobs]
  generalize hD : svc.clusterIps.foldl
    (fun D vip => Desired.addVip svc eps D vip svc.internalTrafficLocal)
    { D with wantSloppyTcp := D.wantSloppyTcp || serviceWantsSloppyTcp svc } = E
  have hE : E.dsrJobs = D.dsrJobs := by
    rw [← hD]
    refine List.foldlRecOn (motive := fun E : Desired => E.dsrJobs = D.dsrJobs) svc.clusterIps _
      rfl ?_
    intro E hE vip _
    exact hE
  generalize hacc : svc.loadBalancerIps.foldl
    (Desired.addExternal cfg svc eps cfg.ranges.loadbalancer)
    (svc.externalIps.foldl (Desired.addExternal cfg svc eps cfg.ranges.external) (E, [])) = acc
  have hjobs : acc.1.dsrJobs = D.dsrJobs := by
    rw [← hacc, addExternal_jobs, addExternal_jobs, hE]
  have hvips : acc.2 = if svc.dsr then dsrVips cfg svc else [] := by
    rw [← hacc, addExternal_vips cfg svc eps henabled, addExternal_vips cfg svc eps henabled]
    cases svc.dsr with
    | false => rfl
    | true => rfl
  unfold dsrWantedOf
  cases hdsr : svc.dsr with
  | false =>
    rw [hdsr] at hvips
    have hnil : acc.2 = [] := hvips
    simp [hnil, hjobs]
  | true =>
    rw [hdsr] at hvips
    have hvips : acc.2 = dsrVips cfg svc := hvips
    by_cases hnil : acc.2 = []
    · simp [hnil, hjobs, ← hvips]
    · rw [hvips] at hnil ⊢
      rw [if_neg (by simpa using hnil)]
      simp [hjobs, jobItems, DsrJob.item]

/-- The queued jobs are what the snapshot asks for. -/
theorem jobItems_desired (henabled : cfg.dsrMangle ≠ []) (snapshot : Snapshot) :
    jobItems (desired cfg snapshot).dsrJobs = dsrWanted cfg snapshot := by
  have hgen : ∀ (snapshot : Snapshot) (D : Desired),
      jobItems (snapshot.foldl (Desired.add cfg) D).dsrJobs =
        jobItems D.dsrJobs ++ dsrWanted cfg snapshot := by
    intro snapshot
    induction snapshot with
    | nil =>
      intro D
      simp [dsrWanted]
    | cons item snapshot ih =>
      intro D
      rw [List.foldl_cons, ih, add_jobs cfg henabled]
      simp [dsrWanted]
  exact hgen snapshot {}

end Jobs

/-! ## The datapath -/

theorem dsrMarkArgs_inj {ip ip' : IpAddr} {proto proto' : Protocol} {port port' : UInt16}
    {m m' : UInt32} (h : dsrMarkArgs ip proto port m = dsrMarkArgs ip' proto' port' m') :
    (⟨ip, proto, port⟩ : DsrTuple) = ⟨ip', proto', port'⟩ ∧ m = m' := by
  simp only [dsrMarkArgs, List.cons.injEq, true_and, and_true] at h
  obtain ⟨hip, hproto, _, hport, hmark⟩ := h
  have hip := IpAddr.toText_injective hip
  have hproto := protoName_injective hproto
  have hport := UInt16.toNat_inj.mp (Nat.repr_injective hport)
  have hmark := UInt32.toNat_inj.mp (Nat.repr_injective hmark)
  simp [hip, hproto, hport, hmark]

theorem tcpmss_ne_mark (ip ip' : IpAddr) (port port' : UInt16) (mss : Int) (proto : Protocol)
    (m : UInt32) : dsrMarkArgs ip proto port m ≠ tcpmssMangleArgs ip' port' mss := by
  intro h
  have hhead := (List.cons.inj h).1
  revert hhead
  decide

/-- The FWMARK services, their destinations and the MARK rules are those of `items`, each under
the mark that the registry holds for its tuple. -/
structure DsrExact (items : List DsrItem) (w : World) : Prop where
  assigned : ∀ i ∈ items, ∃ m, w.sync.dsrRegistry.slots m = some i.tuple.key
  services : ∀ m, m ∈ w.kernel.fwmarkServices ↔
    ∃ i ∈ items, w.sync.dsrRegistry.slots m = some i.tuple.key
  dests : ∀ m d, (m, d) ∈ w.kernel.fwmarkDests ↔
    ∃ i ∈ items, w.sync.dsrRegistry.slots m = some i.tuple.key ∧ d ∈ i.dests
  marks : ∀ ipv6 chain (t : DsrTuple) m,
    (ipv6, chain, dsrMarkArgs t.vip t.protocol t.port m) ∈ w.kernel.mangle ↔
      (∃ i ∈ items, i.tuple = t) ∧ w.sync.dsrRegistry.slots m = some t.key ∧
        ipv6 = t.vip.isIpv6 ∧ (chain = "PREROUTING" ∨ chain = "OUTPUT")

/-- The datapath together with the probing invariant of the registry. -/
structure DsrInv (items : List DsrItem) (w : World) : Prop where
  anchored : w.sync.dsrRegistry.Anchored
  exact : DsrExact items w

theorem dsrInv_init : DsrInv [] {} where
  anchored := FwMarkRegistry.anchored_empty
  exact :=
    { assigned := fun i hi => absurd hi List.not_mem_nil
      services := fun m => by simp
      dests := fun m d => by simp
      marks := fun ipv6 chain t m => by simp }

/-! ### Frame -/

/-- Registry, FWMARK tables and mangle rules are the same. -/
structure DsrSame (w t : World) : Prop where
  registry : t.sync.dsrRegistry = w.sync.dsrRegistry
  services : t.kernel.fwmarkServices = w.kernel.fwmarkServices
  dests : t.kernel.fwmarkDests = w.kernel.fwmarkDests
  mangle : t.kernel.mangle = w.kernel.mangle

theorem DsrSame.refl (w : World) : DsrSame w w := ⟨rfl, rfl, rfl, rfl⟩

theorem DsrSame.trans (w t u : World) (h : DsrSame w t) (k : DsrSame t u) : DsrSame w u :=
  ⟨k.registry.trans h.registry, k.services.trans h.services, k.dests.trans h.dests,
    k.mangle.trans h.mangle⟩

theorem DsrInv.frame {items : List DsrItem} {w t : World} (h : DsrInv items w)
    (hsame : DsrSame w t) : DsrInv items t := by
  obtain ⟨hanchored, hassigned, hservices, hdests, hmarks⟩ := h
  rw [← hsame.registry] at hanchored hassigned hservices hdests hmarks
  rw [← hsame.services] at hservices
  rw [← hsame.dests] at hdests
  rw [← hsame.mangle] at hmarks
  exact ⟨hanchored, hassigned, hservices, hdests, hmarks⟩

theorem system_frame (K : Kernel) {c : Call} (hc : c.isDsr = false) :
    (K.system c).fwmarkServices = K.fwmarkServices ∧ (K.system c).fwmarkDests = K.fwmarkDests ∧
      (K.system c).mangle = K.mangle := by
  have hupsert : (K.upsert c).fwmarkServices = K.fwmarkServices ∧
      (K.upsert c).fwmarkDests = K.fwmarkDests ∧ (K.upsert c).mangle = K.mangle := by
    cases c with
    | addFwmarkService | addFwmarkDestination | mangleAppend => cases hc
    | delDestination svc dst =>
      simp only [Kernel.upsert, Kernel.dropDest]
      split <;> exact ⟨rfl, rfl, rfl⟩
    | _ => exact ⟨rfl, rfl, rfl⟩
  obtain heq | heq := Kernel.system_eq K c
  · rw [heq]
    exact ⟨rfl, rfl, rfl⟩
  · rw [heq]
    exact hupsert

/-- Outside the DSR stage nothing touches the datapath. -/
theorem dsrSame_walks {b : Backend} (hb : b.exec = Kernel.system) (D : Desired) :
    Walks b D DsrSame where
  refl := DsrSame.refl
  trans := DsrSame.trans
  ask := fun _ _ => ⟨rfl, rfl, rfl, rfl⟩
  sync := fun _ _ hf => ⟨hf, rfl, rfl, rfl⟩
  call := by
    intro w c hc
    rw [hb]
    obtain ⟨hs, hd, hm⟩ := system_frame w.kernel hc.1
    exact ⟨rfl, hs, hd, hm⟩

/-! ### Additions -/

/-- Every destination of a FWMARK service is a tunnel destination with weight 1. -/
def TunnelOnly (K : Kernel) : Prop :=
  ∀ e ∈ K.fwmarkDests, e.2.weight = 1 ∧ e.2.tunnel = true

theorem tunnelDest_eq {d : IpvsDestination} (hd : d.weight = 1 ∧ d.tunnel = true)
    {ep : EndpointInfo} (hsame : d.same (tunnelDest ep) = true) : d = tunnelDest ep := by
  obtain ⟨ha, hp⟩ := IpvsDestination.same_iff.mp hsame
  obtain ⟨hw, ht⟩ := hd
  cases d
  simp_all [tunnelDest]

/-- The calls `cs` lead from `w` to `t`. Each of them adds, none takes anything away. -/
structure DsrAdded (w t : World) (cs : List Call) : Prop where
  registry : t.sync.dsrRegistry = w.sync.dsrRegistry
  services : ∀ m, m ∈ t.kernel.fwmarkServices ↔
    m ∈ w.kernel.fwmarkServices ∨ ∃ s p, .addFwmarkService m s p ∈ cs
  tunnel : TunnelOnly w.kernel → TunnelOnly t.kernel
  dests : TunnelOnly w.kernel → ∀ m d, (m, d) ∈ t.kernel.fwmarkDests ↔
    (m, d) ∈ w.kernel.fwmarkDests ∨ .addFwmarkDestination m d ∈ cs
  mangle : ∀ ipv6 chain args, (ipv6, chain, args) ∈ t.kernel.mangle ↔
    (ipv6, chain, args) ∈ w.kernel.mangle ∨ .mangleAppend ipv6 chain args ∈ cs

theorem dsrAdded_script : Script DsrAdded (fun _ _ _ => True) where
  refl w := ⟨rfl, fun m => by simp, fun h => h, fun _ m d => by simp,
    fun ipv6 chain args => by simp⟩
  trans {w t u l m} h k := by
    refine ⟨k.registry.trans h.registry, fun x => ?_, fun ht => k.tunnel (h.tunnel ht),
      fun ht x d => ?_, fun ipv6 chain args => ?_⟩
    · rw [k.services, h.services, or_assoc]
      simp only [List.mem_append, exists_or]
    · rw [k.dests (h.tunnel ht), h.dests ht, or_assoc, List.mem_append]
    · rw [k.mangle, h.mangle, or_assoc, List.mem_append]
  stop _ _ := trivial
  early _ := trivial

/-- The calls that make up the datapath of one address. -/
inductive Adds : Call → Prop
  | service (m : UInt32) (s : Scheduler) (p : Option UInt32) : Adds (.addFwmarkService m s p)
  | dest (m : UInt32) (ep : EndpointInfo) : Adds (.addFwmarkDestination m (tunnelDest ep))
  | rule (ipv6 : Bool) (chain : String) (args : List String) : Adds (.mangleAppend ipv6 chain args)

theorem system_adds {b : Backend} (hb : b.exec = Kernel.system) {c : Call} (hc : Adds c)
    (w : World) :
    DsrAdded w { w with kernel := b.exec w.kernel c, calls := w.calls ++ [c],
                        asked := w.asked + 1 } [c] := by
  rw [hb]
  cases hc with
  | service m s p =>
    by_cases hm : m ∈ w.kernel.fwmarkServices
    · have hsame : w.kernel.system (.addFwmarkService m s p) = w.kernel := if_pos hm
      rw [hsame]
      refine ⟨rfl, fun x => ?_, fun h => h, fun _ x d => by simp, fun ipv6 chain args => by simp⟩
      simp only [List.mem_singleton, Call.addFwmarkService.injEq]
      refine ⟨Or.inl, ?_⟩
      rintro (hx | ⟨_, _, rfl, _⟩)
      · exact hx
      · exact hm
    · have hnew : w.kernel.system (.addFwmarkService m s p) =
          w.kernel.upsert (.addFwmarkService m s p) := if_neg hm
      rw [hnew]
      refine ⟨rfl, fun x => ?_, fun h => h, fun _ x d => ?_, fun ipv6 chain args => ?_⟩
      · simp [Kernel.upsert]
      · simp [Kernel.upsert]
      · simp [Kernel.upsert]
  | dest m ep =>
    by_cases hany : w.kernel.fwmarkDests.any (fun e => e.1 == m && e.2.same (tunnelDest ep)) = true
    · have hsame : w.kernel.system (.addFwmarkDestination m (tunnelDest ep)) = w.kernel :=
        if_pos hany
      rw [hsame]
      refine ⟨rfl, fun x => by simp, fun h => h, fun ht x d => ?_, fun ipv6 chain args => by simp⟩
      -- a destination with this backend is this destination
      obtain ⟨e, he, hboth⟩ := List.any_eq_true.mp hany
      obtain ⟨hem, hes⟩ := Bool.and_eq_true_iff.mp hboth
      have heq : e = (m, tunnelDest ep) :=
        Prod.ext (by simpa using hem) (tunnelDest_eq (ht e he) hes)
      simp only [List.mem_singleton, Call.addFwmarkDestination.injEq]
      refine ⟨Or.inl, ?_⟩
      rintro (hx | ⟨rfl, rfl⟩)
      · exact hx
      · exact heq ▸ he
    · have hnew : w.kernel.system (.addFwmarkDestination m (tunnelDest ep)) =
          w.kernel.upsert (.addFwmarkDestination m (tunnelDest ep)) := if_neg hany
      rw [hnew]
      refine ⟨rfl, fun x => ?_, fun ht e he => ?_, fun _ x d => ?_, fun ipv6 chain args => ?_⟩
      · simp [Kernel.upsert]
      · obtain he | he := List.mem_append.mp he
        · exact ht e he
        · rw [List.mem_singleton.mp he]
          exact ⟨rfl, rfl⟩
      · simp [Kernel.upsert]
      · simp [Kernel.upsert]
  | rule ipv6 chain args =>
    have hrule : w.kernel.system (.mangleAppend ipv6 chain args) =
        w.kernel.upsert (.mangleAppend ipv6 chain args) := rfl
    rw [hrule]
    by_cases hmem : (ipv6, chain, args) ∈ w.kernel.mangle
    · simp only [Kernel.upsert, if_pos hmem]
      refine ⟨rfl, fun x => by simp, fun h => h, fun _ x d => by simp, fun v6 ch as => ?_⟩
      simp only [List.mem_singleton, Call.mangleAppend.injEq]
      refine ⟨Or.inl, ?_⟩
      rintro (hx | ⟨rfl, rfl, rfl⟩)
      · exact hx
      · exact hmem
    · simp only [Kernel.upsert, if_neg hmem]
      refine ⟨rfl, fun x => by simp, fun h => h, fun _ x d => by simp, fun v6 ch as => ?_⟩
      simp

theorem takes_dsr_call {b : Backend} (hb : b.exec = Kernel.system) (err : String → SyncError)
    {c : Call} (hc : Adds c) : Takes DsrAdded (fun _ _ _ => True) (call b err c) [c] := by
  intro w
  unfold call ask
  simp only [wp_bind, wp_get, wp_modify, wp_pure]
  split
  · exact trivial
  · rw [wp_modify]
    exact system_adds hb hc w

/-! ### One address -/

theorem DsrInv.tunnelOnly {items : List DsrItem} {w : World} (h : DsrInv items w) :
    TunnelOnly w.kernel := by
  intro e he
  obtain ⟨i, _, _, hd⟩ := (h.exact.dests e.1 e.2).mp he
  obtain ⟨ep, _, hep⟩ := List.mem_map.mp hd
  rw [← hep]
  exact ⟨rfl, rfl⟩

/-- Assigning a mark to a tuple changes no mark of a tuple that has one. -/
theorem slots_assigned {reg : FwMarkRegistry} (hanchored : reg.Anchored) {items : List DsrItem}
    (hassigned : ∀ i ∈ items, ∃ m, reg.slots m = some i.tuple.key) {key : String} {m : UInt32}
    (hslot : reg.slotFor key = some m) {i : DsrItem} (hi : i ∈ items) (x : UInt32) :
    FwMarkRegistry.slots (reg.insert m key) x = some i.tuple.key ↔
      reg.slots x = some i.tuple.key := by
  rw [FwMarkRegistry.slots_insert]
  by_cases hx : x = m
  · subst hx
    rw [Function.update_self]
    by_cases hkey : key = i.tuple.key
    · -- the tuple has a mark already, and it is this one
      subst hkey
      obtain ⟨m, hm⟩ := hassigned i hi
      have heq : reg.slotFor i.tuple.key = some m := hanchored m _ hm
      rw [hslot] at heq
      cases heq
      simp [hm]
    · have hfree : Probing.blocked reg.slots key x = false := by
        obtain ⟨_, _, _, _, hfree, _⟩ := (Probing.search_eq_some_iff _ _).mp hslot
        exact hfree
      have hne : reg.slots x ≠ some i.tuple.key := by
        intro hheld
        rw [Probing.blocked_of_eq hheld (Ne.symm hkey)] at hfree
        cases hfree
      simp [hkey, hne]
  · rw [Function.update_of_ne hx]

/-- The datapath after the calls for one more item, under the mark `m`. -/
theorem DsrInv.add {items : List DsrItem} {w t : World} (h : DsrInv items w) {i : DsrItem}
    {m : UInt32} (hslot : w.sync.dsrRegistry.slotFor i.tuple.key = some m)
    (hreg : t.sync.dsrRegistry = w.sync.dsrRegistry.insert m i.tuple.key)
    (hservices : ∀ x, x ∈ t.kernel.fwmarkServices ↔ x ∈ w.kernel.fwmarkServices ∨ x = m)
    (hdests : ∀ x d, (x, d) ∈ t.kernel.fwmarkDests ↔
      (x, d) ∈ w.kernel.fwmarkDests ∨ x = m ∧ d ∈ i.dests)
    (hmarks : ∀ ipv6 chain (u : DsrTuple) x,
      (ipv6, chain, dsrMarkArgs u.vip u.protocol u.port x) ∈ t.kernel.mangle ↔
        (ipv6, chain, dsrMarkArgs u.vip u.protocol u.port x) ∈ w.kernel.mangle ∨
          u = i.tuple ∧ x = m ∧ ipv6 = u.vip.isIpv6 ∧
            (chain = "PREROUTING" ∨ chain = "OUTPUT")) :
    DsrInv (items ++ [i]) t := by
  have hanchored : t.sync.dsrRegistry.Anchored := by
    rw [hreg]
    unfold FwMarkRegistry.Anchored
    rw [FwMarkRegistry.slots_insert]
    exact Probing.Rooted.insert h.anchored hslot
  have hold : ∀ j ∈ items, ∀ x, t.sync.dsrRegistry.slots x = some j.tuple.key ↔
      w.sync.dsrRegistry.slots x = some j.tuple.key := by
    intro j hj x
    rw [hreg]
    exact slots_assigned h.anchored h.exact.assigned hslot hj x
  have hnew : ∀ x, t.sync.dsrRegistry.slots x = some i.tuple.key ↔ x = m := by
    have hm : t.sync.dsrRegistry.slots m = some i.tuple.key := by
      rw [hreg, FwMarkRegistry.slots_insert, Function.update_self]
    intro x
    constructor
    · intro hx
      exact hanchored.unique hx hm
    · intro hx
      rw [hx, hm]
  have hall : ∀ P : DsrItem → Prop, (∃ j ∈ items ++ [i], P j) ↔ (∃ j ∈ items, P j) ∨ P i := by
    intro P
    simp only [List.mem_append, List.mem_singleton, or_and_right, exists_or, exists_eq_left]
  refine ⟨hanchored, ?_, ?_, ?_, ?_⟩
  · intro j hj
    obtain hj | hj := List.mem_append.mp hj
    · obtain ⟨x, hx⟩ := h.exact.assigned j hj
      exact ⟨x, (hold j hj x).mpr hx⟩
    · rw [List.mem_singleton.mp hj]
      exact ⟨m, (hnew m).mpr rfl⟩
  · intro x
    rw [hservices, h.exact.services, hall, hnew]
    refine or_congr_left (exists_congr fun j => and_congr_right fun hj => ?_)
    exact (hold j hj x).symm
  · intro x d
    rw [hdests, h.exact.dests, hall, hnew]
    refine or_congr_left (exists_congr fun j => and_congr_right fun hj => ?_)
    rw [hold j hj x]
  · intro ipv6 chain u x
    rw [hmarks, h.exact.marks, hall]
    by_cases hu : u = i.tuple
    · subst hu
      rw [hnew]
      simp only [true_and, or_true]
      refine ⟨fun hcase => hcase.elim ?_ id, Or.inr⟩
      rintro ⟨⟨j, hj, hjt⟩, hx, hrest⟩
      rw [← hjt, ← hold j hj x, hjt, hnew] at hx
      exact ⟨hx, hrest⟩
    · have hne : ¬i.tuple = u := fun heq => hu heq.symm
      simp only [hu, hne, false_and, or_false]
      refine and_congr_right fun ⟨j, hj, hjt⟩ => and_congr_left' ?_
      rw [← hjt, hold j hj x]

section Stage

variable {b : Backend} (hb : b.exec = Kernel.system)

/-- The calls for one address behind the assignment of its mark. -/
def vipCalls (ipv6 : Bool) (job : DsrJob) (vip : IpAddr) (fwmark : UInt32) : List Call :=
  [.addFwmarkService fwmark job.scheduler job.persistent] ++
    ((job.endpoints.filter (·.ready)).flatMap (fun ep =>
      [.addFwmarkDestination fwmark (tunnelDest ep)]) ++
    ([.mangleAppend ipv6 "PREROUTING" (dsrMarkArgs vip job.protocol job.port fwmark)] ++
      [.mangleAppend ipv6 "OUTPUT" (dsrMarkArgs vip job.protocol job.port fwmark)]))

theorem mem_vipCalls_dest {ipv6 : Bool} {job : DsrJob} {vip : IpAddr} {m x : UInt32}
    {d : IpvsDestination} : .addFwmarkDestination x d ∈ vipCalls ipv6 job vip m ↔
      x = m ∧ d ∈ (job.item vip).dests := by
  simp only [vipCalls, DsrItem.dests, DsrJob.item, List.mem_append, List.mem_singleton,
    List.mem_flatMap, List.mem_map, Call.addFwmarkDestination.injEq, reduceCtorEq, false_or,
    or_false]
  constructor
  · rintro ⟨ep, hep, rfl, rfl⟩
    exact ⟨rfl, ep, hep, rfl⟩
  · rintro ⟨rfl, ep, hep, rfl⟩
    exact ⟨ep, hep, rfl, rfl⟩

theorem mem_vipCalls_rule {job : DsrJob} {vip : IpAddr} {m x : UInt32} {ipv6 : Bool}
    {chain : String} {u : DsrTuple} :
    .mangleAppend ipv6 chain (dsrMarkArgs u.vip u.protocol u.port x) ∈
        vipCalls vip.isIpv6 job vip m ↔
      u = (job.item vip).tuple ∧ x = m ∧ ipv6 = u.vip.isIpv6 ∧
        (chain = "PREROUTING" ∨ chain = "OUTPUT") := by
  simp only [vipCalls, DsrJob.item, List.mem_append, List.mem_singleton, List.mem_flatMap,
    Call.mangleAppend.injEq, reduceCtorEq, and_false, exists_false, false_or]
  constructor
  · rintro (⟨rfl, rfl, hargs⟩ | ⟨rfl, rfl, hargs⟩)
    · obtain ⟨hu, hx⟩ := dsrMarkArgs_inj hargs
      exact ⟨hu, hx, congrArg (fun t : DsrTuple => t.vip.isIpv6) hu.symm, Or.inl rfl⟩
    · obtain ⟨hu, hx⟩ := dsrMarkArgs_inj hargs
      exact ⟨hu, hx, congrArg (fun t : DsrTuple => t.vip.isIpv6) hu.symm, Or.inr rfl⟩
  · rintro ⟨rfl, rfl, rfl, rfl | rfl⟩
    · exact Or.inl ⟨rfl, rfl, rfl⟩
    · exact Or.inr ⟨rfl, rfl, rfl⟩

include hb

theorem wp_configureDsrVip (job : DsrJob) (vip : IpAddr) {items : List DsrItem} {w : World}
    (hw : DsrInv items w) :
    wp (configureDsrVip b vip.isIpv6 job vip) (fun _ t => DsrInv (items ++ [job.item vip]) t)
      (fun _ _ => True) w := by
  have hS := dsrAdded_script
  unfold configureDsrVip
  rw [wp_bind, wp_get]
  split
  · exact trivial
  · next fwmark reg hassign =>
    obtain ⟨hslot, hreg⟩ :=
      @FwMarkRegistry.assign_slot _ (job.item vip).tuple.identity _ _ hassign
    have hcalls : Takes DsrAdded (fun _ _ _ => True) (do
        dsrIpvs b (.addFwmarkService fwmark job.scheduler job.persistent)
        (job.endpoints.filter (·.ready)).forM fun ep =>
          dsrIpvs b (.addFwmarkDestination fwmark (tunnelDest ep))
        dsrMangle b (.mangleAppend vip.isIpv6 "PREROUTING"
          (dsrMarkArgs vip job.protocol job.port fwmark))
        dsrMangle b (.mangleAppend vip.isIpv6 "OUTPUT"
          (dsrMarkArgs vip job.protocol job.port fwmark)))
        (vipCalls vip.isIpv6 job vip fwmark) := by
      refine Takes.bind hS (takes_dsr_call hb _ (.service _ _ _)) ?_
      refine Takes.bind hS (Takes.forM hS _ fun ep _ => takes_dsr_call hb _ (.dest _ ep)) ?_
      exact Takes.bind hS (takes_dsr_call hb _ (.rule _ _ _)) (takes_dsr_call hb _ (.rule _ _ _))
    unfold modifySync
    rw [wp_bind, wp_modify]
    refine wp_mono (hcalls _) (fun _ t ht => ?_) (fun _ _ _ => trivial)
    refine hw.add hslot (ht.registry.trans hreg) (fun x => ?_) (fun x d => ?_)
      (fun ipv6 chain u x => ?_)
    · rw [ht.services]
      simp [vipCalls]
    · rw [ht.dests hw.tunnelOnly]
      exact or_congr_right mem_vipCalls_dest
    · rw [ht.mangle]
      exact or_congr_right mem_vipCalls_rule

/-- A clamp rule is no MARK rule. -/
theorem wp_ensureTcpmss (ipv6 : Bool) (ip : IpAddr) (port : UInt16) (mtu : Int)
    {items : List DsrItem} {w : World} (hw : DsrInv items w) :
    wp (ensureTcpmss b ipv6 ip port mtu) (fun _ t => DsrInv items t) (fun _ _ => True) w := by
  refine wp_mono (takes_dsr_call hb _ (.rule _ _ _) w) (fun _ t ht => ?_) (fun _ _ _ => trivial)
  obtain ⟨hanchored, hassigned, hservices, hdests, hmarks⟩ := hw
  refine ⟨?_, ?_, ?_, ?_, ?_⟩
  · rw [ht.registry]
    exact hanchored
  · rw [ht.registry]
    exact hassigned
  · intro m
    rw [ht.services, ht.registry, hservices]
    simp
  · intro m d
    rw [ht.dests (DsrInv.tunnelOnly ⟨hanchored, hassigned, hservices, hdests, hmarks⟩), ht.registry,
      hdests]
    simp
  · intro v6 chain t m
    rw [ht.mangle, ht.registry, hmarks]
    simp [tcpmss_ne_mark]

/-- The items of one job for one family. -/
def familyItems (job : DsrJob) (ipv6 : Bool) : List DsrItem :=
  (job.vips.filter fun v => v.isIpv6 == ipv6).map job.item

theorem wp_processDsrJob (cfg : Config) (job : DsrJob) (ipv6 : Bool) {items : List DsrItem}
    {w : World} (hw : DsrInv items w) :
    wp (processDsrJob b cfg job ipv6) (fun _ t => DsrInv (items ++ familyItems job ipv6) t)
      (fun _ _ => True) w := by
  unfold processDsrJob
  dsimp only
  rw [wp_bind]
  have hvips := wp_forM (E := fun _ _ => True) (f := configureDsrVip b ipv6 job) (s := w)
    (fun done t => DsrInv (items ++ done.map job.item) t)
    (job.vips.filter fun v => v.isIpv6 == ipv6) (by simpa using hw)
    (fun done vip rest t heq ht => by
      have hmem : vip ∈ job.vips.filter fun v => v.isIpv6 == ipv6 := by
        rw [heq]
        simp
      have hfamily : vip.isIpv6 = ipv6 := by simpa using (List.mem_filter.mp hmem).2
      rw [List.map_append, ← List.append_assoc, ← hfamily]
      exact wp_configureDsrVip hb job vip ht)
  refine wp_mono hvips (fun _ t ht => ?_) (fun _ _ _ => trivial)
  exact wp_forM (E := fun _ _ => True) (fun _ t => DsrInv (items ++ familyItems job ipv6) t) _ ht
    (fun _ vip _ u _ hu => wp_ensureTcpmss hb ipv6 vip job.port cfg.dsrMtu hu)

/-- What the jobs of a pass add: the items with a handler for their family. -/
def handledItems (cfg : Config) (jobs : List DsrJob) : List DsrItem :=
  jobs.flatMap fun job => cfg.dsrMangle.flatMap (familyItems job)

theorem wp_processDsrJobs (cfg : Config) (jobs : List DsrJob) {items : List DsrItem} {w : World}
    (hw : DsrInv items w) :
    wp (processDsrJobs b cfg jobs) (fun _ t => DsrInv (items ++ handledItems cfg jobs) t)
      (fun _ _ => True) w := by
  refine wp_forM (E := fun _ _ => True) (fun done t => DsrInv (items ++ handledItems cfg done) t)
    jobs (by simpa [handledItems] using hw) (fun done job rest t _ ht => ?_)
  have hfamilies := wp_forM (E := fun _ _ => True) (f := processDsrJob b cfg job) (s := t)
    (fun fams u => DsrInv (items ++ handledItems cfg done ++ fams.flatMap (familyItems job)) u)
    cfg.dsrMangle (by simpa using ht)
    (fun fams ipv6 _ u _ hu => by
      rw [List.flatMap_append, List.flatMap_singleton, ← List.append_assoc]
      exact wp_processDsrJob hb cfg job ipv6 hu)
  refine wp_mono hfamilies (fun _ u hu => ?_) (fun _ _ _ => trivial)
  rw [List.append_assoc] at hu
  simpa [handledItems] using hu

/-- A pass that succeeds. -/
theorem wp_reconcileInner_dsr (cfg : Config) (full : Bool) (snapshot : Snapshot)
    {items : List DsrItem} {w : World} (hw : DsrInv items w) :
    wp (reconcileInner b cfg full snapshot)
      (fun _ t => DsrInv (items ++ handledItems cfg (desired cfg snapshot).dsrJobs) t)
      (fun _ _ => True) w := by
  have hwalk := dsrSame_walks hb (desired cfg snapshot)
  refine hwalk.wp_front cfg full snapshot rfl w (fun _ _ _ _ => trivial) fun t ht => ?_
  rw [wp_bind]
  refine wp_mono (wp_processDsrJobs hb cfg _ (hw.frame ht)) (fun _ u hu => ?_)
    (fun _ _ _ => trivial)
  exact wp_mono (hwalk.syncOthers u) (fun _ _ hsame => hu.frame hsame) (fun _ _ _ => trivial)

end Stage

/-! ## Runs -/

/-- Every pass of the run from `w` succeeds. -/
def FailureFree (b : Backend) (cfg : Config) : World → List (Bool × Snapshot) → Prop
  | _, [] => True
  | w, pass :: passes =>
    (Prog.exec (reconcileInner b cfg pass.1 pass.2) w).1 = .ok () ∧
      FailureFree b cfg (passWorld b cfg w pass) passes

/-- What a pass over `snapshot` adds. -/
def dsrHandled (cfg : Config) (snapshot : Snapshot) : List DsrItem :=
  handledItems cfg (desired cfg snapshot).dsrJobs

theorem mem_dsrHandled {cfg : Config} (henabled : cfg.dsrMangle ≠ []) {snapshot : Snapshot}
    {i : DsrItem} : i ∈ dsrHandled cfg snapshot ↔
      i ∈ dsrWanted cfg snapshot ∧ i.tuple.vip.isIpv6 ∈ cfg.dsrMangle := by
  rw [← jobItems_desired cfg henabled]
  simp only [dsrHandled, handledItems, familyItems, jobItems, List.mem_flatMap, List.mem_map,
    List.mem_filter, beq_iff_eq]
  constructor
  · rintro ⟨job, hjob, ipv6, hv6, vip, ⟨hvip, hfamily⟩, rfl⟩
    refine ⟨⟨job, hjob, vip, hvip, rfl⟩, ?_⟩
    show vip.isIpv6 ∈ cfg.dsrMangle
    rw [hfamily]
    exact hv6
  · rintro ⟨⟨job, hjob, vip, hvip, rfl⟩, hfamily⟩
    exact ⟨job, hjob, vip.isIpv6, hfamily, vip, ⟨hvip, rfl⟩, rfl⟩

/-- The datapath after a run is what all its snapshots asked for together. -/
theorem run_dsr {b : Backend} (hb : b.exec = Kernel.system) (cfg : Config)
    (passes : List (Bool × Snapshot)) {items : List DsrItem} {w : World} (hw : DsrInv items w)
    (hok : FailureFree b cfg w passes) :
    DsrInv (items ++ passes.flatMap fun pass => dsrHandled cfg pass.2)
      (runPasses b cfg passes w) := by
  induction passes generalizing items w with
  | nil => simpa [runPasses] using hw
  | cons pass passes ih =>
    obtain ⟨hpass, hrest⟩ := hok
    have hnext : DsrInv (items ++ dsrHandled cfg pass.2) (passWorld b cfg w pass) :=
      wp_ok (wp_reconcileInner_dsr hb cfg pass.1 pass.2 hw) hpass
    rw [List.flatMap_cons, ← List.append_assoc]
    exact ih hnext hrest

/-- Two lists that ask for the same tuples, and for the same destinations of each. -/
structure SameItems (items items' : List DsrItem) : Prop where
  tuples : ∀ t, (∃ i ∈ items, i.tuple = t) ↔ ∃ i ∈ items', i.tuple = t
  dests : ∀ t d, (∃ i ∈ items, i.tuple = t ∧ d ∈ i.dests) ↔ ∃ i ∈ items', i.tuple = t ∧ d ∈ i.dests

theorem DsrExact.same_iff {items items' : List DsrItem} {w : World} (h : DsrExact items w) :
    DsrExact items' w ↔ SameItems items items' := by
  -- two readings of the same tables agree on every mark
  have hle : ∀ {l l' : List DsrItem}, DsrExact l w → DsrExact l' w →
      (∀ t, (∃ i ∈ l, i.tuple = t) → ∃ i ∈ l', i.tuple = t) ∧
      ∀ t d, (∃ i ∈ l, i.tuple = t ∧ d ∈ i.dests) → ∃ i ∈ l', i.tuple = t ∧ d ∈ i.dests := by
    intro l l' hl hl'
    constructor
    · rintro t ⟨i, hi, rfl⟩
      obtain ⟨m, hm⟩ := hl.assigned i hi
      obtain ⟨j, hj, hjm⟩ := (hl'.services m).mp ((hl.services m).mpr ⟨i, hi, hm⟩)
      rw [hm] at hjm
      exact ⟨j, hj, DsrTuple.key_inj (Option.some.inj hjm).symm⟩
    · rintro t d ⟨i, hi, rfl, hd⟩
      obtain ⟨m, hm⟩ := hl.assigned i hi
      obtain ⟨j, hj, hjm, hdj⟩ := (hl'.dests m d).mp ((hl.dests m d).mpr ⟨i, hi, hm, hd⟩)
      rw [hm] at hjm
      exact ⟨j, hj, DsrTuple.key_inj (Option.some.inj hjm).symm, hdj⟩
  constructor
  · intro h'
    obtain ⟨ht, hd⟩ := hle h h'
    obtain ⟨ht', hd'⟩ := hle h' h
    exact ⟨fun t => ⟨ht t, ht' t⟩, fun t d => ⟨hd t d, hd' t d⟩⟩
  · intro hsame
    refine ⟨fun i hi => ?_, fun m => ?_, fun m d => ?_, fun ipv6 chain t m => ?_⟩
    · obtain ⟨j, hj, hjt⟩ := (hsame.tuples i.tuple).mpr ⟨i, hi, rfl⟩
      rw [← hjt]
      exact h.assigned j hj
    · rw [h.services]
      constructor
      · rintro ⟨i, hi, hm⟩
        obtain ⟨j, hj, hjt⟩ := (hsame.tuples i.tuple).mp ⟨i, hi, rfl⟩
        exact ⟨j, hj, hjt ▸ hm⟩
      · rintro ⟨i, hi, hm⟩
        obtain ⟨j, hj, hjt⟩ := (hsame.tuples i.tuple).mpr ⟨i, hi, rfl⟩
        exact ⟨j, hj, hjt ▸ hm⟩
    · rw [h.dests]
      constructor
      · rintro ⟨i, hi, hm, hd⟩
        obtain ⟨j, hj, hjt, hdj⟩ := (hsame.dests i.tuple d).mp ⟨i, hi, rfl, hd⟩
        exact ⟨j, hj, hjt ▸ hm, hdj⟩
      · rintro ⟨i, hi, hm, hd⟩
        obtain ⟨j, hj, hjt, hdj⟩ := (hsame.dests i.tuple d).mpr ⟨i, hi, rfl, hd⟩
        exact ⟨j, hj, hjt ▸ hm, hdj⟩
    · rw [h.marks, hsame.tuples]

/-- Nothing that an earlier snapshot of the run had programmed is missing in the last one. -/
def NothingWithdrawn (cfg : Config) (passes : List (Bool × Snapshot)) (snapshot : Snapshot) :
    Prop :=
  ∀ pass ∈ passes, ∀ i ∈ dsrWanted cfg pass.2, i.tuple.vip.isIpv6 ∈ cfg.dsrMangle →
    (∃ j ∈ dsrWanted cfg snapshot, j.tuple = i.tuple) ∧
      ∀ d ∈ i.dests, ∃ j ∈ dsrWanted cfg snapshot, j.tuple = i.tuple ∧ d ∈ j.dests

/-- `passes` is any run from an empty kernel, `snapshot` the one of the pass behind it. -/
theorem dsr_exact_iff (cfg : Config) (henabled : cfg.dsrMangle ≠ [])
    (connStats : Nat → Option (UInt32 × UInt32)) (now : Nat → Nat) (sysctl : Nat → Bool)
    (passes : List (Bool × Snapshot)) (full : Bool) (snapshot : Snapshot)
    (hok : FailureFree (.system connStats now sysctl) cfg {} (passes ++ [(full, snapshot)])) :
    DsrExact (dsrWanted cfg snapshot)
        (runPasses (.system connStats now sysctl) cfg (passes ++ [(full, snapshot)]) {}) ↔
      (∀ i ∈ dsrWanted cfg snapshot, i.tuple.vip.isIpv6 ∈ cfg.dsrMangle) ∧
        NothingWithdrawn cfg passes snapshot := by
  have hrun := (run_dsr rfl cfg (passes ++ [(full, snapshot)]) dsrInv_init hok).exact
  rw [List.nil_append, List.flatMap_append, List.flatMap_singleton] at hrun
  rw [hrun.same_iff]
  have hmem : ∀ i, i ∈ (passes.flatMap fun pass => dsrHandled cfg pass.2) ++
      dsrHandled cfg snapshot ↔ (∃ pass ∈ passes, i ∈ dsrWanted cfg pass.2 ∧
        i.tuple.vip.isIpv6 ∈ cfg.dsrMangle) ∨
      i ∈ dsrWanted cfg snapshot ∧ i.tuple.vip.isIpv6 ∈ cfg.dsrMangle := by
    intro i
    simp only [List.mem_append, List.mem_flatMap, mem_dsrHandled henabled]
  constructor
  · intro hsame
    refine ⟨fun i hi => ?_, fun pass hpass i hi hfamily => ?_⟩
    · obtain ⟨j, hj, hjt⟩ := (hsame.tuples i.tuple).mpr ⟨i, hi, rfl⟩
      rw [← hjt]
      obtain ⟨_, _, _, hfamily⟩ | ⟨_, hfamily⟩ := (hmem j).mp hj
      · exact hfamily
      · exact hfamily
    · have hin := (hmem i).mpr (Or.inl ⟨pass, hpass, hi, hfamily⟩)
      exact ⟨(hsame.tuples i.tuple).mp ⟨i, hin, rfl⟩,
        fun d hd => (hsame.dests i.tuple d).mp ⟨i, hin, rfl, hd⟩⟩
  · intro ⟨hfamilies, hkept⟩
    have hlast : ∀ i ∈ dsrWanted cfg snapshot,
        i ∈ (passes.flatMap fun pass => dsrHandled cfg pass.2) ++ dsrHandled cfg snapshot :=
      fun i hi => (hmem i).mpr (Or.inr ⟨hi, hfamilies i hi⟩)
    refine ⟨fun t => ⟨?_, ?_⟩, fun t d => ⟨?_, ?_⟩⟩
    · rintro ⟨i, hi, rfl⟩
      obtain ⟨pass, hpass, hi, hfamily⟩ | ⟨hi, _⟩ := (hmem i).mp hi
      · exact (hkept pass hpass i hi hfamily).1
      · exact ⟨i, hi, rfl⟩
    · rintro ⟨i, hi, rfl⟩
      exact ⟨i, hlast i hi, rfl⟩
    · rintro ⟨i, hi, rfl, hd⟩
      obtain ⟨pass, hpass, hi, hfamily⟩ | ⟨hi, _⟩ := (hmem i).mp hi
      · exact (hkept pass hpass i hi hfamily).2 d hd
      · exact ⟨i, hi, rfl, hd⟩
    · rintro ⟨i, hi, rfl, hd⟩
      exact ⟨i, hlast i hi, rfl, hd⟩

section Sample

def dsrCfg : Config where
  dsrMangle := [false]

/-- `web` as a DSR service with an external address. -/
def webExternal : Snapshot :=
  webSnapshot.map fun item =>
    ({ item.1 with dsr := true, externalIps := [.ofOctets 203 0 113 5] }, item.2)

theorem webExternal_twice_ok :
    FailureFree calm dsrCfg {} ([(true, webExternal)] ++ [(false, webExternal)]) := by
  refine ⟨?_, ?_, trivial⟩
  · decide +kernel
  · decide +kernel

/-- The service is gone in the second pass. -/
theorem webExternal_gone_ok :
    FailureFree calm dsrCfg {} ([(true, webExternal)] ++ [(true, [])]) := by
  refine ⟨?_, ?_, trivial⟩
  · decide +kernel
  · decide +kernel

theorem webExternal_gone_services :
    (runPasses calm dsrCfg ([(true, webExternal)] ++ [(true, [])]) {}).kernel.fwmarkServices ≠
      [] := by
  decide +kernel

end Sample

theorem dsr_exact_twice :
    DsrExact (dsrWanted dsrCfg webExternal)
      (runPasses calm dsrCfg ([(true, webExternal)] ++ [(false, webExternal)]) {}) := by
  refine (dsr_exact_iff dsrCfg (by decide) (fun _ => none) (fun _ => 0) (fun _ => true)
    [(true, webExternal)] false webExternal webExternal_twice_ok).mpr ⟨by decide, ?_⟩
  intro pass hpass i hi _
  rw [List.mem_singleton.mp hpass] at hi
  exact ⟨⟨i, hi, rfl⟩, fun d hd => ⟨i, hi, rfl, hd⟩⟩

theorem dsr_left_behind :
    ¬∀ (cfg : Config) (connStats : Nat → Option (UInt32 × UInt32)) (now : Nat → Nat)
      (sysctl : Nat → Bool) (passes : List (Bool × Snapshot)) (full : Bool) (snapshot : Snapshot),
      cfg.dsrMangle ≠ [] →
      FailureFree (.system connStats now sysctl) cfg {} (passes ++ [(full, snapshot)]) →
      DsrExact (dsrWanted cfg snapshot)
        (runPasses (.system connStats now sysctl) cfg (passes ++ [(full, snapshot)]) {}) := by
  intro h
  have hexact := h dsrCfg (fun _ => none) (fun _ => 0) (fun _ => true) [(true, webExternal)] true []
    (by decide) webExternal_gone_ok
  refine webExternal_gone_services (List.eq_nil_iff_forall_not_mem.mpr fun m hm => ?_)
  obtain ⟨i, hi, _⟩ := (hexact.services m).mp hm
  exact absurd hi List.not_mem_nil

end KubeRouter.Proxy
