/-
  Where the kernel of a node sends new connections, behind the passes of the proxy.

  `Sends` reads the desired table by address. No call fails here. A packet reaches IPVS when its
  address is on the dummy interface or is the node's own.

  Proved:
  * `run_weighted`: without graceful termination every destination on record has weight 1 in the
    kernel, in every run.
  * `desired_homed`, `run_bound`: every virtual service stands on an address of the node.
  * `sends_of_forwards`, `holds_of_sends`: behind every run, the kernel forwards to what the last
    snapshot sends to, and holds all of it.
-/
import KubeRouter.Proxy.Claims
import KubeRouter.Proxy.Resync

namespace KubeRouter.Proxy

open Program

/-! ## The kernel of a node -/

section Kernel

/-- The virtual service is in the kernel with the destination `d` at `(a, p)`. -/
def Kernel.Holds (K : Kernel) (v : IpAddr) (proto : Protocol) (port : UInt16) (a : IpAddr)
    (p : UInt16) (d : IpvsDestination) : Prop :=
  ∃ svc : IpvsService, K.services[svcKey svc]? = some svc ∧ svc.key = (v, proto, port) ∧
    K.dest (svcKey svc) a p = some d

/-- New connections to the virtual service may go to the backend `(a, p)`. -/
def Kernel.Forwards (K : Kernel) (v : IpAddr) (proto : Protocol) (port : UInt16) (a : IpAddr)
    (p : UInt16) : Prop :=
  ∃ d, K.Holds v proto port a p d ∧ d.weight ≠ 0

/-- The address is the node's own or is bound to the dummy interface. -/
def Kernel.Accepts (cfg : Config) (K : Kernel) (v : IpAddr) : Prop :=
  (dummyIf, v, prefixLen v) ∈ K.addrs ∨ v ∈ cfg.nodeIps

end Kernel

/-! ## Weights without graceful termination -/

section Weights

variable {cfg : Config} (hg : cfg.graceful = false) (connStats : Nat → Option (UInt32 × UInt32))
  (now : Nat → Nat) (sysctl : Nat → Bool)

include hg

/-- Nothing is drained, so nothing that is desired stands at weight 0 before a pass. -/
theorem undrained_of_weighted {w : World} (hw : Tracked cfg w)
    (hweight : Weighted w.sync.applied w.kernel) (m : ServiceTable) : Undrained m w.kernel := by
  intro k d _ e he hzero
  cases ho : destAt w.sync.applied k d.addr d.port with
  | none =>
    have hdrained := hw.drained k _ _ e ho he
    rw [hg] at hdrained
    cases hdrained.1
  | some o =>
    obtain ⟨hin, haddr, hport⟩ := hw.wf.destAt_eq.mp ho
    obtain ⟨e', he', hone⟩ := hweight k o hin
    rw [haddr, hport, he] at he'
    cases he'
    rw [hzero] at hone
    cases hone

theorem run_weighted (passes : List (Bool × Snapshot)) :
    let w := runPasses (.system connStats now sysctl) cfg passes {}
    Weighted w.sync.applied w.kernel := by
  intro w
  induction passes using List.reverseRecOn with
  | nil =>
    intro k d hd
    exact absurd hd (by simp [w, runPasses, destsOf])
  | append_singleton passes pass ih =>
    have hw := run_tracked cfg connStats now sysctl passes
    have hpass := passWorld_tracked cfg connStats now sysctl pass hw
    have hiff := pass_weighted_iff hw ih hpass
    show Weighted w.sync.applied w.kernel
    rw [show w = passWorld _ cfg _ pass from runPasses_concat _ _ _ _ _, hpass.applied]
    exact hiff.mpr (undrained_of_weighted hg hw ih _)

end Weights

/-! ## Addresses -/

theorem Kernel.system_addrs (K : Kernel) (c : Call) : (K.system c).addrs = (K.upsert c).addrs := by
  have hkeep : (K.upsert c).addrs = K.addrs → (K.system c).addrs = (K.upsert c).addrs := by
    intro h
    obtain heq | heq := Kernel.system_eq K c
    · rw [heq, h]
    · rw [heq]
  cases c with
  | addrAdd link a n => rfl
  | addrDel link a n => rfl
  | delDestination svc dst => rfl
  | mangleAppend ipv6 chain args => rfl
  | _ => exact hkeep rfl

theorem Kernel.system_writes_addr (link : String) (a : IpAddr) (n : Nat) :
    Writes Kernel.system (fun K => K.hasAddr link a n) (Kernel.addrWrite link a n) := by
  intro K c
  have hupsert := Kernel.writes_addr link a n K c
  simp only [Kernel.hasAddr] at hupsert ⊢
  rw [Kernel.system_addrs, hupsert]

/-- The record says which addresses are bound. -/
def Bound (w : World) : Prop :=
  ∀ v n, w.kernel.hasAddr dummyIf v n = true ↔ v ∈ w.sync.boundVips ∧ n = prefixLen v

section Addresses

variable {cfg : Config} {b : Backend} (hb : b.exec = Kernel.system)

include hb

theorem script_bound {full : Bool} {D : Desired} {w t : World} (hw : Bound w)
    (h : Issued b w t (script cfg full w.sync D)) : Bound (commit D t) := by
  intro v n
  show t.kernel.hasAddr dummyIf v n = true ↔ v ∈ D.wantVips ∧ n = prefixLen v
  rw [h.kernel, hb]
  by_cases hn : n = prefixLen v
  · subst hn
    by_cases hv : VipKept w.sync D v
    · rw [read_foldl_untouched (Kernel.system_writes_addr dummyIf v _) _ w.kernel
        (addr_untouched (Or.inr hv)), hw v]
      simp only [and_true]
      exact hv
    · rw [read_foldl_agree (Kernel.system_writes_addr dummyIf v _) _ w.kernel (addr_agrees v)
        (Or.inr (addr_written hv))]
      simp
  · rw [read_foldl_untouched (Kernel.system_writes_addr dummyIf v n) _ w.kernel
      (addr_untouched (Or.inl fun e => hn e.2)), hw v n]
    simp [hn]

/-- Calls that write no address leave the bindings alone. -/
theorem Bound.frame {w t : World} (hw : Bound w) {cs : List Call}
    (hcs : ∀ c ∈ cs, ∀ v n, Kernel.addrWrite dummyIf v n c = none)
    (hkernel : t.kernel = cs.foldl b.exec w.kernel)
    (hvips : t.sync.boundVips = w.sync.boundVips) : Bound t := by
  intro v n
  rw [hkernel, hb, hvips, ← hw v n, read_foldl_untouched (Kernel.system_writes_addr dummyIf v n) cs
    w.kernel fun c hc => hcs c hc v n]

end Addresses

section Run

variable (cfg : Config) (connStats : Nat → Option (UInt32 × UInt32)) (now : Nat → Nat)
  (sysctl : Nat → Bool)

theorem passWorld_bound (pass : Bool × Snapshot) {w : World} (hw : Bound w) :
    let t := passWorld (.system connStats now sysctl) cfg w pass
    Bound t ∧ t.sync.boundVips = (desired cfg pass.2).wantVips := by
  have hnever : ¬∃ n msg, (Backend.system connStats now sysctl).fails n = some msg := by
    intro ⟨n, msg, h⟩
    cases h
  refine wp_state (P := fun t => Bound t ∧ t.sync.boundVips = (desired cfg pass.2).wantVips)
    (wp_reconcileInner _ cfg pass.1 pass.2 w (fun _ t ht => absurd ht.fails hnever) fun t ht => ?_)
  have hscript : Bound (commit (desired cfg pass.2) t) := script_bound rfl hw ht
  rw [wp_bind]
  refine wp_mono (wp_processGracefulQueue _ _) (fun _ u hu => ?_) (fun _ _ he => absurd he hnever)
  obtain ⟨cs, hswept⟩ := hu
  have hu : Bound u := hscript.frame rfl
    (fun c hc v n => hswept.addrWrite (desired_wf cfg pass.2) dummyIf v n c hc) hswept.kernel
    hswept.boundVips
  have hdone : ∀ v, Quiet (.system connStats now sysctl) u v →
      Bound v ∧ v.sync.boundVips = (desired cfg pass.2).wantVips := by
    intro v hv
    obtain ⟨ds, hinert, _, hkernel⟩ := hv.calls
    exact ⟨hu.frame rfl (fun c hc a n => (Kernel.inert_writes (hinert c hc) "" a 0 dummyIf n).2.2)
      hkernel hv.boundVips, hv.boundVips.trans hswept.boundVips⟩
  exact wp_mono (quiet_laterStages _ cfg _ u) (fun _ v hv => hdone v hv) (fun _ v hv => hdone v hv)

theorem run_bound (passes : List (Bool × Snapshot)) :
    Bound (runPasses (.system connStats now sysctl) cfg passes {}) := by
  unfold runPasses
  refine List.foldlRecOn (motive := Bound) passes _ (fun v n => by simp [Kernel.hasAddr]) ?_
  intro w hw pass _
  exact (passWorld_bound cfg connStats now sysctl pass hw).1

end Run

/-- Every virtual service stands on an address that will be bound or on one of the node. -/
def Homed (cfg : Config) (D : Desired) : Prop :=
  ∀ (k : String) (e : Entry), D.services[k]? = some e →
    e.1.addr ∈ D.wantVips ∨ e.1.addr ∈ cfg.nodeIps

section Homed

variable {cfg : Config} {D D' : Desired} (svc : ServiceInfo) (eps : List EndpointInfo)

theorem Homed.insert (h : Homed cfg D) {k : String} {e : Entry}
    (hservices : D'.services = D.services.insert k e)
    (hvips : ∀ v, v ∈ D.wantVips → v ∈ D'.wantVips)
    (he : e.1.addr ∈ D'.wantVips ∨ e.1.addr ∈ cfg.nodeIps) : Homed cfg D' := by
  intro k' e' h'
  rw [hservices, Std.TreeMap.getElem?_insert] at h'
  split at h'
  · cases h'
    exact he
  · exact (h k' e' h').imp_left (hvips _)

theorem addVip_homed (h : Homed cfg D) (vip : IpAddr) (localOnly : Bool) :
    Homed cfg (Desired.addVip svc eps D vip localOnly) := by
  refine h.insert rfl (fun v hv => ?_) (Or.inl ?_)
  · exact Std.TreeSet.mem_insert.mpr (Or.inr hv)
  · exact Std.TreeSet.mem_insert_self

theorem addExternal_homed (allowed : List IpNet) (acc : Desired × List IpAddr) (vip : IpAddr)
    (h : Homed cfg acc.1) : Homed cfg (Desired.addExternal cfg svc eps allowed acc vip).1 := by
  unfold Desired.addExternal
  split
  · split
    · exact h
    · exact addVip_homed svc eps h vip _
  · exact h

theorem addNodePort_homed (h : Homed cfg D) :
    Homed cfg (Desired.addNodePort cfg svc eps D) := by
  unfold Desired.addNodePort
  split
  · exact h
  · split
    · exact h
    · dsimp only
      split
      · exact h
      · refine List.foldlRecOn (motive := Homed cfg) cfg.nodeIps _ h ?_
        intro D hD nip hnip
        exact hD.insert rfl (fun _ hv => hv) (Or.inr hnip)

theorem add_homed (h : Homed cfg D) (item : ServiceInfo × List EndpointInfo) :
    Homed cfg (Desired.add cfg D item) := by
  obtain ⟨svc, eps⟩ := item
  unfold Desired.add
  apply addNodePort_homed
  have hcluster : Homed cfg (svc.clusterIps.foldl
      (fun D vip => Desired.addVip svc eps D vip svc.internalTrafficLocal)
      { D with wantSloppyTcp := D.wantSloppyTcp || serviceWantsSloppyTcp svc }) := by
    refine List.foldlRecOn (motive := Homed cfg) svc.clusterIps _ h ?_
    intro D hD vip _
    exact addVip_homed svc eps hD vip _
  have hexternal : ∀ allowed (vips : List IpAddr) (acc : Desired × List IpAddr),
      Homed cfg acc.1 →
      Homed cfg (vips.foldl (Desired.addExternal cfg svc eps allowed) acc).1 := by
    intro allowed vips acc hacc
    refine List.foldlRecOn (motive := fun acc : Desired × List IpAddr => Homed cfg acc.1) vips _
      hacc ?_
    intro acc hacc vip _
    exact addExternal_homed svc eps allowed acc vip hacc
  have hlb := hexternal cfg.ranges.loadbalancer svc.loadBalancerIps _
    (hexternal cfg.ranges.external svc.externalIps (_, []) hcluster)
  split
  · exact hlb
  · exact hlb

theorem desired_homed (cfg : Config) (snapshot : Snapshot) :
    Homed cfg (desired cfg snapshot) := by
  unfold desired
  refine List.foldlRecOn (motive := Homed cfg) snapshot _ (fun k e h => by simp at h) ?_
  intro D hD item _
  exact add_homed hD item

end Homed

/-! ## The kernel after a run -/

section Behind

variable {cfg : Config} {connStats : Nat → Option (UInt32 × UInt32)} {now : Nat → Nat}
  {sysctl : Nat → Bool} {passes : List (Bool × Snapshot)} {full : Bool} {snapshot : Snapshot}

/-- The last claim on the virtual service sends it to `(a, p)`. -/
def Sends (cfg : Config) (snapshot : Snapshot) (v : IpAddr) (proto : Protocol) (port : UInt16)
    (a : IpAddr) (p : UInt16) : Prop :=
  ∃ c, IsLast (snapshot.flatMap (ipvsClaims cfg)) c ∧ c.key = (v, proto, port) ∧
    ∃ d ∈ dests c.svc c.eps c.localOnly, d.addr = a ∧ d.port = p

variable {v : IpAddr} {proto : Protocol} {port : UInt16} {a : IpAddr} {p : UInt16}

/-- The desired table, read by address. -/
theorem sends_iff : Sends cfg snapshot v proto port a p ↔
    ∃ svc, serviceAt (desired cfg snapshot).services (svcKey svc) = some svc ∧
      svc.key = (v, proto, port) ∧
      (destAt (desired cfg snapshot).services (svcKey svc) a p).isSome := by
  have hD := desired_wf cfg snapshot
  constructor
  · rintro ⟨c, hlast, hkey, d, hd, rfl, rfl⟩
    have he := services_iff.mpr ⟨c, hlast, rfl, rfl⟩
    refine ⟨c.service, serviceAt_eq_some he, hkey, ?_⟩
    rw [hD.destAt_eq.mpr ⟨(destsOf_eq he).symm ▸ hd, rfl, rfl⟩]
    rfl
  · rintro ⟨svc, hsvc, hkey, hsome⟩
    obtain ⟨d, hd⟩ := Option.isSome_iff_exists.mp hsome
    obtain ⟨hin, haddr, hport⟩ := hD.destAt_eq.mp hd
    obtain ⟨e, he, rfl⟩ := Option.map_eq_some_iff.mp hsvc
    obtain ⟨c, hlast, -, rfl⟩ := services_iff.mp he
    rw [destsOf_eq he] at hin
    exact ⟨c, hlast, hkey, d, hin, haddr, hport⟩

section Last

variable (cfg connStats now sysctl passes full snapshot)

/-- What ties the kernel to the snapshot of the last pass. -/
theorem run_last :
    let w := runPasses (.system connStats now sysctl) cfg (passes ++ [(full, snapshot)]) {}
    w.sync.applied = (desired cfg snapshot).services ∧
      w.sync.boundVips = (desired cfg snapshot).wantVips := by
  intro w
  have hw := run_tracked cfg connStats now sysctl passes
  have hb := run_bound cfg connStats now sysctl passes
  have hlast : w = passWorld _ cfg _ (full, snapshot) := runPasses_concat _ _ _ _ _
  rw [hlast]
  exact ⟨(passWorld_tracked cfg connStats now sysctl (full, snapshot) hw).applied,
    (passWorld_bound cfg connStats now sysctl (full, snapshot) hb).2⟩

end Last

/-- Only what the last snapshot sends is forwarded. -/
theorem sends_of_forwards
    (h : (runPasses (.system connStats now sysctl) cfg
      (passes ++ [(full, snapshot)]) {}).kernel.Forwards v proto port a p) :
    Sends cfg snapshot v proto port a p := by
  obtain ⟨happ, -⟩ := run_last cfg connStats now sysctl passes full snapshot
  have hw := run_tracked cfg connStats now sysctl (passes ++ [(full, snapshot)])
  obtain ⟨d, ⟨svc, hsvc, hkey, hd⟩, hweight⟩ := h
  rw [hw.services, happ] at hsvc
  refine sends_iff.mpr ⟨svc, hsvc, hkey, ?_⟩
  cases hat : destAt (desired cfg snapshot).services (svcKey svc) a p with
  | some o => rfl
  | none =>
    -- off the record only drained destinations are left
    rw [← happ] at hat
    exact absurd (hw.drained _ a p d hat hd).2 hweight

/-- Whatever the last snapshot sends is there, on an address of the node. -/
theorem holds_of_sends (h : Sends cfg snapshot v proto port a p) :
    let K := (runPasses (.system connStats now sysctl) cfg (passes ++ [(full, snapshot)]) {}).kernel
    K.Accepts cfg v ∧
      ∃ d, K.Holds v proto port a p d ∧ (cfg.graceful = false → d.weight ≠ 0) := by
  intro K
  obtain ⟨happ, hvips⟩ := run_last cfg connStats now sysctl passes full snapshot
  have hw := run_tracked cfg connStats now sysctl (passes ++ [(full, snapshot)])
  have hb := run_bound cfg connStats now sysctl (passes ++ [(full, snapshot)])
  obtain ⟨svc, hsvc, hkey, hsome⟩ := sends_iff.mp h
  constructor
  · obtain ⟨e, he, rfl⟩ := Option.map_eq_some_iff.mp hsvc
    obtain rfl : e.1.addr = v := congrArg Prod.fst hkey
    refine (desired_homed cfg snapshot _ e he).imp_left fun hv => ?_
    have hbound := (hb e.1.addr (prefixLen e.1.addr)).mpr ⟨hvips ▸ hv, rfl⟩
    simpa [Kernel.hasAddr] using hbound
  · rw [← happ] at hsvc hsome
    obtain ⟨d, hd⟩ := Option.isSome_iff_exists.mp (hw.present _ a p hsome)
    refine ⟨d, ⟨svc, (hw.services _).trans hsvc, hkey, hd⟩, fun hg => ?_⟩
    obtain ⟨o, ho⟩ := Option.isSome_iff_exists.mp hsome
    obtain ⟨hin, rfl, rfl⟩ := hw.wf.destAt_eq.mp ho
    obtain ⟨e, he, hone⟩ := run_weighted hg connStats now sysctl _ _ o hin
    rw [hd] at he
    cases he
    rw [hone]
    decide

end Behind

end KubeRouter.Proxy
