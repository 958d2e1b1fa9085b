/-
  The service proxy after passes that failed.

  A pass that fails has done a first part of its script and keeps its old record, so kernel and
  record drift apart. The next pass compares what is desired with the record, not with the
  kernel. `Unforgotten` says what has to hold before a pass for its success to mean that the
  kernel is exactly as desired: the kernel holds nothing that is neither desired nor on record,
  and where the pass trusts the record without writing, the record is true. A full resync
  trusts it for VIPs, an event pass for services and destinations too.

  Proved:
  * `recovers_iff`: over all runs with any calls failing, a pass that succeeds leaves exactly
    the desired tables if and only if nothing was forgotten before it.
  * `not_recovered`: a pass that failed behind its first `add_service`, followed by a pass over
    an empty snapshot, leaves the service in the kernel for good.
-/
import KubeRouter.Proxy.Tables

namespace KubeRouter.Proxy

open Program

/-- An environment with the mocks' tables; any call may fail. -/
def Backend.faulty (fails : Nat → Option String) (connStats : Nat → Option (UInt32 × UInt32))
    (now : Nat → Nat) (sysctl : Nat → Bool) : Backend where
  fails := fails
  connStats := connStats
  now := now
  sysctl := sysctl

/-! ## Exactly the desired tables -/

structure Exact (D : Desired) (K : Kernel) : Prop where
  services : ∀ k : String, K.services[k]? = serviceAt D.services k
  dests : ∀ k d, d ∈ K.dests k ↔ d ∈ destsOf D.services k
  addrs : ∀ v n, (dummyIf, v, n) ∈ K.addrs ↔ v ∈ D.wantVips ∧ n = prefixLen v

/-- What a pass over the desired tables `D` relies on. -/
structure Unforgotten (full : Bool) (s : ServiceSync) (D : Desired) (K : Kernel) : Prop where
  /-- A service in the kernel is desired or on record. -/
  service : ∀ k : String, serviceAt D.services k = none → serviceAt s.applied k = none →
    K.services[k]? = none
  /-- A destination in the kernel is desired, or on record, or goes with its service. -/
  dest : ∀ k a p, destAt D.services k a p = none → destAt s.applied k a p = none →
    (serviceAt D.services k = none → serviceAt s.applied k = none) → K.dest k a p = none
  /-- An address on the dummy interface is wanted or on record. -/
  vip : ∀ v, v ∉ D.wantVips → v ∉ s.boundVips → K.hasAddr dummyIf v (prefixLen v) = false
  /-- A wanted VIP that is on record is bound. -/
  vip_true : ∀ v, v ∈ D.wantVips → v ∈ s.boundVips → K.hasAddr dummyIf v (prefixLen v) = true
  /-- For an event pass, a service recorded as desired is in the kernel. -/
  service_true : full = false → ∀ k svc, serviceAt D.services k = some svc →
    serviceAt s.applied k = some svc → K.services[k]? = some svc
  /-- For an event pass, a destination recorded as desired is in the kernel. -/
  dest_true : full = false → ∀ k a p d, destAt D.services k a p = some d →
    destAt s.applied k a p = some d → K.dest k a p = some d

theorem exact_iff_cells {D : Desired} {K : Kernel} (hD : TableWF D.services) (hK : K.Unique) :
    Exact D K ↔ (∀ k : String, K.services[k]? = serviceAt D.services k) ∧
      (∀ k a p, K.dest k a p = destAt D.services k a p) ∧
      ∀ v n, K.hasAddr dummyIf v n = true ↔ v ∈ D.wantVips ∧ n = prefixLen v := by
  have haddr : ∀ v n, K.hasAddr dummyIf v n = true ↔ (dummyIf, v, n) ∈ K.addrs := by
    intro v n
    simp [Kernel.hasAddr]
  constructor
  · intro h
    refine ⟨h.services, fun k a p => ?_, fun v n => (haddr v n).trans (h.addrs v n)⟩
    ext d
    rw [Kernel.dest_eq_some_iff hK, h.dests, hD.destAt_eq]
  · rintro ⟨hsvc, hdest, ha⟩
    refine ⟨hsvc, fun k d => ?_, fun v n => (haddr v n).symm.trans (ha v n)⟩
    have hk := hdest k d.addr d.port
    have h1 : K.dest k d.addr d.port = some d ↔ _ := Kernel.dest_eq_some_iff hK
    have h2 : destAt D.services k d.addr d.port = some d ↔ _ := hD.destAt_eq
    rw [hk] at h1
    simpa using h1.symm.trans h2

/-! ## Runs with failures -/

/-- What survives any pass, failed or not. -/
structure Sane (w : World) : Prop where
  wf : TableWF w.sync.applied
  unique : w.kernel.Unique
  hosts : ∀ v n, w.kernel.hasAddr dummyIf v n = true → n = prefixLen v
  idle : w.sync.gqueue = []

theorem sane_init : Sane {} where
  wf := tableWF_empty
  unique := Kernel.unique_empty
  hosts := fun v n h => by simp [Kernel.hasAddr] at h
  idle := rfl

section Pass

variable {cfg : Config} {full : Bool} {s : ServiceSync} {D : Desired} {K : Kernel}

/-- The script of a pass ends in the desired tables exactly when nothing was forgotten. -/
theorem afterScript_exact (hg : cfg.graceful = false) (hs : TableWF s.applied)
    (hD : TableWF D.services) (hK : K.Unique)
    (hhosts : ∀ v n, K.hasAddr dummyIf v n = true → n = prefixLen v) :
    Exact D (afterScript cfg full s D K) ↔ Unforgotten full s D K := by
  have hunique : (afterScript cfg full s D K).Unique := Kernel.foldl_unique hK _
  have htarget : ∀ k a p, destTarget cfg s D k a p = destAt D.services k a p := by
    intro k a p
    unfold destTarget
    cases destAt D.services k a p <;> simp [hg]
  rw [exact_iff_cells hD hunique]
  constructor
  · rintro ⟨hsvc, hdest, haddr⟩
    refine ⟨?_, ?_, ?_, ?_, ?_, ?_⟩
    · intro k hDk hsk
      have hkept : ServiceKept full s D k := ⟨hsk.trans hDk.symm, Or.inr hDk⟩
      rw [← (script_service hs hD K k).1 hkept, hsvc k, hDk]
    · intro k a p hDd hsd hstay
      have hkept : DestKept full s D k a p := by
        refine ⟨hsd.trans hDd.symm, Or.inr hDd, fun ⟨hDk, hsk⟩ => ?_⟩
        rw [hstay hDk] at hsk
        cases hsk
      rw [← (script_dest hs hD K k a p).1 hkept, hdest k a p, hDd]
    · intro v hw hb
      have hkept : VipKept s D v := ⟨fun h => absurd h hb, fun h => absurd h hw⟩
      rw [← (script_addr K dummyIf v _).1 (Or.inr hkept), Bool.eq_false_iff, Ne, haddr]
      exact fun h => hw h.1
    · intro v hw hb
      have hkept : VipKept s D v := ⟨fun _ => hw, fun _ => hb⟩
      rw [← (script_addr K dummyIf v _).1 (Or.inr hkept), haddr]
      exact ⟨hw, rfl⟩
    · intro hevent k svc hDk hsk
      have hkept : ServiceKept full s D k := ⟨hsk.trans hDk.symm, Or.inl hevent⟩
      rw [← (script_service hs hD K k).1 hkept, hsvc k, hDk]
    · intro hevent k a p d hDd hsd
      have hkept : DestKept full s D k a p := by
        refine ⟨hsd.trans hDd.symm, Or.inl hevent, fun ⟨hDk, _⟩ => ?_⟩
        rw [destAt_of_none (serviceAt_eq_none.mp hDk)] at hDd
        cases hDd
      rw [← (script_dest hs hD K k a p).1 hkept, hdest k a p, hDd]
  · intro h
    refine ⟨?_, ?_, ?_⟩
    · intro k
      by_cases hkept : ServiceKept full s D k
      · rw [(script_service hs hD K k).1 hkept]
        obtain ⟨hsame, hidle⟩ := hkept
        cases hDk : serviceAt D.services k with
        | none => exact h.service k hDk (hsame.trans hDk)
        | some svc =>
          rw [hDk] at hsame hidle
          exact h.service_true (hidle.resolve_right (by simp)) k svc hDk hsame
      · exact (script_service hs hD K k).2 hkept
    · intro k a p
      by_cases hkept : DestKept full s D k a p
      · rw [(script_dest hs hD K k a p).1 hkept]
        obtain ⟨hsame, hidle, hstay⟩ := hkept
        cases hDd : destAt D.services k a p with
        | none =>
          refine h.dest k a p hDd (hsame.trans hDd) fun hDk => ?_
          by_contra hsk
          exact hstay ⟨hDk, Option.isSome_iff_ne_none.mpr hsk⟩
        | some d =>
          rw [hDd] at hsame hidle
          exact h.dest_true (hidle.resolve_right (by simp)) k a p d hDd hsame
      · rw [(script_dest hs hD K k a p).2 hkept, htarget]
    · intro v n
      by_cases hn : n = prefixLen v
      · subst hn
        by_cases hkept : VipKept s D v
        · rw [(script_addr K dummyIf v _).1 (Or.inr hkept)]
          by_cases hw : v ∈ D.wantVips
          · simp [hw, h.vip_true v hw (hkept.mpr hw)]
          · simp [hw, h.vip v hw fun hb => hw (hkept.mp hb)]
        · rw [(script_addr K dummyIf v _).2 ⟨rfl, rfl⟩ hkept]
          simp
      · rw [(script_addr K dummyIf v n).1 (Or.inl fun e => hn e.2)]
        simp only [hn, and_false, iff_false]
        exact fun hv => hn (hhosts v n hv)

/-- A first part of a script leaves distinct backends, host addresses and an empty queue. -/
theorem part_sane (hg : cfg.graceful = false) {b : Backend} (hb : b.exec = Kernel.upsert)
    {w t : World} (hw : Sane w) {done : List Event} (hpre : done <+: script cfg full w.sync D)
    (h : Issued b w t done) :
    t.kernel.Unique ∧ (∀ v n, t.kernel.hasAddr dummyIf v n = true → n = prefixLen v) ∧
      t.sync.gqueue = [] := by
  have hkernel := h.kernel
  rw [hb] at hkernel
  refine ⟨?_, ?_, ?_⟩
  · rw [hkernel]
    exact Kernel.foldl_unique hw.unique _
  · intro v n hv
    by_contra hn
    have hcalls : ∀ c ∈ callsOf done, Kernel.addrWrite dummyIf v n c = none := by
      intro c hc
      have hmem : c ∈ callsOf (script cfg full w.sync D) :=
        mem_callsOf.mpr (hpre.subset (mem_callsOf.mp hc))
      exact addr_untouched (Or.inl fun e => hn e.2) c hmem
    rw [hkernel, read_foldl_untouched (Kernel.writes_addr dummyIf v n) _ _ hcalls] at hv
    exact hn (hw.hosts v n hv)
  · obtain ⟨timed, hmap, hq⟩ := h.gqueue
    have hnone : drainsOf done = [] := by
      have hsub : (drainsOf done).Sublist (drainsOf (script cfg full w.sync D)) :=
        hpre.sublist.filterMap _
      rw [drainsOf_script hg] at hsub
      exact List.sublist_nil.mp hsub
    have hnil : timed = [] := List.map_eq_nil_iff.mp (hmap.trans hnone)
    rw [hq, hnil, hw.idle]
    rfl

/-- The tables a quiet stage finds are the tables it leaves. -/
theorem quiet_exact {b : Backend} (hb : b.exec = Kernel.upsert) (hD : TableWF D.services)
    {w t : World} (hw : w.kernel.Unique) (h : Quiet b w t) :
    Exact D t.kernel ↔ Exact D w.kernel := by
  obtain ⟨hsvc, hdest, haddr, hunique⟩ := quiet_cells hb h
  rw [exact_iff_cells hD hw, exact_iff_cells hD (hunique hw)]
  simp only [hsvc, hdest, haddr]

/-- One pass, whatever fails. -/
theorem pass_recovers (hg : cfg.graceful = false) {b : Backend} (hb : b.exec = Kernel.upsert)
    (full : Bool) (snapshot : Snapshot) {w : World} (hw : Sane w) :
    wp (reconcileInner b cfg full snapshot)
      (fun _ t => Sane t ∧ (Exact (desired cfg snapshot) t.kernel ↔
        Unforgotten full w.sync (desired cfg snapshot) w.kernel))
      (fun _ t => Sane t) w := by
  have hD := desired_wf cfg snapshot
  refine wp_reconcileInner b cfg full snapshot w (fun _ t ht => ?_) (fun t ht => ?_)
  · obtain ⟨done, hpre, hdone⟩ := ht.part
    obtain ⟨hunique, hhosts, hidle⟩ := part_sane hg hb hw hpre hdone
    exact ⟨hdone.applied ▸ hw.wf, hunique, hhosts, hidle⟩
  · obtain ⟨hunique, hhosts, hidle⟩ := part_sane hg hb hw List.prefix_rfl ht
    have hcommit : Sane (commit (desired cfg snapshot) t) := ⟨hD, hunique, hhosts, hidle⟩
    have hK : t.kernel = afterScript cfg full w.sync (desired cfg snapshot) w.kernel := by
      rw [ht.kernel, hb]
      rfl
    -- the later stages leave the record and the tables alone, however they end
    have hsane : ∀ v, Quiet b (commit (desired cfg snapshot) t) v → Sane v := by
      intro v hv
      obtain ⟨_, _, haddr, hkeep⟩ := quiet_cells hb hv
      refine ⟨hv.applied ▸ hcommit.wf, hkeep hunique, fun a n ha => ?_, hv.gqueue.trans hidle⟩
      rw [haddr] at ha
      exact hhosts a n ha
    have hexact : ∀ v, Quiet b (commit (desired cfg snapshot) t) v →
        (Exact (desired cfg snapshot) v.kernel ↔
          Unforgotten full w.sync (desired cfg snapshot) w.kernel) := by
      intro v hv
      rw [quiet_exact hb hD hcommit.unique hv]
      show Exact (desired cfg snapshot) t.kernel ↔ _
      rw [hK]
      exact afterScript_exact hg hw.wf hD hw.unique hw.hosts
    rw [wp_bind]
    refine wp_processGracefulQueue_nil b hcommit.idle ?_
    exact wp_mono (quiet_laterStages b cfg _ _) (fun _ v hv => ⟨hsane v hv, hexact v hv⟩)
      (fun _ v hv => hsane v hv)

/-- Every run keeps the record well formed and the queue empty. -/
theorem run_sane (hg : cfg.graceful = false) {b : Backend} (hb : b.exec = Kernel.upsert)
    (passes : List (Bool × Snapshot)) : Sane (runPasses b cfg passes {}) := by
  unfold runPasses
  refine List.foldlRecOn (motive := Sane) passes _ sane_init ?_
  intro w hw pass _
  have h := pass_recovers hg hb pass.1 pass.2 hw
  exact wp_state (wp_mono h (fun _ _ ht => ht.1) (fun _ _ ht => ht))

end Pass

/-- `passes` is any run, `fails` says which of its calls fail; the pass behind it succeeds. -/
theorem recovers_iff (cfg : Config) (hg : cfg.graceful = false)
    (fails : Nat → Option String) (connStats : Nat → Option (UInt32 × UInt32)) (now : Nat → Nat)
    (sysctl : Nat → Bool) (passes : List (Bool × Snapshot)) (full : Bool) (snapshot : Snapshot)
    (hok : (Prog.exec (reconcileInner (.faulty fails connStats now sysctl) cfg full snapshot)
      (runPasses (.faulty fails connStats now sysctl) cfg passes {})).1 = .ok ()) :
    let w := runPasses (.faulty fails connStats now sysctl) cfg passes {}
    let t := passWorld (.faulty fails connStats now sysctl) cfg w (full, snapshot)
    Exact (desired cfg snapshot) t.kernel ↔
      Unforgotten full w.sync (desired cfg snapshot) w.kernel := by
  intro w t
  have hw : Sane w := run_sane hg rfl passes
  exact (wp_ok (pass_recovers hg rfl full snapshot hw) hok).2

/-! ## A service left behind -/

section Sample

def web : ServiceInfo where
  ns := "default"
  name := "web"
  protocol := .Tcp
  port := 80
  nodePort := none
  clusterIps := [.ofOctets 10 96 0 10]
  externalIps := []
  loadBalancerIps := []
  scheduler := .Rr
  schedFlags := {}
  sessionAffinity := false
  affinityTimeout := 0
  dsr := false
  internalTrafficLocal := false
  externalTrafficLocal := false

def webSnapshot : Snapshot :=
  [(web, [{ ip := .ofOctets 10 1 0 5, port := 8080, isLocal := true, ready := true }])]

/-- The third call fails: `add_destination` of the first pass over `webSnapshot`. -/
def thirdFails : Backend :=
  .faulty (fun n => if n = 2 then some "timeout" else none) (fun _ => none) (fun n => n)
    (fun _ => true)

/-- The state the failed pass leaves. -/
def webHalf : World := runPasses thirdFails {} [(true, webSnapshot)] {}

theorem webHalf_second_ok :
    (Prog.exec (reconcileInner thirdFails {} true []) webHalf).1 = .ok () := by
  rfl

/-- The full resync over the empty snapshot leaves the service in the kernel. -/
theorem webHalf_leftover :
    ¬Exact (desired {} []) (passWorld thirdFails {} webHalf (true, [])).kernel := by
  intro h
  have hnone := h.services "(10.96.0.10, Tcp, 80)"
  revert hnone
  decide +kernel

theorem webHalf_again_ok :
    (Prog.exec (reconcileInner thirdFails {} true webSnapshot) webHalf).1 = .ok () := by
  rfl

/-- The service that was added before the failure is desired still. -/
theorem webHalf_unforgotten :
    Unforgotten true webHalf.sync (desired {} webSnapshot) webHalf.kernel where
  service := by
    intro k hdesired _
    have hkernel : webHalf.kernel.services =
        Std.TreeMap.empty.insert "(10.96.0.10, Tcp, 80)"
          (ipvsService web (.ofOctets 10 96 0 10) 80) := rfl
    have hsome : serviceAt (desired {} webSnapshot).services "(10.96.0.10, Tcp, 80)" ≠ none := by
      decide +kernel
    have hne : ¬"(10.96.0.10, Tcp, 80)" = k := fun heq => hsome (heq ▸ hdesired)
    rw [hkernel, Std.TreeMap.getElem?_insert, if_neg (by simpa using hne)]
    exact Std.TreeMap.getElem?_emptyc
  dest := fun k a p _ _ _ => rfl
  vip := fun v _ _ => rfl
  vip_true := by
    intro v _ hv
    exact absurd hv (by simp [show webHalf.sync.boundVips = ∅ from rfl])
  service_true := fun h => absurd h (by decide)
  dest_true := fun h => absurd h (by decide)

end Sample

/-- The failed pass recorded nothing. A full resync over the same snapshot makes up for it; for one
over the empty snapshot the service that was added is forgotten. -/
theorem webHalf_recovers :
    Exact (desired {} webSnapshot) (passWorld thirdFails {} webHalf (true, webSnapshot)).kernel ∧
      ¬Unforgotten true webHalf.sync (desired {} []) webHalf.kernel := by
  have hagain := recovers_iff {} rfl (fun n => if n = 2 then some "timeout" else none)
    (fun _ => none) (fun n => n) (fun _ => true) [(true, webSnapshot)] true webSnapshot
    webHalf_again_ok
  have hempty := recovers_iff {} rfl (fun n => if n = 2 then some "timeout" else none)
    (fun _ => none) (fun n => n) (fun _ => true) [(true, webSnapshot)] true [] webHalf_second_ok
  exact ⟨hagain.mpr webHalf_unforgotten, fun h => webHalf_leftover (hempty.mpr h)⟩

theorem not_recovered :
    ¬∀ (cfg : Config) (fails : Nat → Option String)
      (connStats : Nat → Option (UInt32 × UInt32)) (now : Nat → Nat) (sysctl : Nat → Bool)
      (passes : List (Bool × Snapshot)) (full : Bool) (snapshot : Snapshot),
      cfg.graceful = false → cfg.dsrMangle = [] →
      let b := Backend.faulty fails connStats now sysctl
      let w := runPasses b cfg passes {}
      (Prog.exec (reconcileInner b cfg full snapshot) w).1 = .ok () →
      Exact (desired cfg snapshot) (passWorld b cfg w (full, snapshot)).kernel := by
  intro h
  exact webHalf_leftover (h {} (fun n => if n = 2 then some "timeout" else none) (fun _ => none)
    (fun n => n) (fun _ => true) [(true, webSnapshot)] true [] rfl rfl webHalf_second_ok)

end KubeRouter.Proxy
