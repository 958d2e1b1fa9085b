/-
  One allocation pass (`LbAllocator::reconcile` in `lballoc/src/controller.rs`).

  The pass is followed up to its end, or to the call of `append_ingress` that fails; that call
  counts as made, since the API server may have applied it. `update` answers the calls in order.

  Proved:
  * `planNext_eq`: one step of the pass in the cluster model is the body of this loop.
  * `pass_collisionFree`: from any cursor, and wherever the pass ends, the addresses passed to
    `append_ingress` are distinct, in the pool, unused, and of families their service wants and
    lacks, one for each family.
-/
import KubeRouter.Lballoc.Assignment
import KubeRouter.Lballoc.Cursor

namespace KubeRouter.Lballoc

/-! ## The loop -/

/-- The locals of the loop behind one round, and the addresses to append; no call is made when
there are none. -/
structure Round where
  pools : Pools
  a4 : List IpAddr
  a6 : List IpAddr
  ips : List IpAddr
deriving DecidableEq, Repr

/-- The body of the loop for `svc`, up to the call of `append_ingress`. -/
def round (isDefault : Bool) (svc : LbService) (pools : Pools) (a4 a6 : List IpAddr) : Round :=
  if !shouldAllocate svc isDefault then { pools := pools, a4 := a4, a6 := a6, ips := [] }
  else
    match planAllocation svc pools a4 a6 with
    | (.error _, pools) => { pools := pools, a4 := a4, a6 := a6, ips := [] }
    | (.ok plan, pools) =>
      { pools := pools
        a4 := a4 ++ plan.ips.filter (·.isIpv4)
        a6 := a6 ++ plan.ips.filter (!·.isIpv4)
        ips := plan.ips }

/-- How a pass ended, where it left the cursors, and its calls of `append_ingress`. -/
structure Pass where
  result : Except String Nat
  pools : Pools
  calls : List (ServiceName × List IpAddr)

def passFrom (isDefault : Bool) (update : Nat → Except String Unit) :
    List LbService → Pools → List IpAddr → List IpAddr → Nat → Pass
  | [], pools, _, _, updated => { result := .ok updated, pools := pools, calls := [] }
  | svc :: rest, pools, a4, a6, updated =>
    let r := round isDefault svc pools a4 a6
    if r.ips.isEmpty then passFrom isDefault update rest r.pools r.a4 r.a6 updated
    else
      match update updated with
      | .error e => { result := .error e, pools := r.pools, calls := [(svc.key, r.ips)] }
      | .ok () =>
        let pass := passFrom isDefault update rest r.pools r.a4 r.a6 (updated + 1)
        { pass with calls := (svc.key, r.ips) :: pass.calls }

def reconcile (isDefault : Bool) (update : Nat → Except String Unit) (services : List LbService)
    (pools : Pools) : Pass :=
  let (a4, a6) := allocatedIps services pools.v4 pools.v6
  passFrom isDefault update services pools a4 a6 0

theorem planNext_eq (s : Cluster) (svc : LbService) (rest : List LbService)
    (a4 a6 : List IpAddr) :
    let r := round s.isDefault svc s.pools a4 a6
    s.planNext ⟨svc :: rest, a4, a6, none⟩ svc rest =
      { s with
        pools := r.pools
        pass := some ⟨rest, r.a4, r.a6,
          if r.ips.isEmpty then none else some ⟨svc.key, r.ips, none⟩⟩ } := by
  dsimp only
  unfold Cluster.planNext round
  by_cases hdue : shouldAllocate svc s.isDefault
  · rcases hplan : planAllocation svc s.pools a4 a6 with ⟨_ | plan, pools⟩
    · simp only [hdue]
      rfl
    · by_cases hempty : plan.ips = []
      · simp [hdue, hempty]
      · simp [hdue, hempty]
  · simp only [hdue]
    rfl

/-! ## What it calls -/

/-- The addresses of a family that are taken. -/
def taken (a4 a6 : List IpAddr) : IpFamily → List IpAddr
  | .V4 => a4
  | .V6 => a6

/-- A call of `append_ingress` that suits the service. -/
structure Suits (ranges : List IpNet) (isDefault : Bool) (a4 a6 : List IpAddr) (svc : LbService)
    (ips : List IpAddr) : Prop where
  due : shouldAllocate svc isDefault = true
  planned : ∀ ip ∈ ips, Planned ranges svc (taken a4 a6 ip.family) ip.family ip
  wanted : ∀ ip ∈ ips, svc.wants ip.family = true
  once : (ips.map (·.family)).Nodup

theorem nodup_families {plan : AllocationPlan} (h4 : ∀ ip, plan.v4 = some ip → ip.family = .V4)
    (h6 : ∀ ip, plan.v6 = some ip → ip.family = .V6) : (plan.ips.map (·.family)).Nodup := by
  rcases plan with ⟨_ | x, _ | y⟩
  · exact List.nodup_nil
  · exact List.nodup_singleton _
  · exact List.nodup_singleton _
  · have hx := h4 x rfl
    have hy := h6 y rfl
    simp [AllocationPlan.ips, hx, hy]

theorem searchFamily_needed {needed : Bool} {r : IpRanges} {allocated : List IpAddr} {ip : IpAddr}
    (h : (searchFamily needed r allocated).1 = some ip) : needed = true := by
  unfold searchFamily at h
  split at h
  · next hneeded => exact (Bool.and_eq_true_iff.mp hneeded).1
  · cases h

/-- What a plan for a service holds. -/
theorem plan_suits {ranges : List IpNet} {pools : Pools} (hp : PoolsWF ranges pools)
    {isDefault : Bool} {svc : LbService} (hdue : shouldAllocate svc isDefault = true)
    {a4 a6 : List IpAddr} {plan : AllocationPlan}
    (hplan : (planAllocation svc pools a4 a6).1 = .ok plan) :
    Suits ranges isDefault a4 a6 svc plan.ips := by
  obtain ⟨hs4, hs6⟩ := planAllocation_ok hplan
  obtain ⟨h4, h6⟩ := (planAllocation_spec hp svc a4 a6).2 plan hplan
  refine ⟨hdue, fun ip hip => ?_, fun ip hip => ?_,
    nodup_families (fun ip hip => (h4 ip hip).family) (fun ip hip => (h6 ip hip).family)⟩
  · obtain hip | hip := AllocationPlan.mem_ips.mp hip
    · have hfound := h4 ip hip
      rw [hfound.family]
      exact hfound
    · have hfound := h6 ip hip
      rw [hfound.family]
      exact hfound
  · obtain hip | hip := AllocationPlan.mem_ips.mp hip
    · rw [(h4 ip hip).family]
      exact (LbService.lacks_iff.mp (searchFamily_needed (hs4.symm.trans hip))).1
    · rw [(h6 ip hip).family]
      exact (LbService.lacks_iff.mp (searchFamily_needed (hs6.symm.trans hip))).1

/-- One round: the cursors stay in the pool, and what is appended suits the service and is taken
from then on. -/
theorem round_spec {ranges : List IpNet} {pools : Pools} (hp : PoolsWF ranges pools)
    (isDefault : Bool) (svc : LbService) (a4 a6 : List IpAddr) :
    let r := round isDefault svc pools a4 a6
    PoolsWF ranges r.pools ∧ (r.ips ≠ [] → Suits ranges isDefault a4 a6 svc r.ips) ∧
      ∀ fam ip, ip ∈ taken r.a4 r.a6 fam ↔
        ip ∈ taken a4 a6 fam ∨ ip ∈ r.ips ∧ ip.family = fam := by
  have hspec := planAllocation_spec hp svc a4 a6
  dsimp only
  unfold round
  by_cases hdue : shouldAllocate svc isDefault
  · rcases hplan : planAllocation svc pools a4 a6 with ⟨_ | plan, pools'⟩
    · rw [hplan] at hspec
      simp only [hdue]
      exact ⟨hspec.1, fun h => absurd rfl h, fun fam ip => by simp⟩
    · have hsuits := plan_suits hp hdue (congrArg Prod.fst hplan)
      rw [hplan] at hspec
      simp only [hdue]
      refine ⟨hspec.1, fun _ => hsuits, fun fam ip => ?_⟩
      cases fam with
      | V4 => simp [taken, IpAddr.isIpv4]
      | V6 =>
        have hnot : ip.family ≠ .V4 ↔ ip.family = .V6 := by
          cases ip.family <;> decide
        simp [taken, IpAddr.isIpv4, hnot]
  · simp only [hdue]
    exact ⟨hp, fun h => absurd rfl h, fun fam ip => by simp⟩

/-- The calls of a pass over `services` that starts with the taken addresses `a4` and `a6`. -/
structure Calls (ranges : List IpNet) (isDefault : Bool) (services : List LbService)
    (a4 a6 : List IpAddr) (calls : List (ServiceName × List IpAddr)) : Prop where
  suits : ∀ c ∈ calls, ∃ svc ∈ services, svc.key = c.1 ∧ Suits ranges isDefault a4 a6 svc c.2
  keys : (calls.map (·.1)).Sublist (services.map (·.key))
  distinct : (calls.flatMap (·.2)).Nodup

section Calls

variable {ranges : List IpNet} {isDefault : Bool} {services : List LbService}
  {a4 a6 b4 b6 : List IpAddr} {calls : List (ServiceName × List IpAddr)} {svc : LbService}
  {ips : List IpAddr}

/-- More addresses taken at the start leave fewer to append. -/
theorem Suits.mono (h : Suits ranges isDefault b4 b6 svc ips)
    (hsub : ∀ fam, taken a4 a6 fam ⊆ taken b4 b6 fam) : Suits ranges isDefault a4 a6 svc ips := by
  refine ⟨h.due, fun ip hip => ?_, h.wanted, h.once⟩
  have hp := h.planned ip hip
  exact ⟨hp.pool, hp.family, fun hin => hp.free (hsub _ hin), hp.missing⟩

theorem Suits.nodup (h : Suits ranges isDefault a4 a6 svc ips) : ips.Nodup := h.once.of_map _

theorem calls_nil : Calls ranges isDefault services a4 a6 [] :=
  ⟨fun _ hc => absurd hc List.not_mem_nil, List.nil_sublist _, List.nodup_nil⟩

theorem Calls.skip (h : Calls ranges isDefault services b4 b6 calls)
    (hsub : ∀ fam, taken a4 a6 fam ⊆ taken b4 b6 fam) :
    Calls ranges isDefault (svc :: services) a4 a6 calls := by
  refine ⟨fun c hc => ?_, h.keys.cons _, h.distinct⟩
  obtain ⟨svc', hsvc', hkey, hsuits⟩ := h.suits c hc
  exact ⟨svc', List.mem_cons_of_mem _ hsvc', hkey, hsuits.mono hsub⟩

/-- A call in front, whose addresses are taken for the calls behind it. -/
theorem Calls.cons (h : Calls ranges isDefault services b4 b6 calls)
    (hfirst : Suits ranges isDefault a4 a6 svc ips)
    (htaken : ∀ fam ip, ip ∈ taken b4 b6 fam ↔
      ip ∈ taken a4 a6 fam ∨ ip ∈ ips ∧ ip.family = fam) :
    Calls ranges isDefault (svc :: services) a4 a6 ((svc.key, ips) :: calls) := by
  have hsub : ∀ fam, taken a4 a6 fam ⊆ taken b4 b6 fam :=
    fun fam ip hip => (htaken fam ip).mpr (.inl hip)
  refine ⟨fun c hc => ?_, h.keys.cons_cons _, ?_⟩
  · rcases List.mem_cons.mp hc with rfl | hc
    · exact ⟨svc, List.mem_cons_self, rfl, hfirst⟩
    · exact (h.skip hsub).suits c hc
  · rw [List.flatMap_cons, List.nodup_append]
    refine ⟨hfirst.nodup, h.distinct, fun ip hip x hx heq => ?_⟩
    subst heq
    obtain ⟨c, hc, hx⟩ := List.mem_flatMap.mp hx
    obtain ⟨svc', -, -, hsuits⟩ := h.suits c hc
    exact (hsuits.planned ip hx).free ((htaken _ ip).mpr (.inr ⟨hip, rfl⟩))

end Calls

theorem passFrom_spec {ranges : List IpNet} (isDefault : Bool) (update : Nat → Except String Unit)
    (services : List LbService) (pools : Pools) (a4 a6 : List IpAddr) (updated : Nat)
    (hp : PoolsWF ranges pools) :
    Calls ranges isDefault services a4 a6
      (passFrom isDefault update services pools a4 a6 updated).calls := by
  induction services generalizing pools a4 a6 updated with
  | nil => exact calls_nil
  | cons svc rest ih =>
    obtain ⟨hpools, hsuits, htaken⟩ := round_spec hp isDefault svc a4 a6
    unfold passFrom
    dsimp only
    split
    · exact (ih _ _ _ _ hpools).skip fun fam ip hip => (htaken fam ip).mpr (.inl hip)
    · next hempty =>
      have hfirst := hsuits (by simpa using hempty)
      split
      · -- the pass ends with this call
        exact calls_nil.cons hfirst htaken
      · exact (ih _ _ _ _ hpools).cons hfirst htaken

/-! ## A pass from any cursor -/

/-- Cursors over the configured ranges that calls of `next_free_ip` lead to. -/
structure PoolsReachable (ranges : List IpNet) (pools : Pools) : Prop where
  v4 : IpRanges.Reachable (ranges.filter (·.family == .V4)) pools.v4
  v6 : IpRanges.Reachable (ranges.filter (·.family == .V6)) pools.v6

theorem reachable_inside {ranges : List IpNet} {r : IpRanges} (h : IpRanges.Reachable ranges r) :
    r.ranges = ranges ∧ r.Inside := by
  induction h with
  | new => exact ⟨rfl, IpRanges.new_inside ranges⟩
  | next h allocated ih =>
    have hfound := IpRanges.nextFreeIp_spec ih.2 allocated
    exact ⟨hfound.ranges.trans ih.1, hfound.inside⟩

theorem PoolsReachable.wf {ranges : List IpNet} {pools : Pools} (h : PoolsReachable ranges pools) :
    PoolsWF ranges pools :=
  ⟨(reachable_inside h.v4).1, (reachable_inside h.v6).1, (reachable_inside h.v4).2,
    (reachable_inside h.v6).2⟩

/-- What one pass passes to `append_ingress`. -/
structure CollisionFree (ranges : List IpNet) (isDefault : Bool) (services : List LbService)
    (calls : List (ServiceName × List IpAddr)) : Prop where
  distinct : (calls.flatMap (·.2)).Nodup
  pool : ∀ c ∈ calls, ∀ ip ∈ c.2, ∃ n ∈ ranges, n.family = ip.family ∧ n.contains ip = true
  unused : ∀ c ∈ calls, ∀ ip ∈ c.2, ∀ svc ∈ services, ip ∉ svc.externalIps ∧ ip ∉ svc.ingressIps
  /-- No service gets two addresses of one family. -/
  once : (calls.flatMap fun c => c.2.map fun ip => (c.1, ip.family)).Nodup
  due : ∀ c ∈ calls, ∀ svc ∈ services, svc.key = c.1 → shouldAllocate svc isDefault = true
  missing : ∀ c ∈ calls, ∀ svc ∈ services, svc.key = c.1 → ∀ ip ∈ c.2,
    svc.wants ip.family = true ∧ ∀ x ∈ svc.ingressIps, x.family ≠ ip.family
  known : ∀ c ∈ calls, ∃ svc ∈ services, svc.key = c.1

/-- The addresses of the snapshot that lie in the pool count as taken. -/
theorem mem_taken {ranges : List IpNet} {pools : Pools} (hp : PoolsWF ranges pools)
    {services : List LbService} {svc : LbService} (hsvc : svc ∈ services) {ip : IpAddr}
    (hip : ip ∈ svc.externalIps ++ svc.ingressIps) (hpool : inPool ranges ip = true) :
    ip ∈ taken (allocatedIps services pools.v4 pools.v6).1
      (allocatedIps services pools.v4 pools.v6).2 ip.family := by
  have hmem : ip ∈ services.flatMap fun svc => svc.externalIps ++ svc.ingressIps :=
    List.mem_flatMap.mpr ⟨svc, hsvc, hip⟩
  cases hfam : ip.family with
  | V4 =>
    have hin := (contains_filter_family hp.v4 ip).mpr ⟨hpool, hfam⟩
    exact List.mem_filter.mpr ⟨hmem, by simp [IpAddr.isIpv4, hfam, hin]⟩
  | V6 =>
    have hin := (contains_filter_family hp.v6 ip).mpr ⟨hpool, hfam⟩
    exact List.mem_filter.mpr ⟨hmem, by simp [IpAddr.isIpv6, hfam, hin]⟩

theorem once_of_calls {calls : List (ServiceName × List IpAddr)} (hkeys : (calls.map (·.1)).Nodup)
    (hips : ∀ c ∈ calls, (c.2.map (·.family)).Nodup) :
    (calls.flatMap fun c => c.2.map fun ip => (c.1, ip.family)).Nodup := by
  rw [List.nodup_flatMap]
  constructor
  · intro c hc
    have hpair : (c.2.map fun ip => (c.1, ip.family)) =
        (c.2.map (·.family)).map (Prod.mk c.1) := by
      rw [List.map_map]
      rfl
    rw [hpair]
    exact (hips c hc).map (Prod.mk_right_injective c.1)
  · rw [List.Nodup, List.pairwise_map] at hkeys
    refine hkeys.imp fun {c d} hne x hc hd => ?_
    obtain ⟨_, _, rfl⟩ := List.mem_map.mp hc
    obtain ⟨_, _, heq⟩ := List.mem_map.mp hd
    exact hne (congrArg Prod.fst heq).symm

/-- One allocation pass is free of collisions, whatever the cursors and wherever it ends. -/
theorem pass_collisionFree {ranges : List IpNet} {pools : Pools}
    (hpools : PoolsReachable ranges pools) {services : List LbService}
    (hkeys : (services.map (·.key)).Nodup) (isDefault : Bool)
    (update : Nat → Except String Unit) :
    CollisionFree ranges isDefault services (reconcile isDefault update services pools).calls := by
  have hp := hpools.wf
  have hcalls := passFrom_spec isDefault update services pools
    (allocatedIps services pools.v4 pools.v6).1 (allocatedIps services pools.v4 pools.v6).2 0 hp
  -- the key of a call names one service
  have hsame : ∀ c ∈ (reconcile isDefault update services pools).calls, ∀ svc ∈ services,
      svc.key = c.1 → Suits ranges isDefault (allocatedIps services pools.v4 pools.v6).1
        (allocatedIps services pools.v4 pools.v6).2 svc c.2 := by
    intro c hc svc hsvc hkey
    obtain ⟨svc', hsvc', hkey', hsuits⟩ := hcalls.suits c hc
    rwa [List.inj_on_of_nodup_map hkeys hsvc hsvc' (hkey.trans hkey'.symm)]
  constructor
  · exact hcalls.distinct
  · intro c hc ip hip
    obtain ⟨svc, -, -, hsuits⟩ := hcalls.suits c hc
    obtain ⟨n, hn, hin⟩ := List.any_eq_true.mp (hsuits.planned ip hip).pool
    exact ⟨n, hn, (IpNet.contains_family hin).symm, hin⟩
  · intro c hc ip hip svc hsvc
    obtain ⟨svc', -, -, hsuits⟩ := hcalls.suits c hc
    have hplanned := hsuits.planned ip hip
    refine ⟨fun hin => hplanned.free ?_, fun hin => hplanned.free ?_⟩
    · exact mem_taken hp hsvc (List.mem_append_left _ hin) hplanned.pool
    · exact mem_taken hp hsvc (List.mem_append_right _ hin) hplanned.pool
  · refine once_of_calls (hkeys.sublist hcalls.keys) fun c hc => ?_
    obtain ⟨svc, -, -, hsuits⟩ := hcalls.suits c hc
    exact hsuits.once
  · exact fun c hc svc hsvc hkey => (hsame c hc svc hsvc hkey).due
  · intro c hc svc hsvc hkey ip hip
    have hsuits := hsame c hc svc hsvc hkey
    exact ⟨hsuits.wanted ip hip, (hsuits.planned ip hip).missing⟩
  · intro c hc
    obtain ⟨svc, hsvc, hkey, -⟩ := hcalls.suits c hc
    exact ⟨svc, hsvc, hkey⟩

def lbRanges : List IpNet := [⟨.ofOctets 203 0 113 0, 24, by decide⟩]

/-- The second call fails and ends the pass; a third service would have been next. -/
def secondCallFails : Nat → Except String Unit
  | 1 => .error "status update error: conflict"
  | _ => .ok ()

theorem two_services_collisionFree :
    let r := reconcile true secondCallFails [lbService "a", lbService "b", lbService "c"]
      (Pools.new lbRanges)
    r.calls = [(("default", "a"), [.ofOctets 203 0 113 0]),
        (("default", "b"), [.ofOctets 203 0 113 1])] ∧
      CollisionFree lbRanges true [lbService "a", lbService "b", lbService "c"] r.calls :=
  ⟨by decide, pass_collisionFree ⟨.new, .new⟩ (by decide) true secondCallFails⟩

end KubeRouter.Lballoc
