/-
  Services that require both families (`plan_allocation` in `lballoc/src/allocate.rs`).

  The last check of `plan_allocation` asks for an address of each family in the plan, while
  `needs_ingress` and the searches count the families the service already has. A service that
  holds one of the two is therefore refused whatever is free.

  Proved:
  * `meets_iff`: a search finds an address exactly when the cursor meets a free one before it
    comes back.
  * `completes_iff`: when planning completes a service that requires both families.
  * `held_family_refused`: a service with an IPv4 address is refused a free IPv6 one.
-/
import KubeRouter.Lballoc.Reconcile

namespace KubeRouter.Lballoc

/-! ## What the cursor meets -/

namespace IpRanges

/-- The ranges, from the one the cursor is in. -/
def order (r : IpRanges) : List IpNet := r.ranges.rotate r.rangeIndex

/-- The cursor's offset in its range. -/
def place (r : IpRanges) : Nat :=
  match r.currentIp, r.ranges[r.rangeIndex]? with
  | some ip, some n => ip.value - n.network.value
  | _, _ => 0

/-- A free address lies ahead of the cursor, before its own comes again. -/
def Meets (r : IpRanges) (allocated : List IpAddr) : Prop :=
  ∃ q ip, Lap.Ahead (addressAt r.order) r.place q ∧ addressAt r.order q = some ip ∧ ip ∉ allocated

theorem Stands.place_eq {r : IpRanges} {n : IpNet} {rest : List IpNet} {o : Nat}
    (h : Stands r n rest o) : r.place = o := by
  unfold place
  rw [h.current, h.range]
  dsimp only
  rw [n.nth_value_of_lt h.offset, Nat.add_sub_cancel_left]

theorem Stands.iterate {r : IpRanges} {n : IpNet} {rest : List IpNet} {o : Nat}
    (h : Stands r n rest o) (k : Nat) : ∃ n' rest' o', Stands (inc^[k] r) n' rest' o' := by
  induction k generalizing r n rest o with
  | zero => exact ⟨n, rest, o, h⟩
  | succ k ih =>
    obtain ⟨n', rest', o', hstep, -⟩ := h.step
    exact ih hstep

theorem reachable_course {ranges : List IpNet} {fam : IpFamily}
    (hfam : ∀ n ∈ ranges, n.family = fam) (hne : ranges ≠ []) {r : IpRanges}
    (hr : Reachable ranges r) : Course r (addressAt r.order) r.place := by
  obtain ⟨p, -, rfl⟩ := (reachable_iff hfam hne r).mp hr
  obtain ⟨n, rest, rfl⟩ := List.exists_cons_of_ne_nil hne
  obtain ⟨n', rest', o', hstands⟩ := (new_stands n rest).iterate p
  have hranges : (inc^[p] (new (n :: rest))).ranges = n :: rest := iterate_inc_ranges _ p
  refine course_of_walks (List.rotate_perm _ _) ?_ (hranges ▸ hfam) ?_
  · rw [order, hstands.order]
    exact List.cons_ne_nil _ _
  · intro k
    rw [order, hstands.order, hstands.place_eq, hstands.walk]

theorem meets_iff {ranges : List IpNet} {fam : IpFamily} (hfam : ∀ n ∈ ranges, n.family = fam)
    {r : IpRanges} (hr : Reachable ranges r) (allocated : List IpAddr) :
    (∃ ip, (r.nextFreeIp allocated).1 = some ip) ↔ r.Meets allocated := by
  by_cases hne : ranges = []
  · subst hne
    obtain rfl := reachable_empty hr
    constructor
    · rintro ⟨ip, hip⟩
      cases hip
    · rintro ⟨q, ip, -, hip, -⟩
      simp [order, new, addressAt] at hip
  · have hcourse := reachable_course hfam hne hr
    rw [hcourse.found_iff allocated]
    constructor
    · rintro ⟨q, hq, hfree⟩
      obtain ⟨ip, hip⟩ := hcourse.isSome q
      exact ⟨q, ip, hq, hip, fun hin => hfree (hip ▸ mem_map_some.mpr hin)⟩
    · rintro ⟨q, ip, hq, hip, hfree⟩
      exact ⟨q, hq, fun hin => hfree (mem_map_some.mp (hip ▸ hin))⟩

end IpRanges

/-! ## Planning for both families -/

/-- A free address of the pool. -/
def IpRanges.HasFree (r : IpRanges) (allocated : List IpAddr) : Prop :=
  ∃ ip, r.contains ip = true ∧ ip ∉ allocated

def Pools.get (pools : Pools) : IpFamily → IpRanges
  | .V4 => pools.v4
  | .V6 => pools.v6

/-- The existing ingress and the plan cover both families. -/
def Covers (svc : LbService) (plan : AllocationPlan) : Prop :=
  ∀ fam, (∃ x ∈ svc.ingressIps, x.family = fam) ∨ ∃ ip ∈ plan.ips, ip.family = fam

/-- Where every family the service lacks has a free address, planning covers both families; and
a plan that adds something covers both. -/
structure Completes (svc : LbService) (pools : Pools) (a4 a6 : List IpAddr) : Prop where
  planned : (∀ fam, svc.lacks fam = true → (pools.get fam).HasFree (taken a4 a6 fam)) →
    ∃ plan, (planAllocation svc pools a4 a6).1 = .ok plan ∧ Covers svc plan
  whole : ∀ plan, (planAllocation svc pools a4 a6).1 = .ok plan → plan.isEmpty = false →
    Covers svc plan

/-- When it does: the service has both families and both are configured, or it has neither and
the cursors meet a free address of each where there is one, or it has one and the pool of the
other has no free address. -/
def CanComplete (svc : LbService) (pools : Pools) (a4 a6 : List IpAddr) : Prop :=
  match svc.lacks .V4, svc.lacks .V6 with
  | false, false => pools.v4.isEmpty = false ∧ pools.v6.isEmpty = false
  | true, false => ¬pools.v4.HasFree a4
  | false, true => ¬pools.v6.HasFree a6
  | true, true =>
    pools.v4.HasFree a4 → pools.v6.HasFree a6 → pools.v4.Meets a4 ∧ pools.v6.Meets a6

theorem canAllocate_dual {svc : LbService} (hdual : svc.requireDual = true) (h4 : svc.wantV4 = true)
    (h6 : svc.wantV6 = true) (pools : Pools) :
    canAllocate svc pools = .ok () ↔ pools.v4.isEmpty = false ∧ pools.v6.isEmpty = false := by
  unfold canAllocate
  cases pools.v4.isEmpty <;> cases pools.v6.isEmpty <;> simp [hdual, h4, h6]

theorem searchFamily_configured {r : IpRanges} (h : r.isEmpty = false) (needed : Bool)
    (allocated : List IpAddr) :
    (searchFamily needed r allocated).1 =
        (if needed then (r.nextFreeIp allocated).1 else none) ∧
      (searchFamily needed r allocated).2.1 =
        (if needed && (r.nextFreeIp allocated).1.isNone then some .Exhausted else none) := by
  unfold searchFamily
  cases needed with
  | false => exact ⟨rfl, rfl⟩
  | true =>
    simp only [h, Bool.not_false, Bool.and_self, if_true]
    split
    · next ip r' heq => simp [heq]
    · next r' heq => simp [heq]

/-- Behind the gate, the result of the two searches. -/
theorem planAllocation_result {svc : LbService} {pools : Pools}
    (hcan : canAllocate svc pools = .ok ()) (a4 a6 : List IpAddr) :
    (planAllocation svc pools a4 a6).1 =
      let s4 := searchFamily (svc.lacks .V4) pools.v4 a4
      let s6 := searchFamily (svc.lacks .V6) pools.v6 a6
      let plan : AllocationPlan := { v4 := s4.1, v6 := s6.1 }
      if plan.isEmpty && s4.2.1.isNone && s6.2.1.isNone then .ok plan
      else if plan.isEmpty then .error ((s4.2.1.or s6.2.1).getD .Exhausted)
      else if svc.requireDual && (plan.v4.isNone || plan.v6.isNone) then
        .error .DualStackUnavailable
      else .ok plan := by
  unfold planAllocation
  rw [hcan]
  dsimp only [LbService.lacks]
  split
  · rfl
  · split
    · rfl
    · split <;> rfl

theorem planAllocation_gate {svc : LbService} {pools : Pools} {a4 a6 : List IpAddr}
    {plan : AllocationPlan} (h : (planAllocation svc pools a4 a6).1 = .ok plan) :
    canAllocate svc pools = .ok () := by
  unfold planAllocation at h
  split at h
  · cases h
  · next hok => exact hok

/-- A service that requires both families gets a plan only if it lacks neither or if an address
of each is found. -/
theorem planAllocation_dual {svc : LbService} (hdual : svc.requireDual = true)
    (h4 : svc.wantV4 = true) (h6 : svc.wantV6 = true) {pools : Pools} {a4 a6 : List IpAddr}
    {plan : AllocationPlan} :
    (planAllocation svc pools a4 a6).1 = .ok plan ↔
      pools.v4.isEmpty = false ∧ pools.v6.isEmpty = false ∧
        (svc.lacks .V4 = false ∧ svc.lacks .V6 = false ∧ plan = {} ∨
          svc.lacks .V4 = true ∧ svc.lacks .V6 = true ∧
            ∃ x y, (pools.v4.nextFreeIp a4).1 = some x ∧ (pools.v6.nextFreeIp a6).1 = some y ∧
              plan = { v4 := some x, v6 := some y }) := by
  have hcan := canAllocate_dual hdual h4 h6 pools
  by_cases hconf : pools.v4.isEmpty = false ∧ pools.v6.isEmpty = false
  · obtain ⟨hs4, he4⟩ := searchFamily_configured hconf.1 (svc.lacks .V4) a4
    obtain ⟨hs6, he6⟩ := searchFamily_configured hconf.2 (svc.lacks .V6) a6
    rw [planAllocation_result (hcan.mpr hconf)]
    dsimp only
    rw [hs4, he4, hs6, he6]
    cases svc.lacks .V4 with
    | false =>
      cases svc.lacks .V6 with
      | false => simp [AllocationPlan.isEmpty, hconf, eq_comm]
      | true => cases (pools.v6.nextFreeIp a6).1 <;> simp [AllocationPlan.isEmpty, hdual]
    | true =>
      cases svc.lacks .V6 with
      | false => cases (pools.v4.nextFreeIp a4).1 <;> simp [AllocationPlan.isEmpty, hdual]
      | true =>
        cases (pools.v4.nextFreeIp a4).1 <;> cases (pools.v6.nextFreeIp a6).1 <;>
          simp [AllocationPlan.isEmpty, hdual, hconf, eq_comm]
  · constructor
    · intro h
      exact absurd (hcan.mp (planAllocation_gate h)) hconf
    · rintro ⟨hv4, hv6, -⟩
      exact absurd ⟨hv4, hv6⟩ hconf

theorem IpRanges.HasFree.configured {r : IpRanges} {allocated : List IpAddr}
    (h : r.HasFree allocated) :
    r.isEmpty = false := by
  obtain ⟨ip, hip, -⟩ := h
  obtain ⟨n, hn, -⟩ := IpRanges.contains_iff.mp hip
  exact List.isEmpty_eq_false_iff.mpr (List.ne_nil_of_mem hn)

theorem held_of_not_lacks {svc : LbService} {fam : IpFamily} (hwant : svc.wants fam = true)
    (h : svc.lacks fam = false) : ∃ x ∈ svc.ingressIps, x.family = fam := by
  by_contra hnone
  have hlacks : svc.lacks fam = true :=
    LbService.lacks_iff.mpr ⟨hwant, fun x hx hfam => hnone ⟨x, hx, hfam⟩⟩
  rw [h] at hlacks
  cases hlacks

section Completes

variable {ranges : List IpNet} {pools : Pools} {svc : LbService} {a4 a6 : List IpAddr}

/-- A plan for both families has an address of each. -/
theorem covers_both (hpools : PoolsReachable ranges pools) {x y : IpAddr}
    (hx : (pools.v4.nextFreeIp a4).1 = some x) (hy : (pools.v6.nextFreeIp a6).1 = some y) :
    Covers svc { v4 := some x, v6 := some y } := by
  have hp := hpools.wf
  have hx4 := ((IpRanges.nextFreeIp_spec hp.inside4 a4).free x hx).1
  have hy6 := ((IpRanges.nextFreeIp_spec hp.inside6 a6).free y hy).1
  intro fam
  right
  cases fam with
  | V4 => exact ⟨x, by simp [AllocationPlan.ips], ((contains_filter_family hp.v4 x).mp hx4).2⟩
  | V6 => exact ⟨y, by simp [AllocationPlan.ips], ((contains_filter_family hp.v6 y).mp hy6).2⟩

theorem meets_pool {fam : IpFamily} {r : IpRanges}
    (hr : IpRanges.Reachable (ranges.filter (·.family == fam)) r) (allocated : List IpAddr) :
    (∃ ip, (r.nextFreeIp allocated).1 = some ip) ↔ r.Meets allocated :=
  IpRanges.meets_iff (fun _ hn => beq_iff_eq.mp (List.mem_filter.mp hn).2) hr allocated

/-- A service that requires both families and has exactly one of them never gets a plan. -/
theorem held_refused (hdual : svc.requireDual = true) (h4 : svc.wantV4 = true)
    (h6 : svc.wantV6 = true) (hone : svc.lacks .V4 ≠ svc.lacks .V6) (plan : AllocationPlan) :
    (planAllocation svc pools a4 a6).1 ≠ .ok plan := by
  intro hplan
  obtain ⟨-, -, ⟨hl4, hl6, -⟩ | ⟨hl4, hl6, -⟩⟩ := (planAllocation_dual hdual h4 h6).mp hplan
  · exact hone (hl4.trans hl6.symm)
  · exact hone (hl4.trans hl6.symm)

/-- What every lacking family asks of its pool. -/
theorem lacking_free_iff :
    (∀ fam, svc.lacks fam = true → (pools.get fam).HasFree (taken a4 a6 fam)) ↔
      (svc.lacks .V4 = true → pools.v4.HasFree a4) ∧
        (svc.lacks .V6 = true → pools.v6.HasFree a6) := by
  constructor
  · exact fun h => ⟨h .V4, h .V6⟩
  · rintro ⟨hv4, hv6⟩ fam
    cases fam with
    | V4 => exact hv4
    | V6 => exact hv6

section Dual

variable (hpools : PoolsReachable ranges pools) (hdual : svc.requireDual = true)
  (h4 : svc.wantV4 = true) (h6 : svc.wantV6 = true)
include hpools hdual h4 h6

theorem plan_whole {plan : AllocationPlan} (hplan : (planAllocation svc pools a4 a6).1 = .ok plan)
    (hsome : plan.isEmpty = false) : Covers svc plan := by
  obtain ⟨-, -, ⟨-, -, rfl⟩ | ⟨-, -, x, y, hx, hy, rfl⟩⟩ :=
    (planAllocation_dual hdual h4 h6).mp hplan
  · cases hsome
  · exact covers_both hpools hx hy

theorem completes_none_lacking (hl4 : svc.lacks .V4 = false) (hl6 : svc.lacks .V6 = false) :
    Completes svc pools a4 a6 ↔ pools.v4.isEmpty = false ∧ pools.v6.isEmpty = false := by
  constructor
  · intro h
    obtain ⟨plan, hplan, -⟩ := h.planned (lacking_free_iff.mpr (by simp [hl4, hl6]))
    obtain ⟨hv4, hv6, -⟩ := (planAllocation_dual hdual h4 h6).mp hplan
    exact ⟨hv4, hv6⟩
  · rintro ⟨hv4, hv6⟩
    have hplan : (planAllocation svc pools a4 a6).1 = .ok {} :=
      (planAllocation_dual hdual h4 h6).mpr ⟨hv4, hv6, .inl ⟨hl4, hl6, rfl⟩⟩
    refine ⟨fun _ => ⟨{}, hplan, fun fam => .inl ?_⟩, fun _ => plan_whole hpools hdual h4 h6⟩
    cases fam with
    | V4 => exact held_of_not_lacks h4 hl4
    | V6 => exact held_of_not_lacks h6 hl6

theorem completes_one_lacking (hone : svc.lacks .V4 ≠ svc.lacks .V6) :
    Completes svc pools a4 a6 ↔
      ¬((svc.lacks .V4 = true → pools.v4.HasFree a4) ∧
        (svc.lacks .V6 = true → pools.v6.HasFree a6)) := by
  rw [← lacking_free_iff]
  constructor
  · intro h hfree
    obtain ⟨plan, hplan, -⟩ := h.planned hfree
    exact held_refused hdual h4 h6 hone plan hplan
  · exact fun h => ⟨fun hfree => absurd hfree h, fun _ => plan_whole hpools hdual h4 h6⟩

theorem completes_both_lacking (hl4 : svc.lacks .V4 = true) (hl6 : svc.lacks .V6 = true) :
    Completes svc pools a4 a6 ↔
      (pools.v4.HasFree a4 → pools.v6.HasFree a6 → pools.v4.Meets a4 ∧ pools.v6.Meets a6) := by
  constructor
  · intro h hv4 hv6
    obtain ⟨plan, hplan, -⟩ := h.planned (lacking_free_iff.mpr ⟨fun _ => hv4, fun _ => hv6⟩)
    obtain ⟨-, -, ⟨hno, -, -⟩ | ⟨-, -, x, y, hx, hy, -⟩⟩ :=
      (planAllocation_dual hdual h4 h6).mp hplan
    · rw [hl4] at hno
      cases hno
    · exact ⟨(meets_pool hpools.v4 a4).mp ⟨x, hx⟩, (meets_pool hpools.v6 a6).mp ⟨y, hy⟩⟩
  · intro h
    refine ⟨fun hfree => ?_, fun _ => plan_whole hpools hdual h4 h6⟩
    obtain ⟨hv4, hv6⟩ := lacking_free_iff.mp hfree
    obtain ⟨hm4, hm6⟩ := h (hv4 hl4) (hv6 hl6)
    obtain ⟨x, hx⟩ := (meets_pool hpools.v4 a4).mpr hm4
    obtain ⟨y, hy⟩ := (meets_pool hpools.v6 a6).mpr hm6
    refine ⟨{ v4 := some x, v6 := some y }, ?_, covers_both hpools hx hy⟩
    exact (planAllocation_dual hdual h4 h6).mpr
      ⟨(hv4 hl4).configured, (hv6 hl6).configured, .inr ⟨hl4, hl6, x, y, hx, hy, rfl⟩⟩

/-- When planning completes a service that requires both families. -/
theorem completes_iff : Completes svc pools a4 a6 ↔ CanComplete svc pools a4 a6 := by
  unfold CanComplete
  cases hl4 : svc.lacks .V4 with
  | false =>
    cases hl6 : svc.lacks .V6 with
    | false => exact completes_none_lacking hpools hdual h4 h6 hl4 hl6
    | true =>
      rw [completes_one_lacking hpools hdual h4 h6 (by rw [hl4, hl6]; decide), hl4, hl6]
      simp
  | true =>
    cases hl6 : svc.lacks .V6 with
    | false =>
      rw [completes_one_lacking hpools hdual h4 h6 (by rw [hl4, hl6]; decide), hl4, hl6]
      simp
    | true => exact completes_both_lacking hpools hdual h4 h6 hl4 hl6

end Dual

end Completes

def dualRanges : List IpNet :=
  [IpRanges.net 203 0 113 0 24,
   ⟨.V6 0xfd000000000000000000000000000000#128, 120, by decide⟩]

/-- A service that requires both families. -/
def dualService (ingress : List IpAddr) : LbService :=
  { lbService "web" with wantV6 := true, requireDual := true, ingressIps := ingress }

theorem fresh_service_completed : Completes (dualService []) (Pools.new dualRanges) [] [] :=
  (completes_iff ⟨.new, .new⟩ rfl rfl rfl).mpr fun _ _ =>
    ⟨(meets_pool .new []).mp ⟨.ofOctets 203 0 113 0, by decide⟩,
      (meets_pool .new []).mp ⟨.V6 0xfd000000000000000000000000000000#128, by decide⟩⟩

/-- The service has 203.0.113.5 and lacks an IPv6 address. Every address of fd00::/120 is free,
but the plan has no IPv4 address. -/
theorem held_family_refused :
    (planAllocation (dualService [.ofOctets 203 0 113 5]) (Pools.new dualRanges)
        [.ofOctets 203 0 113 5] []).1 = .error .DualStackUnavailable ∧
      ¬Completes (dualService [.ofOctets 203 0 113 5]) (Pools.new dualRanges)
        [.ofOctets 203 0 113 5] [] := by
  have hresult : (planAllocation (dualService [.ofOctets 203 0 113 5]) (Pools.new dualRanges)
      [.ofOctets 203 0 113 5] []).1 = .error .DualStackUnavailable := by decide
  refine ⟨hresult, fun h => ?_⟩
  have hfree : (Pools.new dualRanges).v6.HasFree [] :=
    ⟨.V6 0xfd000000000000000000000000000000#128, by decide, List.not_mem_nil⟩
  have hheld : (dualService [.ofOctets 203 0 113 5]).lacks .V4 = false := by decide
  obtain ⟨plan, hplan, -⟩ :=
    h.planned (lacking_free_iff.mpr ⟨fun hlacks => by simp [hheld] at hlacks, fun _ => hfree⟩)
  rw [hresult] at hplan
  cases hplan

end KubeRouter.Lballoc
