/-
  LoadBalancer address pools and allocation planning (`lballoc/src/pools.rs`,
  `lballoc/src/allocate.rs`, `lballoc/src/model.rs`, `allocated_ips` in
  `lballoc/src/controller.rs`, the split of the ranges by family in `run_loadbalancer`).

  `IpRanges` is a cursor over the ranges of one family. `nextFreeIp` scans from the cursor and
  stops when it is back at its start; the scan is bounded here by the number of addresses in
  the pool. An allocation that finds an address leaves the cursor on it.

  Proved:
  * `nextFreeIp_spec`: an address handed out lies in the pool and is not among those the
    caller listed; the cursor stays in the pool.
  * `planAllocation_spec`: a plan holds at most one address of each family, only of families
    the service has no ingress address of.
-/
import KubeRouter.Common.Ip

namespace KubeRouter.Lballoc

/-! ## Cursor -/

structure IpRanges where
  ranges : List IpNet
  rangeIndex : Nat
  currentIp : Option IpAddr
deriving DecidableEq, Repr

/-- The big-endian octets of an `n`-byte value. -/
def octets (n v : Nat) : List UInt8 :=
  (List.range n).reverse.map fun i => UInt8.ofNat (v / 256 ^ i % 256)

def fromOctets (l : List UInt8) : Nat := l.foldl (fun acc b => acc * 256 + b.toNat) 0

/-- `bump` on the octets in reverse: add one, carry while an octet wraps to zero. -/
def bumpRev : List UInt8 → List UInt8
  | [] => []
  | b :: rest => if b + 1 ≠ 0 then (b + 1) :: rest else (b + 1) :: bumpRev rest

def bump (l : List UInt8) : List UInt8 := (bumpRev l.reverse).reverse

def incIp : IpAddr → IpAddr
  | .V4 a => .V4 (BitVec.ofNat 32 (fromOctets (bump (octets 4 a.toNat))))
  | .V6 a => .V6 (BitVec.ofNat 128 (fromOctets (bump (octets 16 a.toNat))))

namespace IpRanges

def new (ranges : List IpNet) : IpRanges where
  ranges := ranges
  rangeIndex := 0
  currentIp := ranges.head?.map (·.network)

def isEmpty (r : IpRanges) : Bool := r.ranges.isEmpty

def contains (r : IpRanges) (ip : IpAddr) : Bool := r.ranges.any (·.contains ip)

/-- Advance the cursor by one address, to the next range's first address behind the last one
of a range. -/
def inc (r : IpRanges) : IpRanges :=
  match r.currentIp, r.ranges[r.rangeIndex]? with
  | some cur, some range =>
    let next := incIp cur
    if range.contains next then { r with currentIp := some next }
    else
      let index := if r.rangeIndex + 1 ≥ r.ranges.length then 0 else r.rangeIndex + 1
      { r with rangeIndex := index, currentIp := r.ranges[index]?.map (·.network) }
  | _, _ => r

/-- Number of addresses of the pool, ranges counted one by one. -/
def size (r : IpRanges) : Nat :=
  (r.ranges.map fun n => 2 ^ (n.addr.bits - n.prefixLen)).sum

/-- The loop of `next_free_ip` with the cursor at `ip`. -/
def scan (allocated : List IpAddr) (start : IpAddr) :
    Nat → IpRanges → IpAddr → Option IpAddr × IpRanges
  | 0, r, _ => (none, r)
  | fuel + 1, r, ip =>
    if ip ∉ allocated then (some ip, r)
    else
      let r := r.inc
      match r.currentIp with
      | none => (none, r)
      | some ip => if ip = start then (none, r) else scan allocated start fuel r ip

def nextFreeIp (r : IpRanges) (allocated : List IpAddr) : Option IpAddr × IpRanges :=
  match r.currentIp with
  | none => (none, r)
  | some start => scan allocated start r.size r start

end IpRanges

/-! ## Services -/

/-- A projected Service (`map_lb_service`); ingress entries without an address are left out. -/
structure LbService where
  ns : String
  name : String
  isLoadbalancer : Bool
  loadbalancerClass : Option String
  wantV4 : Bool
  wantV6 : Bool
  requireDual : Bool
  externalIps : List IpAddr
  ingressIps : List IpAddr
deriving DecidableEq, Repr

namespace LbService

def haveFamilies (svc : LbService) : Bool × Bool :=
  (svc.ingressIps.any (·.isIpv4), svc.ingressIps.any (·.isIpv6))

end LbService

def loadBalancerClass : String := "kube-router"

def checkClass (cls : Option String) (isDefault : Bool) : Bool :=
  match cls with
  | some c =>
    if c = loadBalancerClass then true
    else if c = "default" then isDefault
    else false
  | none => isDefault

def needsIngress (svc : LbService) : Bool :=
  svc.wantV4 != svc.haveFamilies.1 || svc.wantV6 != svc.haveFamilies.2

def shouldAllocate (svc : LbService) (isDefault : Bool) : Bool :=
  svc.isLoadbalancer && checkClass svc.loadbalancerClass isDefault && needsIngress svc

/-- External and ingress addresses that lie in the pools, by family. -/
def allocatedIps (services : List LbService) (v4Ranges v6Ranges : IpRanges) :
    List IpAddr × List IpAddr :=
  let ips := services.flatMap fun svc => svc.externalIps ++ svc.ingressIps
  (ips.filter fun ip => ip.isIpv4 && v4Ranges.contains ip,
    ips.filter fun ip => ip.isIpv6 && v6Ranges.contains ip)

/-! ## Planning -/

inductive AllocError where
  | NoRanges (msg : String)
  | DualStackUnavailable
  | Exhausted
deriving DecidableEq, Repr

structure AllocationPlan where
  v4 : Option IpAddr := none
  v6 : Option IpAddr := none
deriving DecidableEq, Repr

namespace AllocationPlan

def ips (plan : AllocationPlan) : List IpAddr := plan.v4.toList ++ plan.v6.toList

def isEmpty (plan : AllocationPlan) : Bool := plan.v4.isNone && plan.v6.isNone

end AllocationPlan

/-- The two cursors of the allocator. -/
structure Pools where
  v4 : IpRanges
  v6 : IpRanges
deriving DecidableEq, Repr

/-- The configured ranges, split by family. -/
def Pools.new (ranges : List IpNet) : Pools where
  v4 := .new (ranges.filter (·.family == .V4))
  v6 := .new (ranges.filter (·.family == .V6))

/-- The gating half of `plan_allocation`. -/
def canAllocate (svc : LbService) (pools : Pools) : Except AllocError Unit :=
  let canV4 := !pools.v4.isEmpty
  let canV6 := !pools.v6.isEmpty
  if svc.requireDual && !canV4 then .error (.NoRanges "IPv4 required")
  else if svc.requireDual && !canV6 then .error (.NoRanges "IPv6 required")
  else if svc.wantV4 && !canV4 && !svc.wantV6 then .error (.NoRanges "no IPv4 ranges")
  else if svc.wantV6 && !canV6 && !svc.wantV4 then .error (.NoRanges "no IPv6 ranges")
  else .ok ()

/-- One family of `plan_allocation`: what was found, whether the search failed, the cursor. -/
def searchFamily (needed : Bool) (ranges : IpRanges) (allocated : List IpAddr) :
    Option IpAddr × Option AllocError × IpRanges :=
  if needed && !ranges.isEmpty then
    match ranges.nextFreeIp allocated with
    | (some ip, r) => (some ip, none, r)
    | (none, r) => (none, some .Exhausted, r)
  else (none, none, ranges)

/-- `plan_allocation`: the plan or an error, and the cursors, which move either way. -/
def planAllocation (svc : LbService) (pools : Pools) (allocated4 allocated6 : List IpAddr) :
    Except AllocError AllocationPlan × Pools :=
  match canAllocate svc pools with
  | .error e => (.error e, pools)
  | .ok () =>
    let (have4, have6) := svc.haveFamilies
    let (ip4, err4, v4) := searchFamily (svc.wantV4 && !have4) pools.v4 allocated4
    let (ip6, err6, v6) := searchFamily (svc.wantV6 && !have6) pools.v6 allocated6
    let plan : AllocationPlan := { v4 := ip4, v6 := ip6 }
    let pools : Pools := { v4 := v4, v6 := v6 }
    if plan.isEmpty && err4.isNone && err6.isNone then (.ok plan, pools)
    else if plan.isEmpty then (.error ((err4.or err6).getD .Exhausted), pools)
    else if svc.requireDual && (plan.v4.isNone || plan.v6.isNone) then
      (.error .DualStackUnavailable, pools)
    else (.ok plan, pools)

/-! ## What the cursor hands out -/

/-- Whether `ip` lies in one of the configured ranges. -/
def inPool (ranges : List IpNet) (ip : IpAddr) : Bool := ranges.any (·.contains ip)

/-- The cursor stands on an address of its ranges. -/
def IpRanges.Inside (r : IpRanges) : Prop := ∀ ip, r.currentIp = some ip → r.contains ip = true

namespace IpRanges

theorem contains_iff {r : IpRanges} {ip : IpAddr} :
    r.contains ip = true ↔ ∃ n ∈ r.ranges, n.contains ip = true := by
  simp [contains]

theorem new_inside (ranges : List IpNet) : (new ranges).Inside := by
  intro ip h
  obtain ⟨n, hn, rfl⟩ := Option.map_eq_some_iff.mp h
  exact contains_iff.mpr ⟨n, List.mem_of_head? hn, n.contains_network⟩

theorem inc_ranges (r : IpRanges) : r.inc.ranges = r.ranges := by
  unfold inc
  split
  · dsimp only
    split <;> rfl
  · rfl

theorem inc_inside {r : IpRanges} (h : r.Inside) : r.inc.Inside := by
  intro ip hip
  rw [contains_iff, inc_ranges]
  unfold inc at hip
  split at hip
  · next cur range _ hrange =>
    dsimp only at hip
    split at hip
    · next hnext =>
      cases hip
      exact ⟨range, List.mem_of_getElem? hrange, hnext⟩
    · obtain ⟨n, hn, rfl⟩ := Option.map_eq_some_iff.mp hip
      exact ⟨n, List.mem_of_getElem? hn, n.contains_network⟩
  · exact contains_iff.mp (h ip hip)

/-- What a search over the pool `r` gives. -/
structure Found (r : IpRanges) (allocated : List IpAddr) (res : Option IpAddr × IpRanges) :
    Prop where
  ranges : res.2.ranges = r.ranges
  inside : res.2.Inside
  free : ∀ ip, res.1 = some ip → r.contains ip = true ∧ ip ∉ allocated

theorem scan_spec (allocated : List IpAddr) (start : IpAddr) (fuel : Nat) (r : IpRanges)
    (ip : IpAddr) (hr : r.Inside) (hip : r.contains ip = true) :
    Found r allocated (scan allocated start fuel r ip) := by
  induction fuel generalizing r ip with
  | zero => exact ⟨rfl, hr, fun _ h => by cases h⟩
  | succ fuel ih =>
    unfold scan
    split
    · next hfree =>
      refine ⟨rfl, hr, fun found h => ?_⟩
      cases h
      exact ⟨hip, hfree⟩
    · have hinc := inc_inside hr
      dsimp only
      split
      · exact ⟨inc_ranges r, hinc, fun _ h => by cases h⟩
      · next ip' hcur =>
        split
        · exact ⟨inc_ranges r, hinc, fun _ h => by cases h⟩
        · have hrec := ih r.inc ip' hinc (hinc ip' hcur)
          refine ⟨hrec.ranges.trans (inc_ranges r), hrec.inside, fun found h => ?_⟩
          have hfound := hrec.free found h
          rw [contains_iff, inc_ranges] at hfound
          exact ⟨contains_iff.mpr hfound.1, hfound.2⟩

theorem nextFreeIp_spec {r : IpRanges} (hr : r.Inside) (allocated : List IpAddr) :
    Found r allocated (r.nextFreeIp allocated) := by
  unfold nextFreeIp
  split
  · exact ⟨rfl, hr, fun _ h => by cases h⟩
  · next start hstart => exact scan_spec allocated start r.size r start hr (hr start hstart)

end IpRanges

/-- The cursors run over the configured ranges, each over those of its family. -/
structure PoolsWF (ranges : List IpNet) (pools : Pools) : Prop where
  v4 : pools.v4.ranges = ranges.filter (·.family == .V4)
  v6 : pools.v6.ranges = ranges.filter (·.family == .V6)
  inside4 : pools.v4.Inside
  inside6 : pools.v6.Inside

theorem poolsWF_new (ranges : List IpNet) : PoolsWF ranges (Pools.new ranges) :=
  ⟨rfl, rfl, IpRanges.new_inside _, IpRanges.new_inside _⟩

theorem contains_filter_family {ranges : List IpNet} {fam : IpFamily} {r : IpRanges}
    (h : r.ranges = ranges.filter (·.family == fam)) (ip : IpAddr) :
    r.contains ip = true ↔ inPool ranges ip = true ∧ ip.family = fam := by
  rw [IpRanges.contains_iff, h]
  constructor
  · intro ⟨n, hn, hip⟩
    obtain ⟨hmem, hfam⟩ := List.mem_filter.mp hn
    refine ⟨List.any_eq_true.mpr ⟨n, hmem, hip⟩, ?_⟩
    rw [IpNet.contains_family hip]
    exact beq_iff_eq.mp hfam
  · intro ⟨hpool, hfam⟩
    obtain ⟨n, hn, hip⟩ := List.any_eq_true.mp hpool
    refine ⟨n, List.mem_filter.mpr ⟨hn, ?_⟩, hip⟩
    rw [← IpNet.contains_family hip]
    exact beq_iff_eq.mpr hfam

/-- One family's search. -/
theorem searchFamily_spec {ranges : List IpNet} {fam : IpFamily} {r : IpRanges}
    (hr : r.ranges = ranges.filter (·.family == fam)) (hin : r.Inside) (needed : Bool)
    (allocated : List IpAddr) :
    let res := searchFamily needed r allocated
    res.2.2.ranges = r.ranges ∧ res.2.2.Inside ∧
      ∀ ip, res.1 = some ip → needed = true ∧ inPool ranges ip = true ∧ ip.family = fam ∧
        ip ∉ allocated := by
  have hfound := IpRanges.nextFreeIp_spec hin allocated
  dsimp only
  unfold searchFamily
  split
  · next hneeded =>
    have hneed : needed = true := (Bool.and_eq_true_iff.mp hneeded).1
    split
    · next ip' r' heq =>
      rw [heq] at hfound
      refine ⟨hfound.ranges, hfound.inside, fun ip hip => ?_⟩
      obtain ⟨hpool, hfree⟩ := hfound.free ip hip
      obtain ⟨hpool, hfam⟩ := (contains_filter_family hr ip).mp hpool
      exact ⟨hneed, hpool, hfam, hfree⟩
    · next r' heq =>
      rw [heq] at hfound
      exact ⟨hfound.ranges, hfound.inside, fun ip hip => by cases hip⟩
  · exact ⟨rfl, hin, fun ip hip => by cases hip⟩

/-- A planned address: in the pool, not handed out before, and of a family the service has no
ingress address of. -/
structure Planned (ranges : List IpNet) (svc : LbService) (allocated : List IpAddr)
    (fam : IpFamily) (ip : IpAddr) : Prop where
  pool : inPool ranges ip = true
  family : ip.family = fam
  free : ip ∉ allocated
  missing : ∀ x ∈ svc.ingressIps, x.family ≠ fam

section Plan

variable {svc : LbService} {pools : Pools} {a4 a6 : List IpAddr}

def LbService.wants (svc : LbService) : IpFamily → Bool
  | .V4 => svc.wantV4
  | .V6 => svc.wantV6

/-- A family the service wants and has no ingress address of. -/
def LbService.lacks (svc : LbService) : IpFamily → Bool
  | .V4 => svc.wantV4 && !svc.haveFamilies.1
  | .V6 => svc.wantV6 && !svc.haveFamilies.2

theorem LbService.lacks_iff {svc : LbService} {fam : IpFamily} : svc.lacks fam = true ↔
    svc.wants fam = true ∧ ∀ x ∈ svc.ingressIps, x.family ≠ fam := by
  cases fam with
  | V4 => simp [lacks, wants, haveFamilies, IpAddr.isIpv4]
  | V6 => simp [lacks, wants, haveFamilies, IpAddr.isIpv6]

/-- The plan is what the two searches found. -/
theorem planAllocation_ok {plan : AllocationPlan}
    (h : (planAllocation svc pools a4 a6).1 = .ok plan) :
    plan.v4 = (searchFamily (svc.lacks .V4) pools.v4 a4).1 ∧
      plan.v6 = (searchFamily (svc.lacks .V6) pools.v6 a6).1 := by
  unfold planAllocation at h
  split at h
  · cases h
  · dsimp only at h
    split at h
    · cases h
      exact ⟨rfl, rfl⟩
    · split at h
      · cases h
      · split at h
        · cases h
        · cases h
          exact ⟨rfl, rfl⟩

/-- The cursors move as the searches move them, or not at all. -/
theorem planAllocation_pools : (planAllocation svc pools a4 a6).2 = pools ∨
    (planAllocation svc pools a4 a6).2 =
      { v4 := (searchFamily (svc.lacks .V4) pools.v4 a4).2.2,
        v6 := (searchFamily (svc.lacks .V6) pools.v6 a6).2.2 } := by
  unfold planAllocation
  split
  · exact .inl rfl
  · right
    dsimp only
    split
    · rfl
    · split
      · rfl
      · split <;> rfl

end Plan

theorem searched_planned {ranges : List IpNet} {fam : IpFamily} {r : IpRanges}
    (hr : r.ranges = ranges.filter (·.family == fam)) (hin : r.Inside) {svc : LbService}
    {allocated : List IpAddr} {ip : IpAddr}
    (hip : (searchFamily (svc.lacks fam) r allocated).1 = some ip) :
    Planned ranges svc allocated fam ip := by
  obtain ⟨hlacks, hpool, hfam, hfree⟩ := (searchFamily_spec hr hin _ allocated).2.2 ip hip
  exact ⟨hpool, hfam, hfree, (LbService.lacks_iff.mp hlacks).2⟩

theorem planAllocation_spec {ranges : List IpNet} {pools : Pools} (hp : PoolsWF ranges pools)
    (svc : LbService) (a4 a6 : List IpAddr) :
    let res := planAllocation svc pools a4 a6
    PoolsWF ranges res.2 ∧ ∀ plan, res.1 = .ok plan →
      (∀ ip, plan.v4 = some ip → Planned ranges svc a4 .V4 ip) ∧
      ∀ ip, plan.v6 = some ip → Planned ranges svc a6 .V6 ip := by
  constructor
  · obtain ⟨hr4, hin4, -⟩ := searchFamily_spec hp.v4 hp.inside4 (svc.lacks .V4) a4
    obtain ⟨hr6, hin6, -⟩ := searchFamily_spec hp.v6 hp.inside6 (svc.lacks .V6) a6
    rcases @planAllocation_pools svc pools a4 a6 with h | h
    · rwa [h]
    · rw [h]
      exact ⟨hr4.trans hp.v4, hr6.trans hp.v6, hin4, hin6⟩
  · intro plan hplan
    obtain ⟨h4, h6⟩ := planAllocation_ok hplan
    refine ⟨fun ip hip => ?_, fun ip hip => ?_⟩
    · exact searched_planned hp.v4 hp.inside4 (h4.symm.trans hip)
    · exact searched_planned hp.v6 hp.inside6 (h6.symm.trans hip)

end KubeRouter.Lballoc
