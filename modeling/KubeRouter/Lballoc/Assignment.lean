/-
  Allocation passes against the API server (`LbAllocator::reconcile` in
  `lballoc/src/controller.rs`, `StoreLbServiceProvider` and `KubeStatusUpdater` in
  `kube-router-rs/src/lballoc_wire.rs`).

  The API server holds one object for each service and counts its versions. Every version that
  is written travels to the informer cache, in order for one object and with any delay. A pass
  takes the cached services as its snapshot, in any order, and then handles them one by one:
  it plans against the snapshot and the addresses planned so far in this pass, fetches the
  status, appends the planned addresses and replaces the status. The replace is refused when
  the object has a newer version; a refused or failed call ends the pass, and a call that
  failed for the caller may have been applied. Other clients create services and edit them,
  without touching the ingress list, between any two steps. `Entry.given` records, for the
  statement only, what the allocator has appended.

  Proved:
  * `assignments_exclusive`: in every run whose passes start with every pool address in use
    visible in the cache, or with nothing to allocate, no pool address is in the ingress of
    two services and no service is given two addresses of one family.
  * `address_assigned_twice`: a pass that starts before the previous pass's write is in the
    cache gives the same address to another service.
-/
import Mathlib.Logic.Function.Basic
import Mathlib.Data.List.Basic
import KubeRouter.Lib.System
import KubeRouter.Lballoc.Pools

namespace KubeRouter.Lballoc

/-! ## Cluster -/

/-- Namespace and name. -/
abbrev ServiceName := String × String

def LbService.key (svc : LbService) : ServiceName := (svc.ns, svc.name)

/-- A service object, its updates on the way to the cache and its cached copy. -/
structure Entry where
  current : LbService
  version : Nat
  pending : List LbService
  cached : Option LbService
  given : List IpAddr
deriving DecidableEq, Repr

/-- A new object, on its way to the cache. -/
def Entry.created (svc : LbService) : Entry where
  current := svc
  version := 0
  pending := [svc]
  cached := none
  given := []

/-- A new version of the object, on its way to the cache. -/
def Entry.write (e : Entry) (svc : LbService) : Entry where
  current := svc
  version := e.version + 1
  pending := e.pending ++ [svc]
  cached := e.cached
  given := e.given

/-- One call of `append_ingress`; `fetched` is what `get_status` gave, with its version. -/
structure Append where
  key : ServiceName
  ips : List IpAddr
  fetched : Option (LbService × Nat)
deriving DecidableEq, Repr

/-- The object `append_ingress` sends back. -/
def LbService.appendIngress (svc : LbService) (ips : List IpAddr) : LbService :=
  { svc with ingressIps := svc.ingressIps ++ ips }

/-- The locals of `reconcile`. -/
structure PassState where
  rest : List LbService
  a4 : List IpAddr
  a6 : List IpAddr
  appending : Option Append
deriving DecidableEq, Repr

structure Cluster where
  known : List ServiceName
  entry : ServiceName → Entry
  pools : Pools
  isDefault : Bool
  pass : Option PassState

inductive Act where
  /-- A client creates a service; its status starts out empty. -/
  | create (svc : LbService)
  /-- A client changes a service, but not its ingress. -/
  | edit (svc : LbService)
  | deliver (k : ServiceName)
  | beginPass (order : List ServiceName)
  /-- The body of the loop up to `append_ingress`, for the next service. -/
  | plan
  | getStatus
  | getStatusFails
  | replaceStatus
  /-- The caller sees an error; the write may have been applied. -/
  | replaceStatusFails (applied : Bool)
  | endPass
deriving DecidableEq, Repr

namespace Cluster

def setEntry (s : Cluster) (k : ServiceName) (e : Entry) : Cluster :=
  { s with entry := Function.update s.entry k e }

/-- Keys in the cache, each once. -/
def IsStoreOrder (s : Cluster) (order : List ServiceName) : Prop :=
  order.Nodup ∧ (∀ k ∈ order, k ∈ s.known) ∧
    ∀ k ∈ s.known, k ∈ order ↔ (s.entry k).cached.isSome = true

instance (s : Cluster) (order : List ServiceName) : Decidable (s.IsStoreOrder order) :=
  inferInstanceAs (Decidable (_ ∧ _))

def snapshot (s : Cluster) (order : List ServiceName) : List LbService :=
  order.filterMap fun k => (s.entry k).cached

def startPass (s : Cluster) (services : List LbService) : PassState :=
  let (a4, a6) := allocatedIps services s.pools.v4 s.pools.v6
  { rest := services, a4 := a4, a6 := a6, appending := none }

/-- The body of the loop for `svc`, up to the call of `append_ingress`. -/
def planNext (s : Cluster) (p : PassState) (svc : LbService) (rest : List LbService) : Cluster :=
  if !shouldAllocate svc s.isDefault then { s with pass := some { p with rest := rest } }
  else
    match planAllocation svc s.pools p.a4 p.a6 with
    | (.error _, pools) => { s with pools := pools, pass := some { p with rest := rest } }
    | (.ok plan, pools) =>
      if plan.ips.isEmpty then { s with pools := pools, pass := some { p with rest := rest } }
      else
        { s with
          pools := pools
          pass := some {
            rest := rest
            a4 := p.a4 ++ plan.ips.filter (·.isIpv4)
            a6 := p.a6 ++ plan.ips.filter (!·.isIpv4)
            appending := some { key := svc.key, ips := plan.ips, fetched := none } } }

/-- The API server accepts the replaced status. -/
def applied (s : Cluster) (k : ServiceName) (ips : List IpAddr) (svc : LbService) : Cluster :=
  s.setEntry k { (s.entry k).write (svc.appendIngress ips) with
    given := (s.entry k).given ++ ips }

def step (s : Cluster) : Act → Option Cluster
  | .create svc =>
    if svc.key ∉ s.known ∧ svc.ingressIps = [] then
      some { s.setEntry svc.key (.created svc) with known := svc.key :: s.known }
    else none
  | .edit svc =>
    if svc.key ∈ s.known ∧ svc.ingressIps = (s.entry svc.key).current.ingressIps then
      some (s.setEntry svc.key ((s.entry svc.key).write svc))
    else none
  | .deliver k =>
    match (s.entry k).pending with
    | [] => none
    | svc :: rest =>
      if k ∈ s.known then
        some (s.setEntry k { s.entry k with pending := rest, cached := some svc })
      else none
  | .beginPass order =>
    if s.pass = none ∧ s.IsStoreOrder order then
      some { s with pass := some (s.startPass (s.snapshot order)) }
    else none
  | .plan =>
    match s.pass with
    | some ⟨svc :: rest, a4, a6, none⟩ => some (s.planNext ⟨svc :: rest, a4, a6, none⟩ svc rest)
    | _ => none
  | .getStatus =>
    match s.pass with
    | some ⟨rest, a4, a6, some ⟨k, ips, none⟩⟩ =>
      let fetched := ((s.entry k).current, (s.entry k).version)
      some { s with pass := some ⟨rest, a4, a6, some ⟨k, ips, some fetched⟩⟩ }
    | _ => none
  | .getStatusFails =>
    match s.pass with
    | some ⟨_, _, _, some ⟨_, _, none⟩⟩ => some { s with pass := none }
    | _ => none
  | .replaceStatus =>
    match s.pass with
    | some ⟨rest, a4, a6, some ⟨k, ips, some (svc, v)⟩⟩ =>
      if v = (s.entry k).version then
        some { s.applied k ips svc with pass := some ⟨rest, a4, a6, none⟩ }
      else some { s with pass := none }
    | _ => none
  | .replaceStatusFails isApplied =>
    match s.pass with
    | some ⟨_, _, _, some ⟨k, ips, some (svc, v)⟩⟩ =>
      if isApplied ∧ v = (s.entry k).version then
        some { s.applied k ips svc with pass := none }
      else some { s with pass := none }
    | _ => none
  | .endPass =>
    match s.pass with
    | some ⟨[], _, _, none⟩ => some { s with pass := none }
    | _ => none

/-! ## What is claimed, and when -/

/-- No pool address is in the ingress of two services. -/
def NoShare (ranges : List IpNet) (s : Cluster) : Prop :=
  ∀ k ∈ s.known, ∀ k' ∈ s.known, k ≠ k' → ∀ ip, inPool ranges ip = true →
    ip ∈ (s.entry k).current.ingressIps → ip ∉ (s.entry k').current.ingressIps

/-- No service was given two addresses of one family. -/
def OnePerFamily (s : Cluster) : Prop :=
  ∀ k ∈ s.known, ∀ fam, ((s.entry k).given.filter (·.family == fam)).length ≤ 1

/-- Every pool address in the ingress of a service is in the ingress of its cached copy. -/
def Shown (ranges : List IpNet) (s : Cluster) : Prop :=
  ∀ k ∈ s.known, ∀ ip ∈ (s.entry k).current.ingressIps, inPool ranges ip = true →
    ip ∈ ((s.entry k).cached.map (·.ingressIps)).getD []

/-- No cached service is due for an allocation. -/
def NothingDue (s : Cluster) : Prop :=
  ∀ k ∈ s.known, (s.entry k).cached.all (fun c => !shouldAllocate c s.isDefault) = true

/-- A pass starts from a cache that shows every pool address in use, or has nothing to do. -/
def StartsInformed (ranges : List IpNet) (s : Cluster) : Act → Prop
  | .beginPass _ => s.Shown ranges ∨ s.NothingDue
  | _ => True

instance (ranges : List IpNet) (s : Cluster) : Decidable (s.Shown ranges) :=
  inferInstanceAs (Decidable (∀ k ∈ s.known, ∀ ip ∈ _, _ → _))

instance (s : Cluster) : Decidable s.NothingDue :=
  inferInstanceAs (Decidable (∀ k ∈ s.known, _))

instance (ranges : List IpNet) (s : Cluster) (a : Act) : Decidable (s.StartsInformed ranges a) :=
  match a with
  | .beginPass _ => inferInstanceAs (Decidable (_ ∨ _))
  | .create _ | .edit _ | .deliver _ | .plan | .getStatus | .getStatusFails | .replaceStatus
  | .replaceStatusFails _ | .endPass => inferInstanceAs (Decidable True)

/-- Every copy of a service carries its name. -/
structure Named (k : ServiceName) (e : Entry) : Prop where
  current : e.current.key = k
  pending : ∀ svc ∈ e.pending, svc.key = k
  cached : ∀ svc, e.cached = some svc → svc.key = k

/-- Before the allocator's first pass: any services without a shared pool address, in any state
of delivery. -/
structure Initial (ranges : List IpNet) (s : Cluster) : Prop where
  pools : s.pools = Pools.new ranges
  pass : s.pass = none
  named : ∀ k ∈ s.known, Named k (s.entry k)
  given : ∀ k ∈ s.known, (s.entry k).given = []
  apart : s.NoShare ranges

/-! ## Invariant -/

end Cluster

/-- The addresses of one family a pass avoids. -/
def PassState.allocated (p : PassState) : IpFamily → List IpAddr
  | .V4 => p.a4
  | .V6 => p.a6

namespace Cluster

structure Core (ranges : List IpNet) (s : Cluster) : Prop where
  pools : PoolsWF ranges s.pools
  named : ∀ k ∈ s.known, Named k (s.entry k)
  given : ∀ k ∈ s.known, ∀ ip ∈ (s.entry k).given,
    ip ∈ (s.entry k).current.ingressIps ∧ inPool ranges ip = true
  apart : s.NoShare ranges
  once : s.OnePerFamily

/-- An append that may still be written: its addresses are new to the cluster and of families
the service was given no address of. -/
structure Appending (ranges : List IpNet) (s : Cluster) (p : PassState) (w : Append) : Prop where
  known : w.key ∈ s.known
  handled : ∀ svc ∈ p.rest, svc.key ≠ w.key
  pool : ∀ ip ∈ w.ips, inPool ranges ip = true ∧ ip ∈ p.allocated ip.family
  unused : ∀ ip ∈ w.ips, ∀ k ∈ s.known, ip ∉ (s.entry k).current.ingressIps
  once : ∀ fam, (w.ips.filter (·.family == fam)).length ≤ 1
  missing : ∀ ip ∈ w.ips, ∀ g ∈ (s.entry w.key).given, g.family ≠ ip.family
  fetched : ∀ svc v, w.fetched = some (svc, v) → v ≤ (s.entry w.key).version ∧
    (v = (s.entry w.key).version → svc = (s.entry w.key).current)

/-- A pass that avoids every pool address in use, and whose copies of the services it has not
handled yet show every family they were given an address of. -/
structure Tracking (ranges : List IpNet) (s : Cluster) (p : PassState) : Prop where
  seen : ∀ k ∈ s.known, ∀ ip ∈ (s.entry k).current.ingressIps, inPool ranges ip = true →
    ip ∈ p.allocated ip.family
  known : ∀ svc ∈ p.rest, svc.key ∈ s.known
  shows : ∀ svc ∈ p.rest, ∀ ip ∈ (s.entry svc.key).given,
    ∃ x ∈ svc.ingressIps, x.family = ip.family
  distinct : p.rest.Pairwise fun x y => x.key ≠ y.key
  appending : ∀ w, p.appending = some w → s.Appending ranges p w

/-- A pass with nothing to do. -/
structure Idle (s : Cluster) (p : PassState) : Prop where
  quiet : p.appending = none
  rest : ∀ svc ∈ p.rest, shouldAllocate svc s.isDefault = false

structure Inv (ranges : List IpNet) (s : Cluster) : Prop where
  core : s.Core ranges
  pass : ∀ p, s.pass = some p → s.Idle p ∨ s.Tracking ranges p

theorem inv_init {ranges : List IpNet} {s : Cluster} (h : s.Initial ranges) : s.Inv ranges where
  core := {
    pools := h.pools ▸ poolsWF_new ranges
    named := h.named
    given := fun k hk ip hip => by rw [h.given k hk] at hip; cases hip
    apart := h.apart
    once := fun k hk fam => by rw [h.given k hk]; exact Nat.zero_le 1 }
  pass := fun p hp => by rw [h.pass] at hp; cases hp

/-! ## Steps of other parties -/

/-- What a step that is not the allocator's does to an entry: the ingress stays, and a version
names one object. -/
structure Kept (e e' : Entry) : Prop where
  ingress : e'.current.ingressIps = e.current.ingressIps
  given : e'.given = e.given
  version : e.version ≤ e'.version
  current : e.version = e'.version → e'.current = e.current

theorem Kept.refl (e : Entry) : Kept e e := ⟨rfl, rfl, Nat.le_refl _, fun _ => rfl⟩

theorem Kept.write (e : Entry) {svc : LbService} (h : svc.ingressIps = e.current.ingressIps) :
    Kept e (e.write svc) := by
  refine ⟨h, rfl, Nat.le_succ _, fun hv => ?_⟩
  simp only [Entry.write] at hv
  omega

/-- The invariant lasts while the allocator does nothing: services keep their ingress, new ones
start without any. -/
theorem Inv.frame {ranges : List IpNet} {s t : Cluster} (h : s.Inv ranges)
    (hpools : t.pools = s.pools) (hdefault : t.isDefault = s.isDefault) (hpass : t.pass = s.pass)
    (hnamed : ∀ k ∈ t.known, Named k (t.entry k)) (hknown : ∀ k ∈ s.known, k ∈ t.known)
    (hkept : ∀ k ∈ s.known, Kept (s.entry k) (t.entry k))
    (hnew : ∀ k ∈ t.known, k ∉ s.known →
      (t.entry k).current.ingressIps = [] ∧ (t.entry k).given = []) : t.Inv ranges := by
  -- an address in the ingress of a service, or given to it, was there before
  have hingress : ∀ k ∈ t.known, ∀ ip ∈ (t.entry k).current.ingressIps,
      k ∈ s.known ∧ ip ∈ (s.entry k).current.ingressIps := by
    intro k hk ip hip
    by_cases hold : k ∈ s.known
    · rw [(hkept k hold).ingress] at hip
      exact ⟨hold, hip⟩
    · rw [(hnew k hk hold).1] at hip
      cases hip
  have hgiven : ∀ k ∈ t.known, (t.entry k).given = [] ∨
      k ∈ s.known ∧ (t.entry k).given = (s.entry k).given := by
    intro k hk
    by_cases hold : k ∈ s.known
    · exact Or.inr ⟨hold, (hkept k hold).given⟩
    · exact Or.inl (hnew k hk hold).2
  refine ⟨⟨hpools ▸ h.core.pools, hnamed, ?_, ?_, ?_⟩, ?_⟩
  · intro k hk ip hip
    obtain hnone | ⟨hold, hsame⟩ := hgiven k hk
    · rw [hnone] at hip
      cases hip
    · rw [hsame] at hip
      rw [(hkept k hold).ingress]
      exact h.core.given k hold ip hip
  · intro k hk k' hk' hne ip hpool hip hip'
    obtain ⟨hold, hip⟩ := hingress k hk ip hip
    obtain ⟨hold', hip'⟩ := hingress k' hk' ip hip'
    exact h.core.apart k hold k' hold' hne ip hpool hip hip'
  · intro k hk fam
    obtain hnone | ⟨hold, hsame⟩ := hgiven k hk
    · rw [hnone]
      exact Nat.zero_le 1
    · rw [hsame]
      exact h.core.once k hold fam
  · intro p hp
    rw [hpass] at hp
    obtain hidle | htrack := h.pass p hp
    · exact Or.inl ⟨hidle.quiet, hdefault ▸ hidle.rest⟩
    · refine Or.inr ⟨?_, fun svc hsvc => hknown _ (htrack.known svc hsvc), ?_, htrack.distinct, ?_⟩
      · intro k hk ip hip hpool
        obtain ⟨hold, hip⟩ := hingress k hk ip hip
        exact htrack.seen k hold ip hip hpool
      · intro svc hsvc ip hip
        rw [(hkept svc.key (htrack.known svc hsvc)).given] at hip
        exact htrack.shows svc hsvc ip hip
      · intro w hw
        have hwrite := htrack.appending w hw
        have hkw := hkept w.key hwrite.known
        refine ⟨hknown _ hwrite.known, hwrite.handled, hwrite.pool, ?_, hwrite.once, ?_, ?_⟩
        · intro ip hip k hk hin
          obtain ⟨hold, hin⟩ := hingress k hk ip hin
          exact hwrite.unused ip hip k hold hin
        · rw [hkw.given]
          exact hwrite.missing
        · intro svc v hf
          obtain ⟨hle, hcur⟩ := hwrite.fetched svc v hf
          refine ⟨Nat.le_trans hle hkw.version, fun hv => ?_⟩
          have hsame : v = (s.entry w.key).version := by
            have := hkw.version
            omega
          rw [hcur hsame, hkw.current (hsame.symm.trans hv)]

theorem entry_setEntry (s : Cluster) (k k' : ServiceName) (e : Entry) :
    (s.setEntry k e).entry k' = if k' = k then e else s.entry k' := by
  simp only [setEntry, Function.update_apply]

/-- A change of one known entry that keeps its ingress. -/
theorem Inv.setEntry {ranges : List IpNet} {s : Cluster} (h : s.Inv ranges) {k : ServiceName}
    {e : Entry} (hkept : Kept (s.entry k) e) (hnamed : Named k e) :
    (s.setEntry k e).Inv ranges := by
  refine h.frame rfl rfl rfl ?_ (fun k' hk' => hk') ?_ (fun k' hk' hnew => absurd hk' hnew)
  · intro k' hk'
    rw [entry_setEntry]
    split
    · next heq => exact heq ▸ hnamed
    · exact h.core.named k' hk'
  · intro k' _
    rw [entry_setEntry]
    split
    · next heq => exact heq ▸ hkept
    · exact Kept.refl _

theorem Inv.create {ranges : List IpNet} {s : Cluster} (h : s.Inv ranges) {svc : LbService}
    (hfresh : svc.key ∉ s.known) (hempty : svc.ingressIps = []) :
    Inv ranges { s.setEntry svc.key (.created svc) with known := svc.key :: s.known } := by
  have hold : ∀ k ∈ s.known, k ≠ svc.key := by
    intro k hk heq
    exact hfresh (heq ▸ hk)
  refine h.frame rfl rfl rfl ?_ (fun k hk => List.mem_cons_of_mem _ hk) ?_ ?_
  · intro k hk
    rw [show Cluster.entry _ k = _ from entry_setEntry s svc.key k _]
    split
    · next heq =>
      subst heq
      refine ⟨rfl, fun x hx => ?_, fun x hx => by cases hx⟩
      rw [List.mem_singleton.mp hx]
    · next hne =>
      obtain heq | hk := List.mem_cons.mp hk
      · exact absurd heq hne
      · exact h.core.named k hk
  · intro k hk
    rw [show Cluster.entry _ k = _ from entry_setEntry s svc.key k _, if_neg (hold k hk)]
    exact Kept.refl _
  · intro k hk hnew
    obtain rfl | hk := List.mem_cons.mp hk
    · rw [show Cluster.entry _ svc.key = _ from entry_setEntry s svc.key svc.key _, if_pos rfl]
      exact ⟨hempty, rfl⟩
    · exact absurd hk hnew

/-! ## Steps of the pass -/

theorem Inv.abort {ranges : List IpNet} {s : Cluster} (h : s.Inv ranges) :
    Inv ranges { s with pass := none } :=
  ⟨⟨h.core.pools, h.core.named, h.core.given, h.core.apart, h.core.once⟩, fun p hp => by cases hp⟩

/-- A pool address in the ingress of a listed service is among the addresses to avoid. -/
theorem mem_startPass {ranges : List IpNet} {s : Cluster} (hp : PoolsWF ranges s.pools)
    {services : List LbService} {svc : LbService} (hsvc : svc ∈ services) {ip : IpAddr}
    (hip : ip ∈ svc.ingressIps) (hpool : inPool ranges ip = true) :
    ip ∈ (s.startPass services).allocated ip.family := by
  have hall : ip ∈ services.flatMap fun svc => svc.externalIps ++ svc.ingressIps :=
    List.mem_flatMap.mpr ⟨svc, hsvc, List.mem_append_right _ hip⟩
  cases hfam : ip.family with
  | V4 =>
    refine List.mem_filter.mpr ⟨hall, Bool.and_eq_true_iff.mpr ⟨beq_iff_eq.mpr hfam, ?_⟩⟩
    exact (contains_filter_family hp.v4 ip).mpr ⟨hpool, hfam⟩
  | V6 =>
    refine List.mem_filter.mpr ⟨hall, Bool.and_eq_true_iff.mpr ⟨beq_iff_eq.mpr hfam, ?_⟩⟩
    exact (contains_filter_family hp.v6 ip).mpr ⟨hpool, hfam⟩

theorem mem_snapshot {s : Cluster} {order : List ServiceName} {svc : LbService} :
    svc ∈ s.snapshot order ↔ ∃ k ∈ order, (s.entry k).cached = some svc := by
  simp only [snapshot, List.mem_filterMap]

theorem Inv.beginPass {ranges : List IpNet} {s : Cluster} (h : s.Inv ranges)
    {order : List ServiceName} (horder : s.IsStoreOrder order)
    (hinformed : s.Shown ranges ∨ s.NothingDue) :
    Inv ranges { s with pass := some (s.startPass (s.snapshot order)) } := by
  obtain ⟨hnodup, hknown, hcomplete⟩ := horder
  -- a service of the snapshot is the cached copy of the key it carries
  have hsnap : ∀ svc ∈ s.snapshot order, svc.key ∈ s.known ∧ svc.key ∈ order ∧
      (s.entry svc.key).cached = some svc := by
    intro svc hsvc
    obtain ⟨k, hk, hc⟩ := mem_snapshot.mp hsvc
    have hkey : svc.key = k := (h.core.named k (hknown k hk)).cached svc hc
    rw [hkey]
    exact ⟨hknown k hk, hk, hc⟩
  refine ⟨⟨h.core.pools, h.core.named, h.core.given, h.core.apart, h.core.once⟩, ?_⟩
  intro p hp
  cases hp
  obtain hshown | hdue := hinformed
  · -- what the cache shows is in the snapshot
    have hcached : ∀ k ∈ s.known, ∀ ip ∈ (s.entry k).current.ingressIps,
        inPool ranges ip = true → ∃ svc, (s.entry k).cached = some svc ∧ ip ∈ svc.ingressIps := by
      intro k hk ip hip hpool
      have hin := hshown k hk ip hip hpool
      cases hc : (s.entry k).cached with
      | none => simp [hc] at hin
      | some svc =>
        refine ⟨svc, rfl, ?_⟩
        simpa [hc] using hin
    refine Or.inr ⟨?_, fun svc hsvc => (hsnap svc hsvc).1, ?_, ?_, fun w hw => by cases hw⟩
    · intro k hk ip hip hpool
      obtain ⟨svc, hc, hin⟩ := hcached k hk ip hip hpool
      have hkey : k ∈ order := (hcomplete k hk).mpr (by rw [hc]; rfl)
      exact mem_startPass h.core.pools (mem_snapshot.mpr ⟨k, hkey, hc⟩) hin hpool
    · intro svc hsvc ip hip
      obtain ⟨hk, _, hc⟩ := hsnap svc hsvc
      obtain ⟨hin, hpool⟩ := h.core.given svc.key hk ip hip
      obtain ⟨svc', hc', hshow⟩ := hcached svc.key hk ip hin hpool
      rw [hc] at hc'
      cases hc'
      exact ⟨ip, hshow, rfl⟩
    · show (s.snapshot order).Pairwise _
      unfold snapshot
      rw [List.pairwise_filterMap]
      refine List.Pairwise.imp_of_mem ?_ hnodup
      intro k k' hk hk' hne svc hsvc svc' hsvc' heq
      have hkey := (h.core.named k (hknown k hk)).cached svc hsvc
      have hkey' := (h.core.named k' (hknown k' hk')).cached svc' hsvc'
      rw [hkey, hkey'] at heq
      exact hne heq
  · refine Or.inl ⟨rfl, fun svc hsvc => ?_⟩
    obtain ⟨hk, _, hc⟩ := hsnap svc hsvc
    have hall := hdue svc.key hk
    rw [hc] at hall
    simpa using hall

theorem Inv.skip {ranges : List IpNet} {s : Cluster} (h : s.Inv ranges) {svc : LbService}
    {rest : List LbService} {a4 a6 : List IpAddr} (hp : s.pass = some ⟨svc :: rest, a4, a6, none⟩)
    {pools : Pools} (hpools : PoolsWF ranges pools) :
    Inv ranges { s with pools := pools, pass := some ⟨rest, a4, a6, none⟩ } := by
  refine ⟨⟨hpools, h.core.named, h.core.given, h.core.apart, h.core.once⟩, ?_⟩
  intro p hp'
  cases hp'
  obtain hidle | htrack := h.pass _ hp
  · exact Or.inl ⟨rfl, fun x hx => hidle.rest x (List.mem_cons_of_mem _ hx)⟩
  · refine Or.inr ⟨htrack.seen, fun x hx => htrack.known x (List.mem_cons_of_mem _ hx),
      fun x hx => htrack.shows x (List.mem_cons_of_mem _ hx), htrack.distinct.of_cons,
      fun w hw => by cases hw⟩

end Cluster

theorem AllocationPlan.mem_ips {plan : AllocationPlan} {ip : IpAddr} :
    ip ∈ plan.ips ↔ plan.v4 = some ip ∨ plan.v6 = some ip := by
  simp only [ips, List.mem_append, Option.mem_toList]

theorem AllocationPlan.ips_once {plan : AllocationPlan}
    (h4 : ∀ ip, plan.v4 = some ip → ip.family = .V4)
    (h6 : ∀ ip, plan.v6 = some ip → ip.family = .V6) (fam : IpFamily) :
    (plan.ips.filter (·.family == fam)).length ≤ 1 := by
  have hlen : ∀ (o : Option IpAddr), (o.toList.filter (·.family == fam)).length ≤ 1 := by
    intro o
    cases o with
    | none => exact Nat.zero_le 1
    | some ip => exact List.length_filter_le _ [ip]
  unfold ips
  rw [List.filter_append, List.length_append]
  cases fam with
  | V4 =>
    have hnone : plan.v6.toList.filter (·.family == .V4) = [] := by
      refine List.filter_eq_nil_iff.mpr fun ip hip => ?_
      rw [h6 ip (Option.mem_toList.mp hip)]
      decide
    rw [hnone]
    exact hlen plan.v4
  | V6 =>
    have hnone : plan.v4.toList.filter (·.family == .V6) = [] := by
      refine List.filter_eq_nil_iff.mpr fun ip hip => ?_
      rw [h4 ip (Option.mem_toList.mp hip)]
      decide
    rw [hnone, List.length_nil, Nat.zero_add]
    exact hlen plan.v6

namespace Cluster

/-- The pass plans addresses for its next service and starts to append them. -/
theorem Inv.planned {ranges : List IpNet} {s : Cluster} (h : s.Inv ranges) {svc : LbService}
    {rest : List LbService} {a4 a6 : List IpAddr} (hp : s.pass = some ⟨svc :: rest, a4, a6, none⟩)
    (hdue : shouldAllocate svc s.isDefault = true) {plan : AllocationPlan} {pools : Pools}
    (hplan : planAllocation svc s.pools a4 a6 = (.ok plan, pools)) :
    Inv ranges { s with
      pools := pools
      pass := some ⟨rest, a4 ++ plan.ips.filter (·.isIpv4), a6 ++ plan.ips.filter (!·.isIpv4),
        some ⟨svc.key, plan.ips, none⟩⟩ } := by
  have hspec := planAllocation_spec h.core.pools svc a4 a6
  rw [hplan] at hspec
  obtain ⟨hpools, hplan⟩ := hspec
  obtain ⟨h4, h6⟩ := hplan plan rfl
  refine ⟨⟨hpools, h.core.named, h.core.given, h.core.apart, h.core.once⟩, ?_⟩
  intro p hp'
  cases hp'
  obtain hidle | htrack := h.pass _ hp
  · have hno := hidle.rest svc (List.mem_cons_self ..)
    rw [hdue] at hno
    cases hno
  -- every planned address, whatever its family
  have hips : ∀ ip ∈ plan.ips, Planned ranges svc
      (PassState.allocated ⟨svc :: rest, a4, a6, none⟩ ip.family) ip.family ip := by
    intro ip hip
    obtain hip | hip := AllocationPlan.mem_ips.mp hip
    · have hfound := h4 ip hip
      rw [hfound.family]
      exact hfound
    · have hfound := h6 ip hip
      rw [hfound.family]
      exact hfound
  refine Or.inr ⟨?_, fun x hx => htrack.known x (List.mem_cons_of_mem _ hx),
    fun x hx => htrack.shows x (List.mem_cons_of_mem _ hx), htrack.distinct.of_cons, ?_⟩
  · intro k hk ip hip hpool
    have hseen := htrack.seen k hk ip hip hpool
    cases hfam : ip.family with
    | V4 =>
      rw [hfam] at hseen
      exact List.mem_append_left _ hseen
    | V6 =>
      rw [hfam] at hseen
      exact List.mem_append_left _ hseen
  · intro w hw
    cases hw
    refine ⟨htrack.known svc (List.mem_cons_self ..), ?_, ?_, ?_, ?_, ?_, fun _ _ hf => by cases hf⟩
    · intro x hx heq
      exact List.rel_of_pairwise_cons htrack.distinct hx heq.symm
    · intro ip hip
      refine ⟨(hips ip hip).pool, ?_⟩
      cases hfam : ip.family with
      | V4 =>
        refine List.mem_append_right _ (List.mem_filter.mpr ⟨hip, ?_⟩)
        simp [IpAddr.isIpv4, hfam]
      | V6 =>
        refine List.mem_append_right _ (List.mem_filter.mpr ⟨hip, ?_⟩)
        simp [IpAddr.isIpv4, hfam]
    · intro ip hip k hk hin
      exact (hips ip hip).free (htrack.seen k hk ip hin (hips ip hip).pool)
    · exact AllocationPlan.ips_once (fun ip hip => (h4 ip hip).family)
        (fun ip hip => (h6 ip hip).family)
    · intro ip hip g hg
      obtain ⟨x, hx, hfam⟩ := htrack.shows svc (List.mem_cons_self ..) g hg
      rw [← hfam]
      exact (hips ip hip).missing x hx

theorem Inv.planNext {ranges : List IpNet} {s : Cluster} (h : s.Inv ranges) {svc : LbService}
    {rest : List LbService} {a4 a6 : List IpAddr}
    (hp : s.pass = some ⟨svc :: rest, a4, a6, none⟩) :
    (s.planNext ⟨svc :: rest, a4, a6, none⟩ svc rest).Inv ranges := by
  have hpools := (planAllocation_spec h.core.pools svc a4 a6).1
  unfold Cluster.planNext
  split
  · exact h.skip hp h.core.pools
  · next hdue =>
    have hdue : shouldAllocate svc s.isDefault = true := by simpa using hdue
    split
    · next _ pools heq =>
      rw [heq] at hpools
      exact h.skip hp hpools
    · next plan pools heq =>
      rw [heq] at hpools
      split
      · exact h.skip hp hpools
      · exact h.planned hp hdue heq

theorem Inv.getStatus {ranges : List IpNet} {s : Cluster} (h : s.Inv ranges)
    {rest : List LbService} {a4 a6 : List IpAddr} {k : ServiceName} {ips : List IpAddr}
    (hp : s.pass = some ⟨rest, a4, a6, some ⟨k, ips, none⟩⟩) :
    Inv ranges { s with pass := some ⟨rest, a4, a6,
      some ⟨k, ips, some ((s.entry k).current, (s.entry k).version)⟩⟩ } := by
  refine ⟨⟨h.core.pools, h.core.named, h.core.given, h.core.apart, h.core.once⟩, ?_⟩
  intro p hp'
  cases hp'
  obtain hidle | htrack := h.pass _ hp
  · cases hidle.quiet
  have hw := htrack.appending _ rfl
  refine Or.inr ⟨htrack.seen, htrack.known, htrack.shows, htrack.distinct, ?_⟩
  intro w hw'
  cases hw'
  refine ⟨hw.known, hw.handled, hw.pool, hw.unused, hw.once, hw.missing, ?_⟩
  intro svc v hf
  cases hf
  exact ⟨Nat.le_refl _, fun _ => rfl⟩

section Applied

variable {s : Cluster} {k k' : ServiceName} {ips : List IpAddr} {svc : LbService}

theorem applied_self : (s.applied k ips svc).entry k =
    { (s.entry k).write (svc.appendIngress ips) with given := (s.entry k).given ++ ips } := by
  unfold Cluster.applied
  rw [entry_setEntry, if_pos rfl]

theorem applied_other (hne : k' ≠ k) : (s.applied k ips svc).entry k' = s.entry k' := by
  unfold Cluster.applied
  rw [entry_setEntry, if_neg hne]

/-- What is in an ingress afterwards was there before, or is one of the new addresses. -/
theorem mem_applied_ingress {ip : IpAddr}
    (hip : ip ∈ ((s.applied k ips (s.entry k).current).entry k').current.ingressIps) :
    ip ∈ (s.entry k').current.ingressIps ∨ k' = k ∧ ip ∈ ips := by
  by_cases heq : k' = k
  · subst heq
    rw [applied_self] at hip
    obtain hip | hip := List.mem_append.mp hip
    · exact Or.inl hip
    · exact Or.inr ⟨rfl, hip⟩
  · rw [applied_other heq] at hip
    exact Or.inl hip

end Applied

/-- New addresses of other families than the old ones leave one for each family. -/
theorem once_append {given ips : List IpAddr} {fam : IpFamily}
    (hgiven : (given.filter (·.family == fam)).length ≤ 1)
    (hips : (ips.filter (·.family == fam)).length ≤ 1)
    (hmissing : ∀ ip ∈ ips, ∀ g ∈ given, g.family ≠ ip.family) :
    ((given ++ ips).filter (·.family == fam)).length ≤ 1 := by
  rw [List.filter_append, List.length_append]
  by_cases hnone : ips.filter (·.family == fam) = []
  · rw [hnone, List.length_nil, Nat.add_zero]
    exact hgiven
  · obtain ⟨ip, hip⟩ := List.exists_mem_of_ne_nil _ hnone
    obtain ⟨hip, hfam⟩ := List.mem_filter.mp hip
    have hfam : ip.family = fam := beq_iff_eq.mp hfam
    have hempty : given.filter (·.family == fam) = [] := by
      refine List.filter_eq_nil_iff.mpr fun g hg => ?_
      have hdiff := hmissing ip hip g hg
      rw [hfam] at hdiff
      simpa using hdiff
    rw [hempty, List.length_nil, Nat.zero_add]
    exact hips

/-- The API server applies the append of the running pass. -/
theorem Inv.applied {ranges : List IpNet} {s : Cluster} (h : s.Inv ranges)
    {rest : List LbService} {a4 a6 : List IpAddr} {k : ServiceName} {ips : List IpAddr}
    {svc : LbService} {v : Nat} (hp : s.pass = some ⟨rest, a4, a6, some ⟨k, ips, some (svc, v)⟩⟩)
    (hv : v = (s.entry k).version) :
    Inv ranges { s.applied k ips svc with pass := some ⟨rest, a4, a6, none⟩ } := by
  obtain hidle | htrack := h.pass _ hp
  · cases hidle.quiet
  have hw := htrack.appending _ rfl
  have hsvc : svc = (s.entry k).current := (hw.fetched svc v rfl).2 hv
  subst hsvc
  have hsame : ∀ k', k' ≠ k → (s.applied k ips (s.entry k).current).entry k' = s.entry k' :=
    fun k' hne => applied_other hne
  refine ⟨⟨h.core.pools, ?_, ?_, ?_, ?_⟩, ?_⟩
  · intro k' hk'
    show Named k' ((s.applied k ips (s.entry k).current).entry k')
    by_cases heq : k' = k
    · subst heq
      have hname := h.core.named k' hk'
      rw [applied_self]
      refine ⟨hname.current, fun x hx => ?_, hname.cached⟩
      obtain hx | hx := List.mem_append.mp hx
      · exact hname.pending x hx
      · rw [List.mem_singleton.mp hx]
        exact hname.current
    · rw [hsame k' heq]
      exact h.core.named k' hk'
  · intro k' hk' ip hip
    replace hip : ip ∈ ((s.applied k ips (s.entry k).current).entry k').given := hip
    show ip ∈ ((s.applied k ips (s.entry k).current).entry k').current.ingressIps ∧ _
    by_cases heq : k' = k
    · subst heq
      rw [applied_self] at hip ⊢
      obtain hip | hip := List.mem_append.mp hip
      · obtain ⟨hin, hpool⟩ := h.core.given k' hk' ip hip
        exact ⟨List.mem_append_left _ hin, hpool⟩
      · exact ⟨List.mem_append_right _ hip, (hw.pool ip hip).1⟩
    · rw [hsame k' heq] at hip ⊢
      exact h.core.given k' hk' ip hip
  · intro k₁ hk₁ k₂ hk₂ hne ip hpool hip₁ hip₂
    obtain hold₁ | ⟨rfl, hnew₁⟩ := mem_applied_ingress hip₁
    · obtain hold₂ | ⟨rfl, hnew₂⟩ := mem_applied_ingress hip₂
      · exact h.core.apart k₁ hk₁ k₂ hk₂ hne ip hpool hold₁ hold₂
      · exact hw.unused ip hnew₂ k₁ hk₁ hold₁
    · obtain hold₂ | ⟨rfl, hnew₂⟩ := mem_applied_ingress hip₂
      · exact hw.unused ip hnew₁ k₂ hk₂ hold₂
      · exact hne rfl
  · intro k' hk' fam
    show (((s.applied k ips (s.entry k).current).entry k').given.filter _).length ≤ 1
    by_cases heq : k' = k
    · subst heq
      rw [applied_self]
      exact once_append (h.core.once k' hk' fam) (hw.once fam) hw.missing
    · rw [hsame k' heq]
      exact h.core.once k' hk' fam
  · intro p hp'
    cases hp'
    refine Or.inr ⟨?_, htrack.known, ?_, htrack.distinct, fun w hw => by cases hw⟩
    · intro k' hk' ip hip hpool
      obtain hold | ⟨rfl, hnew⟩ := mem_applied_ingress hip
      · exact htrack.seen k' hk' ip hold hpool
      · exact (hw.pool ip hnew).2
    · intro x hx ip hip
      replace hip : ip ∈ ((s.applied k ips (s.entry k).current).entry x.key).given := hip
      rw [hsame x.key (hw.handled x hx)] at hip
      exact htrack.shows x hx ip hip

/-- One step keeps the invariant, as long as a pass starts informed. -/
theorem Inv.step {ranges : List IpNet} {s t : Cluster} {a : Act} (h : s.Inv ranges)
    (hinformed : s.StartsInformed ranges a) (hstep : s.step a = some t) : t.Inv ranges := by
  cases a with
  | create svc =>
    simp only [Cluster.step] at hstep
    split at hstep
    · next hnew =>
      cases hstep
      exact h.create hnew.1 hnew.2
    · cases hstep
  | edit svc =>
    simp only [Cluster.step] at hstep
    split at hstep
    · next hold =>
      cases hstep
      have hname := h.core.named svc.key hold.1
      refine h.setEntry (Kept.write _ hold.2) ⟨rfl, fun x hx => ?_, hname.cached⟩
      obtain hx | hx := List.mem_append.mp hx
      · exact hname.pending x hx
      · rw [List.mem_singleton.mp hx]
    · cases hstep
  | deliver k =>
    simp only [Cluster.step] at hstep
    split at hstep
    · cases hstep
    · next svc rest hpending =>
      split at hstep
      · next hk =>
        cases hstep
        have hname := h.core.named k hk
        rw [show (s.entry k) =
          { s.entry k with pending := svc :: rest } by rw [← hpending]] at hname
        refine h.setEntry ⟨rfl, rfl, Nat.le_refl _, fun _ => rfl⟩ ⟨hname.current, ?_, ?_⟩
        · intro x hx
          exact hname.pending x (List.mem_cons_of_mem _ hx)
        · intro x hx
          cases hx
          exact hname.pending svc (List.mem_cons_self ..)
      · cases hstep
  | beginPass order =>
    simp only [Cluster.step] at hstep
    split at hstep
    · next hstart =>
      cases hstep
      exact h.beginPass hstart.2 hinformed
    · cases hstep
  | plan =>
    simp only [Cluster.step] at hstep
    split at hstep
    · next svc rest a4 a6 hp =>
      cases hstep
      exact h.planNext hp
    · cases hstep
  | getStatus =>
    simp only [Cluster.step] at hstep
    split at hstep
    · next rest a4 a6 k ips hp =>
      cases hstep
      exact h.getStatus hp
    · cases hstep
  | getStatusFails =>
    simp only [Cluster.step] at hstep
    split at hstep
    · cases hstep
      exact h.abort
    · cases hstep
  | replaceStatus =>
    simp only [Cluster.step] at hstep
    split at hstep
    · next rest a4 a6 k ips svc v hp =>
      split at hstep
      · next hv =>
        cases hstep
        exact h.applied hp hv
      · cases hstep
        exact h.abort
    · cases hstep
  | replaceStatusFails isApplied =>
    simp only [Cluster.step] at hstep
    split at hstep
    · next rest a4 a6 k ips svc v hp =>
      split at hstep
      · next hv =>
        cases hstep
        exact (h.applied hp hv.2).abort
      · cases hstep
        exact h.abort
    · cases hstep
  | endPass =>
    simp only [Cluster.step] at hstep
    split at hstep
    · cases hstep
      exact h.abort
    · cases hstep

end Cluster

/-- After every run whose passes all start informed, no pool address is in the ingress of two
services and no service was given two addresses of one family. -/
theorem assignments_exclusive (ranges : List IpNet) (s t : Cluster) (acts : List Act)
    (h0 : s.Initial ranges) (hrun : System.run Cluster.step s acts = some t)
    (hinformed : System.Meets Cluster.step (Cluster.StartsInformed ranges) s acts) :
    t.NoShare ranges ∧ t.OnePerFamily := by
  have hinv : t.Inv ranges := System.run_invariant (I := Cluster.Inv ranges)
    (C := Cluster.StartsInformed ranges) (fun u a v hu hC hstep => hu.step hC hstep)
    (Cluster.inv_init h0) hinformed hrun
  exact ⟨hinv.core.apart, hinv.core.once⟩

/-! ## A pass that starts too early -/

section Sample

/-- 172.16.0.0/30. -/
def lbPool : List IpNet := [⟨.ofOctets 172 16 0 0, 30, by decide⟩]

/-- A LoadBalancer service without an address. -/
def lbService (name : String) : LbService where
  ns := "default"
  name := name
  isLoadbalancer := true
  loadbalancerClass := none
  wantV4 := true
  wantV6 := false
  requireDual := false
  externalIps := []
  ingressIps := []

/-- One service, known to the cache. -/
def oneService : Cluster where
  known := [(lbService "web").key]
  entry := fun _ => { Entry.created (lbService "web") with
    pending := [], cached := some (lbService "web") }
  pools := .new lbPool
  isDefault := true
  pass := none

theorem oneService_initial : oneService.Initial lbPool where
  pools := rfl
  pass := rfl
  named := by
    intro k hk
    rw [List.mem_singleton.mp hk]
    exact ⟨rfl, fun _ h => (List.not_mem_nil h).elim, fun _ h => by cases h; rfl⟩
  given := fun _ _ => rfl
  apart := by
    intro k hk k' hk' hne
    rw [List.mem_singleton.mp hk, List.mem_singleton.mp hk'] at hne
    exact absurd rfl hne

/-- A pass that handles `order` and appends an address to its first service. -/
def firstOf (order : List String) : List Act :=
  [.beginPass (order.map fun name => (lbService name).key), .plan, .getStatus, .replaceStatus]

/-- Both services get an address; the first one's reaches the cache before the second pass. -/
def delivered : List Act :=
  firstOf ["web"] ++ [.endPass, .deliver (lbService "web").key, .create (lbService "api"),
    .deliver (lbService "api").key] ++ firstOf ["api", "web"]

/-- As before, but the second pass does not wait for the cache. -/
def undelivered : List Act :=
  firstOf ["web"] ++ [.endPass, .create (lbService "api"), .deliver (lbService "api").key] ++
    firstOf ["api", "web"]

end Sample

theorem delivered_exclusive : ∃ t, System.run Cluster.step oneService delivered = some t ∧
    t.NoShare lbPool ∧ t.OnePerFamily := by
  have hrun : (System.run Cluster.step oneService delivered).isSome = true := by decide +kernel
  obtain ⟨t, ht⟩ := Option.isSome_iff_exists.mp hrun
  exact ⟨t, ht, assignments_exclusive lbPool oneService t delivered oneService_initial ht
    (by decide +kernel)⟩

theorem address_assigned_twice :
    ¬∀ (ranges : List IpNet) (s t : Cluster) (acts : List Act), s.Initial ranges →
      System.run Cluster.step s acts = some t → t.NoShare ranges ∧ t.OnePerFamily := by
  intro h
  have hrun : (System.run Cluster.step oneService undelivered).isSome = true := by decide +kernel
  obtain ⟨t, ht⟩ := Option.isSome_iff_exists.mp hrun
  have hboth : (System.run Cluster.step oneService undelivered).map (fun t =>
      (t.known, (t.entry (lbService "web").key).current.ingressIps,
        (t.entry (lbService "api").key).current.ingressIps)) =
      some ([(lbService "api").key, (lbService "web").key], [.ofOctets 172 16 0 0],
        [.ofOctets 172 16 0 0]) := by
    decide +kernel
  rw [ht] at hboth
  obtain ⟨hknown, hweb, hapi⟩ : t.known = _ ∧ _ = _ ∧ _ = _ := by
    simpa only [Option.map_some, Option.some.injEq, Prod.mk.injEq] using hboth
  have hshare := (h lbPool oneService t undelivered oneService_initial ht).1
    (lbService "web").key (by rw [hknown]; decide) (lbService "api").key
    (by rw [hknown]; decide) (by decide) (.ofOctets 172 16 0 0) (by decide)
  rw [hweb, hapi] at hshare
  exact absurd (List.mem_singleton_self _) (hshare (List.mem_singleton_self _))

end KubeRouter.Lballoc
