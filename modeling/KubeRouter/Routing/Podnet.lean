/-
  Pod-network routes on a flat network (`routing/src/podnet.rs`).

  A pass compares whole routes with those of the previous pass, replaces the new ones first and
  then deletes the old ones, while the kernel tells routes apart by destination and table only.

  Proved:
  * `podRoutes_converge_iff`: over every run of passes without failures, the kernel holds the
    desired routes after every pass if and only if no pod CIDR changes its next hop from one
    snapshot to the next.
  * `moved_node_unreachable`: a node that gets a new address loses its route.
-/
import Mathlib.Data.List.Pairwise
import KubeRouter.Routing.Netlink

namespace KubeRouter.Routing

open Program

/-! ## Passes -/

/-- A node's routing attributes. -/
structure NodeRoute where
  name : String
  ip : IpAddr
  podCidrs : List IpNet
deriving DecidableEq, Repr

def desiredPodRoutes (localName : String) (nodes : List NodeRoute) : List Route :=
  nodes.flatMap fun n =>
    if n.name = localName then []
    else n.podCidrs.map fun cidr => { dst := cidr, gateway := some n.ip, table := mainTable }

/-- The controller's record and the kernel. -/
structure PodNet where
  applied : List Route := []
  kernel : Remote (List Route) := { state := [] }
deriving DecidableEq, Repr

/-- The two loops of `reconcile`. -/
def applyDiff (fails : Nat → Option NetlinkError) (toAdd toDel : List Route) :
    Prog (Remote (List Route)) NetlinkError PUnit := do
  toAdd.forM fun r => call applyNetlink fails (.routeReplace r)
  toDel.forM fun r => call applyNetlink fails (.routeDel r)

/-- `PodNetController::reconcile`: the record is replaced when every call succeeded. -/
def reconcile (fails : Nat → Option NetlinkError) (localName : String) (s : PodNet)
    (nodes : List NodeRoute) : Except NetlinkError (Nat × Nat) × PodNet :=
  let desired := desiredPodRoutes localName nodes
  let toAdd := desired.filter fun r => !s.applied.contains r
  let toDel := s.applied.filter fun r => !desired.contains r
  match Prog.exec (applyDiff fails toAdd toDel) s.kernel with
  | (.ok _, kernel) => (.ok (toAdd.length, toDel.length), { applied := desired, kernel := kernel })
  | (.error e, kernel) => (.error e, { s with kernel := kernel })

/-- Within one snapshot, distinct nodes have distinct pod CIDRs. -/
def DistinctCidrs (nodes : List NodeRoute) : Prop :=
  nodes.Pairwise fun n m => ∀ cidr ∈ n.podCidrs, cidr ∉ m.podCidrs

theorem mem_desiredPodRoutes {localName : String} {nodes : List NodeRoute} {r : Route} :
    r ∈ desiredPodRoutes localName nodes ↔ ∃ n ∈ nodes, n.name ≠ localName ∧
      r.dst ∈ n.podCidrs ∧ r.gateway = some n.ip ∧ r.table = mainTable := by
  unfold desiredPodRoutes
  rw [List.mem_flatMap]
  constructor
  · intro ⟨n, hn, hr⟩
    split at hr
    · cases hr
    · next hother =>
      obtain ⟨cidr, hcidr, rfl⟩ := List.mem_map.mp hr
      exact ⟨n, hn, hother, hcidr, rfl, rfl⟩
  · intro ⟨n, hn, hother, hcidr, hgw, htable⟩
    refine ⟨n, hn, ?_⟩
    rw [if_neg hother]
    refine List.mem_map.mpr ⟨r.dst, hcidr, ?_⟩
    rw [← hgw, ← htable]

theorem eq_of_shared_cidr {nodes : List NodeRoute} (h : DistinctCidrs nodes) {n m : NodeRoute}
    (hn : n ∈ nodes) (hm : m ∈ nodes) {cidr : IpNet} (hcn : cidr ∈ n.podCidrs)
    (hcm : cidr ∈ m.podCidrs) : n = m := by
  by_contra hne
  have : Std.Symm fun x y : NodeRoute => ∀ c ∈ x.podCidrs, c ∉ y.podCidrs :=
    ⟨fun x y hxy c hc hc' => hxy c hc' hc⟩
  exact List.Pairwise.forall h hn hm hne cidr hcn hcm

theorem oneHop_desired (localName : String) {nodes : List NodeRoute} (h : DistinctCidrs nodes) :
    OneHop (desiredPodRoutes localName nodes) := by
  intro r hr r' hr' hkey
  obtain ⟨n, hn, _, hdst, hgw, htable⟩ := mem_desiredPodRoutes.mp hr
  obtain ⟨m, hm, _, hdst', hgw', htable'⟩ := mem_desiredPodRoutes.mp hr'
  have hsame : r.dst = r'.dst := (Route.sameKey_iff.mp hkey).1
  rw [← hsame] at hdst'
  have hnm : n = m := eq_of_shared_cidr h hn hm hdst hdst'
  subst hnm
  cases r
  cases r'
  simp_all

/-! ## Convergence -/

/-- The kernel holds exactly the desired routes. -/
def Converged (localName : String) (s : PodNet) (nodes : List NodeRoute) : Prop :=
  ∀ r, r ∈ s.kernel.state ↔ r ∈ desiredPodRoutes localName nodes

/-- Record and kernel agree on the routes `desired`. -/
structure InSync (s : PodNet) (desired : List Route) : Prop where
  applied : s.applied = desired
  kernel : ∀ r, r ∈ s.kernel.state ↔ r ∈ desired

/-- No destination has one next hop in `old` and another one in `new`. -/
def SameHops (old new : List Route) : Prop :=
  ∀ r ∈ old, ∀ r' ∈ new, r.sameKey r' = true → r = r'

/-- No pod CIDR of another node changes its next hop between two snapshots. -/
def KeepsHops (localName : String) (old new : List NodeRoute) : Prop :=
  ∀ n ∈ old, ∀ m ∈ new, n.name ≠ localName → m.name ≠ localName →
    ∀ cidr ∈ n.podCidrs, cidr ∈ m.podCidrs → n.ip = m.ip

theorem sameHops_iff_keepsHops {localName : String} {old new : List NodeRoute} :
    SameHops (desiredPodRoutes localName old) (desiredPodRoutes localName new) ↔
      KeepsHops localName old new := by
  constructor
  · intro h n hn m hm hnl hml cidr hcn hcm
    have hr : (⟨cidr, some n.ip, mainTable⟩ : Route) ∈ desiredPodRoutes localName old :=
      mem_desiredPodRoutes.mpr ⟨n, hn, hnl, hcn, rfl, rfl⟩
    have hr' : (⟨cidr, some m.ip, mainTable⟩ : Route) ∈ desiredPodRoutes localName new :=
      mem_desiredPodRoutes.mpr ⟨m, hm, hml, hcm, rfl, rfl⟩
    have heq := h _ hr _ hr' (Route.sameKey_iff.mpr ⟨rfl, rfl⟩)
    exact Option.some.inj (congrArg Route.gateway heq)
  · intro h r hr r' hr' hkey
    obtain ⟨n, hn, hnl, hdst, hgw, htable⟩ := mem_desiredPodRoutes.mp hr
    obtain ⟨m, hm, hml, hdst', hgw', htable'⟩ := mem_desiredPodRoutes.mp hr'
    have hsame : r.dst = r'.dst := (Route.sameKey_iff.mp hkey).1
    have hip : n.ip = m.ip := h n hn m hm hnl hml r.dst hdst (hsame ▸ hdst')
    cases r
    cases r'
    simp_all

/-- A pass without failures runs through both loops. -/
theorem reconcile_reliable (localName : String) (s : PodNet) (nodes : List NodeRoute) :
    let desired := desiredPodRoutes localName nodes
    let toAdd := desired.filter fun r => !s.applied.contains r
    let toDel := s.applied.filter fun r => !desired.contains r
    let after := reconcile reliable localName s nodes
    after.1 = .ok (toAdd.length, toDel.length) ∧ after.2.applied = desired ∧
      after.2.kernel.state = (toAdd.map NetlinkCall.routeReplace ++
        toDel.map NetlinkCall.routeDel).foldl applyNetlink s.kernel.state := by
  intro desired toAdd toDel
  have hcall := takes_call_ok applyNetlink reliable fun _ => rfl
  have hscript := script_done applyNetlink
  have hdiff : Takes (Done applyNetlink) (fun _ _ _ => False) (applyDiff reliable toAdd toDel)
      (toAdd.map NetlinkCall.routeReplace ++ toDel.map NetlinkCall.routeDel) :=
    Takes.bind hscript (takes_forM_call _ _ hscript hcall _ toAdd)
      (takes_forM_call _ _ hscript hcall _ toDel)
  have hwp := hdiff s.kernel
  unfold wp at hwp
  dsimp only
  unfold reconcile
  dsimp only
  split at hwp
  · next kernel hexec =>
    rw [hexec]
    exact ⟨rfl, rfl, hwp⟩
  · exact hwp.elim

/-- One pass from a converged state converges exactly when no next hop changes. -/
theorem converged_step_iff {localName : String} {s : PodNet} {old : List Route}
    {nodes : List NodeRoute} (hs : InSync s old) (hold : OneHop old)
    (hnew : OneHop (desiredPodRoutes localName nodes)) :
    Converged localName (reconcile reliable localName s nodes).2 nodes ↔
      SameHops old (desiredPodRoutes localName nodes) := by
  obtain ⟨_, _, hkernel⟩ := reconcile_reliable localName s nodes
  unfold Converged
  rw [hkernel, hs.applied]
  have hadd : ∀ r, r ∈ (desiredPodRoutes localName nodes).filter (fun r => !old.contains r) ↔
      r ∈ desiredPodRoutes localName nodes ∧ r ∉ old := by
    intro r
    simp
  have hdel : ∀ r, r ∈ old.filter (fun r => !(desiredPodRoutes localName nodes).contains r) ↔
      r ∈ old ∧ r ∉ desiredPodRoutes localName nodes := by
    intro r
    simp
  have honeAdd : OneHop ((desiredPodRoutes localName nodes).filter fun r => !old.contains r) :=
    fun r hr r' hr' => hnew r ((hadd r).mp hr).1 r' ((hadd r').mp hr').1
  simp only [List.foldl_append, mem_delAll, mem_replaceAll honeAdd, hs.kernel, hadd, hdel]
  constructor
  · -- a route whose next hop changed is replaced and then deleted
    intro hconv r hr r' hr' hkey
    by_contra hne
    have hr'old : r' ∉ old := fun h => hne (hold r hr r' h hkey)
    have hrnew : r ∉ desiredPodRoutes localName nodes := fun h => hne (hnew r h r' hr' hkey)
    have hkept := ((hconv r').mpr hr').2 r ⟨hr, hrnew⟩
    have hkey' : r'.sameKey r = true := by
      obtain ⟨hd, ht⟩ := Route.sameKey_iff.mp hkey
      exact Route.sameKey_iff.mpr ⟨hd.symm, ht.symm⟩
    rw [hkey'] at hkept
    cases hkept
  · intro hsame r
    constructor
    · intro ⟨hin, hkept⟩
      obtain h | ⟨h, _⟩ := hin
      · exact h.1
      · by_contra hnot
        have hself := hkept r ⟨h, hnot⟩
        rw [Route.sameKey_self] at hself
        cases hself
    · intro hr
      refine ⟨?_, fun d hd => ?_⟩
      · by_cases hin : r ∈ old
        · refine Or.inr ⟨hin, fun a ha => ?_⟩
          by_contra hkey
          have heq := hnew r hr a ha.1 (by simpa using hkey)
          exact ha.2 (heq ▸ hin)
        · exact Or.inl ⟨hr, hin⟩
      · by_contra hkey
        have hkey : r.sameKey d = true := by simpa using hkey
        obtain ⟨hdst, htable⟩ := Route.sameKey_iff.mp hkey
        have heq := hsame d hd.1 r hr (Route.sameKey_iff.mpr ⟨hdst.symm, htable.symm⟩)
        exact hd.2 (heq ▸ hr)

/-- `P` holds after every pass of a run over the snapshots, of the state reached and the
snapshot just handled. -/
def AfterEvery (localName : String) (P : PodNet → List NodeRoute → Prop) :
    PodNet → List (List NodeRoute) → Prop
  | _, [] => True
  | s, nodes :: snapshots =>
    P (reconcile reliable localName s nodes).2 nodes ∧
      AfterEvery localName P (reconcile reliable localName s nodes).2 snapshots

/-- From a converged state, all passes of a run converge exactly when no next hop changes from
one snapshot to the next. -/
theorem afterEvery_converged_iff {localName : String} {s : PodNet} {old : List NodeRoute}
    (hs : InSync s (desiredPodRoutes localName old)) (hold : DistinctCidrs old)
    (snapshots : List (List NodeRoute)) (hdistinct : ∀ nodes ∈ snapshots, DistinctCidrs nodes) :
    AfterEvery localName (Converged localName) s snapshots ↔
      (old :: snapshots).IsChain (KeepsHops localName) := by
  induction snapshots generalizing s old with
  | nil => simp [AfterEvery]
  | cons nodes snapshots ih =>
    have hnodes := hdistinct nodes List.mem_cons_self
    have hstep : Converged localName (reconcile reliable localName s nodes).2 nodes ↔
        SameHops (desiredPodRoutes localName old) (desiredPodRoutes localName nodes) :=
      converged_step_iff hs (oneHop_desired localName hold) (oneHop_desired localName hnodes)
    have happlied := (reconcile_reliable localName s nodes).2.1
    show Converged localName (reconcile reliable localName s nodes).2 nodes ∧
      AfterEvery localName (Converged localName) _ snapshots ↔ _
    rw [List.isChain_cons_cons, ← sameHops_iff_keepsHops, hstep]
    constructor
    · intro ⟨hsame, hrest⟩
      exact ⟨hsame, (ih ⟨happlied, hstep.mpr hsame⟩ hnodes
        fun n hn => hdistinct n (List.mem_cons_of_mem _ hn)).mp hrest⟩
    · intro ⟨hsame, hrest⟩
      exact ⟨hsame, (ih ⟨happlied, hstep.mpr hsame⟩ hnodes
        fun n hn => hdistinct n (List.mem_cons_of_mem _ hn)).mpr hrest⟩

/-- The kernel's routes are the desired ones after every pass of a run without failures if and
only if no pod CIDR changes its next hop from one snapshot to the next. -/
theorem podRoutes_converge_iff (localName : String) (snapshots : List (List NodeRoute))
    (hdistinct : ∀ nodes ∈ snapshots, DistinctCidrs nodes) :
    AfterEvery localName (Converged localName) {} snapshots ↔
      snapshots.IsChain (KeepsHops localName) := by
  -- the controller starts as after a pass over no nodes
  have hstart : InSync {} (desiredPodRoutes localName []) := ⟨rfl, fun _ => Iff.rfl⟩
  rw [afterEvery_converged_iff hstart List.Pairwise.nil snapshots hdistinct]
  cases snapshots with
  | nil => simp
  | cons nodes snapshots =>
    rw [List.isChain_cons_cons]
    refine and_iff_right ?_
    intro n hn
    exact absurd hn List.not_mem_nil

/-! ## A node that moves -/

section Sample

theorem podCidr_len : 24 ≤ (IpAddr.ofOctets 10 244 1 0).bits := by decide

/-- 10.244.1.0/24. -/
def podCidr : IpNet := ⟨.ofOctets 10 244 1 0, 24, podCidr_len⟩

def nodeB (ip : IpAddr) : NodeRoute where
  name := "b"
  ip := ip
  podCidrs := [podCidr]

/-- Node `b` leaves and comes back with another address. -/
def leavesFirst : List (List NodeRoute) :=
  [[nodeB (.ofOctets 192 168 32 4)], [], [nodeB (.ofOctets 192 168 32 9)]]

/-- Node `b` gets another address. -/
def moves : List (List NodeRoute) :=
  [[nodeB (.ofOctets 192 168 32 4)], [nodeB (.ofOctets 192 168 32 9)]]

theorem distinct_nodeB (ip : IpAddr) : DistinctCidrs [nodeB ip] := List.pairwise_singleton _ _

end Sample

theorem leavesFirst_converges : AfterEvery "a" (Converged "a") {} leavesFirst := by
  have hdistinct : ∀ nodes ∈ leavesFirst, DistinctCidrs nodes := by
    refine List.forall_mem_cons.mpr ⟨distinct_nodeB _, List.forall_mem_cons.mpr
      ⟨List.Pairwise.nil, List.forall_mem_singleton.mpr (distinct_nodeB _)⟩⟩
  refine (podRoutes_converge_iff "a" leavesFirst hdistinct).mpr ?_
  unfold leavesFirst KeepsHops
  decide +kernel

theorem moved_node_unreachable :
    ¬∀ (localName : String) (snapshots : List (List NodeRoute)),
      (∀ nodes ∈ snapshots, DistinctCidrs nodes) →
        AfterEvery localName (Converged localName) {} snapshots := by
  intro h
  have hdistinct : ∀ nodes ∈ moves, DistinctCidrs nodes :=
    List.forall_mem_cons.mpr ⟨distinct_nodeB _, List.forall_mem_singleton.mpr (distinct_nodeB _)⟩
  have hlast := (h "a" moves hdistinct).2.1
    { dst := podCidr, gateway := some (.ofOctets 192 168 32 9), table := mainTable }
  revert hlast
  decide +kernel

end KubeRouter.Routing
