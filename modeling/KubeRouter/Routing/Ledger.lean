/-
  The injector's state map as the account of what it has installed (`RouteInjector` in
  `routing/src/inject.rs`), over runs in which any netlink call may fail.

  An install changes the map behind its call, a removal in front of it. So a `route_replace` that
  fails leaves map and kernel as they were, while a `route_del` that fails leaves a route in the
  kernel that the map no longer knows: no later withdrawal and no sync acts on it.

  The kernel may hold any routes of others. `own` is the table that the injector's calls alone
  leave, which is what it has installed and not deleted.

  Proved:
  * `accounts_iff`: over every run of events and syncs with any calls failing, the map accounts
    for every installed route after every call, and the kernel has the routes of the map after
    every successful sync, if and only if no `route_del` of a recorded route fails.
  * `failed_delete_forgotten`: a withdrawal whose `route_del` fails.
-/
import KubeRouter.Routing.Inject

namespace KubeRouter.Routing

open Program

/-! ## Runs -/

/-- `RouteInjector::new` with `with_import_reject`. -/
def RouteInjector.new (localSubnets : List IpNet) (overlay : OverlayType) (table : Nat)
    (importReject : List IpNet) : RouteInjector :=
  { localSubnets := localSubnets, overlay := overlay, table := table, importReject := importReject }

/-- A call of the injector. -/
inductive InjectCall where
  | onEvent (ev : PathEvent)
  | sync
deriving DecidableEq, Repr

def Injection.apply (fails : Nat → Option NetlinkError) (s : Injection) :
    InjectCall → Except NetlinkError PUnit × Injection
  | .onEvent ev => s.onEvent fails ev
  | .sync => s.sync fails

/-- An injector, the kernel and the table its own calls leave. -/
structure Ledger where
  injection : Injection
  own : List Route := []

namespace Ledger

variable (fails : Nat → Option NetlinkError)

/-- The same injector over a kernel that holds nothing but its own routes. -/
def alone (s : Ledger) : Injection :=
  { s.injection with kernel := { s.injection.kernel with state := s.own } }

def apply (s : Ledger) (c : InjectCall) : Except NetlinkError PUnit × Ledger :=
  let (res, injection) := s.injection.apply fails c
  (res, { injection := injection, own := (s.alone.apply fails c).2.kernel.state })

def run (s : Ledger) (calls : List InjectCall) : Ledger :=
  calls.foldl (fun s c => (s.apply fails c).2) s

/-- Every route installed and not deleted is in the map, with the installed next hop. -/
def Accounted (s : Ledger) : Prop :=
  ∀ r ∈ s.own, ∃ ir, s.injection.inj.routes[r.dst]? = some ir ∧ ir.route = r

/-- The kernel has every route of the map. -/
def Holds (s : Ledger) : Prop :=
  ∀ (p : IpNet) (ir : InjectedRoute), s.injection.inj.routes[p]? = some ir →
    ir.route ∈ s.injection.kernel.state

/-- The event takes its prefix's route out of the map. -/
def Removes (s : Ledger) : InjectCall → Prop
  | .onEvent ev => (ev.withdrawal || isRejected s.injection.inj.importReject ev.pfx) = true ∧
      (s.injection.inj.routes[ev.pfx]?).isSome = true
  | .sync => False

/-- A recorded route is deleted without failure. -/
def Deletes (s : Ledger) (c : InjectCall) : Prop :=
  s.Removes c → fails s.injection.kernel.calls = none

/-! ## One call -/

/-- What a call does to map and own table, with its reason. -/
inductive Effect (s : Ledger) : InjectCall → RouteInjector → List Route → Prop
  /-- Nothing to remove, or an install that failed. -/
  | idle (c : InjectCall) (hkeep : ¬s.Removes c) : Effect s c s.injection.inj s.own
  | removed (ev : PathEvent) (ir : InjectedRoute) (hok : fails s.injection.kernel.calls = none)
      (hir : s.injection.inj.routes[ev.pfx]? = some ir) :
      Effect s (.onEvent ev)
        { s.injection.inj with routes := s.injection.inj.routes.erase ev.pfx }
        (applyNetlink s.own (.routeDel ir.route))
  /-- Taken out of the map, but the `route_del` failed. -/
  | lost (ev : PathEvent) (ir : InjectedRoute) (hlost : ¬s.Deletes fails (.onEvent ev))
      (hir : s.injection.inj.routes[ev.pfx]? = some ir) :
      Effect s (.onEvent ev)
        { s.injection.inj with routes := s.injection.inj.routes.erase ev.pfx } s.own
  | installed (ev : PathEvent) (ir : InjectedRoute) (hkeep : ¬s.Removes (.onEvent ev))
      (hroute : ir.route = ⟨ev.pfx, some ev.nextHop, s.injection.inj.table⟩) :
      Effect s (.onEvent ev)
        { s.injection.inj with routes := s.injection.inj.routes.insert ev.pfx ir }
        (applyNetlink s.own (.routeReplace ir.route))
  /-- A first part of the routes was installed again. -/
  | synced (pre : List Route) (hpre : pre <+: s.injection.inj.routes.toList.map (·.2.route)) :
      Effect s .sync s.injection.inj ((pre.map .routeReplace).foldl applyNetlink s.own)

theorem drop_effect (s : Ledger) {ev : PathEvent}
    (hdrop : (ev.withdrawal || isRejected s.injection.inj.importReject ev.pfx) = true) :
    Effect fails s (.onEvent ev) (s.injection.dropRoute fails ev.pfx).2.inj
      (s.alone.dropRoute fails ev.pfx).2.kernel.state := by
  unfold Injection.dropRoute
  rw [show s.alone.inj = s.injection.inj from rfl]
  cases hir : s.injection.inj.routes[ev.pfx]? with
  | none =>
    refine .idle _ fun hremoves => ?_
    have hsome := hremoves.2
    rw [hir] at hsome
    cases hsome
  | some ir =>
    dsimp only
    rw [exec_call, show s.alone.kernel = { s.injection.kernel with state := s.own } from rfl]
    cases hfail : fails s.injection.kernel.calls with
    | none => exact .removed ev ir hfail hir
    | some e =>
      refine .lost ev ir (fun hdeletes => ?_) hir
      have hnone := hdeletes ⟨hdrop, by rw [hir]; rfl⟩
      rw [hfail] at hnone
      cases hnone

theorem install_effect (s : Ledger) {ev : PathEvent}
    (hkeep : ¬s.Removes (.onEvent ev))
    (hwithdrawal : ev.withdrawal = false)
    (hrejected : isRejected s.injection.inj.importReject ev.pfx = false) :
    Effect fails s (.onEvent ev) (s.injection.onEvent fails ev).2.inj
      (s.alone.onEvent fails ev).2.kernel.state := by
  have halone : s.alone.inj = s.injection.inj ∧
      s.alone.kernel = { s.injection.kernel with state := s.own } := ⟨rfl, rfl⟩
  simp only [Injection.onEvent, halone, hwithdrawal, hrejected, Bool.false_eq_true, if_false,
    exec_call]
  cases hfail : fails s.injection.kernel.calls with
  | none => exact .installed ev _ hkeep rfl
  | some e => exact .idle _ hkeep

theorem sync_effect (s : Ledger) :
    Effect fails s .sync (s.injection.sync fails).2.inj (s.alone.sync fails).2.kernel.state := by
  have htakes := takes_forM_call applyNetlink fails (script_done_cut applyNetlink)
    (takes_call applyNetlink fails) NetlinkCall.routeReplace
    (s.injection.inj.routes.toList.map (·.2.route)) s.alone.kernel
  have hcut : Cut applyNetlink s.alone.kernel (s.alone.sync fails).2.kernel
      ((s.injection.inj.routes.toList.map (·.2.route)).map .routeReplace) :=
    wp_state (P := fun t => Cut applyNetlink s.alone.kernel t _)
      (wp_mono htakes (fun _ t ht => ⟨_, List.prefix_rfl, ht⟩) (fun _ _ ht => ht))
  obtain ⟨pre, hpre, hstate⟩ := hcut
  obtain ⟨routes, hroutes, rfl⟩ := List.prefix_map_iff.mp hpre
  rw [hstate]
  exact .synced routes hroutes

theorem apply_effect (s : Ledger) (c : InjectCall) :
    Effect fails s c (s.apply fails c).2.injection.inj (s.apply fails c).2.own := by
  cases c with
  | sync => exact sync_effect fails s
  | onEvent ev =>
    show Effect fails s _ (s.injection.onEvent fails ev).2.inj
      (s.alone.onEvent fails ev).2.kernel.state
    cases hw : ev.withdrawal with
    | true =>
      have hdrop := @drop_effect fails s ev (by rw [hw]; rfl)
      simpa [Injection.onEvent, hw] using hdrop
    | false =>
      cases hr : isRejected s.injection.inj.importReject ev.pfx with
      | true =>
        have hdrop := @drop_effect fails s ev (by rw [hr, Bool.or_true])
        have hr' : isRejected s.alone.inj.importReject ev.pfx = true := hr
        simpa [Injection.onEvent, hw, hr, hr'] using hdrop
      | false =>
        refine install_effect fails s (fun hremoves => ?_) hw hr
        have hdrop := hremoves.1
        rw [hw, hr] at hdrop
        cases hdrop

/-! ## The invariant -/

/-- Map and own table hold the same routes, each under its own prefix. -/
structure Inv (s : Ledger) : Prop where
  keyed : ∀ (p : IpNet) (ir : InjectedRoute), s.injection.inj.routes[p]? = some ir →
    ir.route.dst = p ∧ ir.route.table = s.injection.inj.table
  own : ∀ r, r ∈ s.own ↔ ∃ ir, s.injection.inj.routes[r.dst]? = some ir ∧ ir.route = r

variable {fails}

theorem Inv.accounted {s : Ledger} (h : s.Inv) : s.Accounted := fun r hr => (h.own r).mp hr

/-- Routes of the map with one destination are one route. -/
theorem Inv.oneHop {s : Ledger} (h : s.Inv) {routes : List Route}
    (hroutes : ∀ r ∈ routes, r ∈ s.own) : OneHop routes := by
  intro r hr r' hr' hkey
  obtain ⟨ir, hir, hroute⟩ := (h.own r).mp (hroutes r hr)
  obtain ⟨ir', hir', hroute'⟩ := (h.own r').mp (hroutes r' hr')
  rw [(Route.sameKey_iff.mp hkey).1, hir'] at hir
  cases hir
  rw [← hroute, hroute']

theorem Inv.mem_own {s : Ledger} (h : s.Inv) {p : IpNet} {ir : InjectedRoute}
    (hir : s.injection.inj.routes[p]? = some ir) : ir.route ∈ s.own := by
  obtain ⟨hdst, -⟩ := h.keyed p ir hir
  exact (h.own ir.route).mpr ⟨ir, hdst.symm ▸ hir, rfl⟩

/-- The own routes stay what they are when some of them are installed again. -/
theorem Inv.mem_replaced {s : Ledger} (h : s.Inv) {pre : List Route} (hpre : ∀ r ∈ pre, r ∈ s.own)
    (r : Route) : r ∈ (pre.map .routeReplace).foldl applyNetlink s.own ↔ r ∈ s.own := by
  rw [mem_replaceAll (h.oneHop hpre)]
  constructor
  · intro hr
    exact hr.elim (hpre r) fun hr => hr.1
  · intro hr
    by_cases hin : r ∈ pre
    · exact Or.inl hin
    · refine Or.inr ⟨hr, fun a ha => ?_⟩
      by_contra hkey
      have heq := h.oneHop (fun x hx => hx) r hr a (hpre a ha) (by simpa using hkey)
      exact hin (heq ▸ ha)

theorem Inv.recorded_mem_own {s : Ledger} (h : s.Inv) {r : Route}
    (hr : r ∈ s.injection.inj.routes.toList.map (·.2.route)) : r ∈ s.own := by
  obtain ⟨⟨p, ir⟩, hp, rfl⟩ := List.mem_map.mp hr
  exact h.mem_own (Std.TreeMap.mem_toList_iff_getElem?_eq_some.mp hp)

theorem Inv.removed {s : Ledger} (h : s.Inv) {pfx : IpNet} {ir : InjectedRoute}
    (hir : s.injection.inj.routes[pfx]? = some ir) (kernel : Remote (List Route)) :
    Inv ⟨⟨{ s.injection.inj with routes := s.injection.inj.routes.erase pfx }, kernel⟩,
      applyNetlink s.own (.routeDel ir.route)⟩ := by
  have hget : ∀ p : IpNet, (s.injection.inj.routes.erase pfx)[p]? =
      if p = pfx then none else s.injection.inj.routes[p]? := by
    intro p
    rw [get_erase, Function.update_apply]
  obtain ⟨hdst, htable⟩ := h.keyed pfx ir hir
  refine ⟨fun p ir' hp => ?_, fun r => ?_⟩
  · dsimp only at hp
    rw [hget] at hp
    split at hp
    · cases hp
    · exact h.keyed p ir' hp
  · dsimp only
    rw [mem_routeDel, h.own, hget]
    by_cases hr : r.dst = pfx
    · -- the one route with this destination is the deleted one
      rw [if_pos hr]
      refine iff_of_false (fun hown => ?_) (by simp)
      obtain ⟨⟨ir', hir', rfl⟩, hkey⟩ := hown
      rw [hr, hir] at hir'
      cases hir'
      rw [Route.sameKey_self] at hkey
      cases hkey
    · rw [if_neg hr]
      refine and_iff_left ?_
      simp [Route.sameKey, hdst, hr]

theorem Inv.installed {s : Ledger} (h : s.Inv) {pfx : IpNet} {nextHop : IpAddr}
    {ir : InjectedRoute} (hroute : ir.route = ⟨pfx, some nextHop, s.injection.inj.table⟩)
    (kernel : Remote (List Route)) :
    Inv ⟨⟨{ s.injection.inj with routes := s.injection.inj.routes.insert pfx ir }, kernel⟩,
      applyNetlink s.own (.routeReplace ir.route)⟩ := by
  have hget : ∀ p : IpNet, (s.injection.inj.routes.insert pfx ir)[p]? =
      if p = pfx then some ir else s.injection.inj.routes[p]? := by
    intro p
    rw [get_insert, Function.update_apply]
  refine ⟨fun p ir' hp => ?_, fun r => ?_⟩
  · dsimp only at hp
    rw [hget] at hp
    split at hp
    · next heq =>
      cases hp
      rw [hroute]
      exact ⟨heq.symm, rfl⟩
    · exact h.keyed p ir' hp
  · dsimp only
    rw [mem_routeReplace, h.own, hget]
    by_cases hr : r.dst = pfx
    · -- the prefix's old route is replaced
      rw [if_pos hr]
      constructor
      · rintro (rfl | ⟨⟨ir', hir', rfl⟩, hkey⟩)
        · exact ⟨ir, rfl, rfl⟩
        · obtain ⟨hdst, htable⟩ := h.keyed _ ir' hir'
          rw [Bool.eq_false_iff, Ne, Route.sameKey_iff, hroute] at hkey
          exact absurd ⟨hr, htable⟩ hkey
      · rintro ⟨ir', hir', rfl⟩
        cases hir'
        exact Or.inl rfl
    · rw [if_neg hr]
      have hne : r ≠ ir.route := by
        rintro rfl
        rw [hroute] at hr
        exact hr rfl
      rw [or_iff_right hne]
      refine and_iff_left ?_
      simp [Route.sameKey, hroute, hr]

theorem Inv.step {s t : Ledger} {c : InjectCall} (h : s.Inv) (hdel : s.Deletes fails c)
    (heffect : Effect fails s c t.injection.inj t.own) : t.Inv := by
  obtain ⟨⟨inj, kernel⟩, own⟩ := t
  dsimp only at heffect
  cases heffect with
  | idle _ hkeep => exact ⟨h.keyed, h.own⟩
  | lost ev ir hlost hir => exact absurd hdel hlost
  | removed ev ir hok hir => exact h.removed hir kernel
  | installed ev ir hkeep hroute => exact h.installed hroute kernel
  | synced pre hpre =>
    refine ⟨h.keyed, fun r => ?_⟩
    have hmem : ∀ a ∈ pre, a ∈ s.own := fun a ha => h.recorded_mem_own (hpre.subset ha)
    exact (h.mem_replaced hmem r).trans (h.own r)

/-- A removal whose call fails leaves a route that the map does not know. -/
theorem Inv.lost {s t : Ledger} {c : InjectCall} (h : s.Inv) (hdel : ¬s.Deletes fails c)
    (heffect : Effect fails s c t.injection.inj t.own) : ¬t.Accounted := by
  obtain ⟨⟨inj, kernel⟩, own⟩ := t
  dsimp only at heffect
  have hremoves : s.Removes c := by
    by_contra hkeep
    exact hdel fun hremoves => absurd hremoves hkeep
  cases heffect with
  | idle _ hkeep => exact absurd hremoves hkeep
  | removed ev ir hok hir => exact absurd (fun _ => hok) hdel
  | installed ev ir hkeep hroute => exact absurd hremoves hkeep
  | synced pre hpre => exact hremoves.elim
  | lost ev ir hlost hir =>
    intro haccounted
    obtain ⟨ir', hir', -⟩ := haccounted ir.route (h.mem_own hir)
    dsimp only at hir'
    rw [(h.keyed ev.pfx ir hir).1, Std.TreeMap.getElem?_erase_self] at hir'
    cases hir'

/-- A sync that succeeds leaves every route of the map in the kernel. -/
theorem Inv.sync_holds {s : Ledger} (h : s.Inv) (hok : (s.apply fails .sync).1 = .ok ⟨⟩) :
    (s.apply fails .sync).2.Holds := by
  have htakes := takes_forM_call applyNetlink fails (script_done_cut applyNetlink)
    (takes_call applyNetlink fails) NetlinkCall.routeReplace
    (s.injection.inj.routes.toList.map (·.2.route)) s.injection.kernel
  have hdone : (s.apply fails .sync).2.injection.kernel.state =
      ((s.injection.inj.routes.toList.map (·.2.route)).map .routeReplace).foldl applyNetlink
        s.injection.kernel.state := wp_ok htakes hok
  intro p ir hir
  rw [hdone, mem_replaceAll (h.oneHop fun _ => h.recorded_mem_own)]
  have hmem := Std.TreeMap.mem_toList_iff_getElem?_eq_some.mpr hir
  exact Or.inl (List.mem_map.mpr ⟨(p, ir), hmem, rfl⟩)

/-! ## Runs -/

/-- The map accounts for every route after the call; a sync that succeeds leaves the routes of
the map in the kernel. -/
def Sound (fails : Nat → Option NetlinkError) (s : Ledger) (c : InjectCall) : Prop :=
  (s.apply fails c).2.Accounted ∧
    (c = .sync → (s.apply fails c).1 = .ok ⟨⟩ → (s.apply fails c).2.Holds)

theorem Inv.sound_iff {s : Ledger} (h : s.Inv) (c : InjectCall) :
    s.Sound fails c ↔ s.Deletes fails c := by
  constructor
  · intro hsound
    by_contra hdel
    exact h.lost hdel (apply_effect fails s c) hsound.1
  · intro hdel
    refine ⟨(h.step hdel (apply_effect fails s c)).accounted, ?_⟩
    rintro rfl hok
    exact h.sync_holds hok

theorem Inv.run {s : Ledger} (h : s.Inv) {calls : List InjectCall}
    (hdel : ∀ done c, done ++ [c] <+: calls → (s.run fails done).Deletes fails c) :
    (s.run fails calls).Inv := by
  induction calls using List.reverseRecOn with
  | nil => exact h
  | append_singleton calls c ih =>
    obtain ⟨hbefore, hlast⟩ := System.forall_prefix_concat.mp hdel
    unfold Ledger.run
    rw [List.foldl_append]
    exact (ih hbefore).step hlast (apply_effect fails _ c)

theorem Inv.sound_run_iff {s : Ledger} (h : s.Inv) (calls : List InjectCall) :
    (∀ done c, done ++ [c] <+: calls → (s.run fails done).Sound fails c) ↔
      ∀ done c, done ++ [c] <+: calls → (s.run fails done).Deletes fails c := by
  induction calls using List.reverseRecOn with
  | nil => simp
  | append_singleton calls c ih =>
    rw [System.forall_prefix_concat, System.forall_prefix_concat, ih]
    exact and_congr_right fun hbefore => (h.run hbefore).sound_iff c

theorem inv_new (localSubnets : List IpNet) (overlay : OverlayType) (table : Nat)
    (importReject : List IpNet) (kernel : Remote (List Route)) :
    Inv ⟨⟨.new localSubnets overlay table importReject, kernel⟩, []⟩ := by
  refine ⟨fun p ir hir => ?_, fun r => ?_⟩
  · simp [RouteInjector.new] at hir
  · simp [RouteInjector.new]

end Ledger

/-- Over a kernel with any routes and any calls failing: after every call of every run the map
accounts for the routes installed, and after every successful sync the kernel has the routes of
the map, if and only if the deletes of recorded routes succeed. -/
theorem accounts_iff (fails : Nat → Option NetlinkError) (localSubnets : List IpNet)
    (overlay : OverlayType) (table : Nat) (importReject : List IpNet)
    (kernel : Remote (List Route)) (calls : List InjectCall) :
    let s : Ledger := ⟨⟨.new localSubnets overlay table importReject, kernel⟩, []⟩
    (∀ done c, done ++ [c] <+: calls → (s.run fails done).Sound fails c) ↔
      ∀ done c, done ++ [c] <+: calls → (s.run fails done).Deletes fails c :=
  (Ledger.inv_new localSubnets overlay table importReject kernel).sound_run_iff calls

/-! ## A delete that fails -/

/-- The second call fails. -/
def secondFails : Nat → Option NetlinkError := fun n =>
  if n = 1 then some (.Op "No such process") else none

/-- A prefix is announced and withdrawn. -/
def announcedThenWithdrawn : List InjectCall :=
  [.onEvent ⟨learnedNet, .ofOctets 192 168 32 4, false⟩,
    .onEvent ⟨learnedNet, .ofOctets 192 168 32 4, true⟩]

def forgotten : Ledger :=
  Ledger.run secondFails ⟨⟨.new [] .Subnet mainTable [], ⟨[], 0⟩⟩, []⟩ announcedThenWithdrawn

theorem failed_delete_forgotten :
    ¬∀ (fails : Nat → Option NetlinkError) (localSubnets : List IpNet) (overlay : OverlayType)
      (table : Nat) (importReject : List IpNet) (kernel : Remote (List Route))
      (calls : List InjectCall),
      let s : Ledger := ⟨⟨.new localSubnets overlay table importReject, kernel⟩, []⟩
      ∀ done c, done ++ [c] <+: calls → (s.run fails done).Sound fails c := by
  intro h
  have hsound := h secondFails [] .Subnet mainTable [] ⟨[], 0⟩ announcedThenWithdrawn
    [.onEvent ⟨learnedNet, .ofOctets 192 168 32 4, false⟩] _ List.prefix_rfl
  have hown : (⟨learnedNet, some (.ofOctets 192 168 32 4), mainTable⟩ : Route) ∈ forgotten.own := by
    decide +kernel
  have hnone : forgotten.injection.inj.routes[learnedNet]? = none := by decide +kernel
  obtain ⟨ir, hir, -⟩ : ∃ ir, forgotten.injection.inj.routes[learnedNet]? = some ir ∧ _ :=
    hsound.1 _ hown
  rw [hnone] at hir
  cases hir

end KubeRouter.Routing
