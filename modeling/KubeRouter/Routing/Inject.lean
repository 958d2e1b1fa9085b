/-
  Routes learned from BGP peers (`routing/src/inject.rs`, `parse_path_event` and
  `watch_best_paths` in `bgp/src/grpc.rs`, `receive_side_inject` and `watch_task` in
  `kube-router-rs/src/main.rs`).

  The BGP daemon keeps a table of best paths, one for each prefix, and changes it at any time.
  A watch that connects is told the whole table first and then every change, in order. It may
  break at any point; what was not read from it by then is lost, and what changes until the
  next connect is not reported. The receiver takes the events one by one, skips those whose
  next hop is the node's own address, and hands the others to the injector, which installs,
  replaces or deletes a kernel route. The sync tick installs all its routes again.

  The texts in a path are read by two parsers, which are parameters. Best paths that the
  receiver cannot read as a prefix and a next hop are left out of the table.

  Proved:
  * `routes_follow_best_paths`: when a connected watch has nothing left to report, the kernel has
    exactly the accepted best paths, in every run in which no accepted best path moves to the
    node's own address while the watch is up, and in which every accepted route reported before
    is still an accepted best path when the watch connects.
  * `withdrawn_route_stays`: a prefix withdrawn while the watch is down keeps its route.
-/
import Mathlib.Logic.Function.Basic
import KubeRouter.Lib.System
import KubeRouter.Routing.Netlink

namespace KubeRouter.Routing

open Program

/-! ## Events -/

/-- The attributes of a path that `parse_path_event` looks at. -/
inductive PathAttr where
  | NextHop (text : String)
  | MpReach (texts : List String)
  | Other
deriving DecidableEq, Repr

/-- A path of the watch, as it comes over the wire; `nlri` is `none` unless it is a prefix. -/
structure ApiPath where
  nlri : Option (String × Nat)
  pattrs : List PathAttr
  isWithdraw : Bool
deriving DecidableEq, Repr

structure PathEvent where
  pfx : IpNet
  nextHop : IpAddr
  withdrawal : Bool
deriving DecidableEq, Repr

/-- The text parsers of prefixes and addresses. -/
structure Parsers where
  net : String → Option IpNet
  ip : String → Option IpAddr

/-- The next hop the attributes name; a later attribute replaces an earlier one. -/
def nextHopOf (parse : Parsers) (pattrs : List PathAttr) : Option IpAddr :=
  pattrs.foldl (fun hop a => match a with
    | .NextHop text => parse.ip text
    | .MpReach texts => texts.head?.bind parse.ip
    | .Other => hop) none

def parsePathEvent (parse : Parsers) (p : ApiPath) : Option PathEvent := do
  let (text, len) ← p.nlri
  let pfx ← parse.net (text ++ "/" ++ Nat.repr len)
  let nextHop ← nextHopOf parse p.pattrs
  return { pfx := pfx, nextHop := nextHop, withdrawal := p.isWithdraw }

/-! ## Injector -/

inductive OverlayType where
  | Subnet
  | Full
deriving DecidableEq, Repr

def needsTunnel (nextHop : IpAddr) (localSubnets : List IpNet) : OverlayType → Bool
  | .Full => true
  | .Subnet => !localSubnets.any (·.contains nextHop)

structure InjectedRoute where
  route : Route
  viaTunnel : Bool
deriving DecidableEq, Repr

structure RouteInjector where
  localSubnets : List IpNet
  overlay : OverlayType
  table : Nat
  importReject : List IpNet
  routes : Std.TreeMap IpNet InjectedRoute := ∅

/-- Contained by a reject prefix. -/
def isRejected (importReject : List IpNet) (pfx : IpNet) : Bool :=
  importReject.any fun r => r.contains pfx.network && pfx.prefixLen ≥ r.prefixLen

/-- An injector and the kernel's routes. -/
structure Injection where
  inj : RouteInjector
  kernel : Remote (List Route) := { state := [] }

namespace Injection

variable (fails : Nat → Option NetlinkError)

/-- Forget the route of a prefix and delete it. -/
def dropRoute (s : Injection) (pfx : IpNet) : Except NetlinkError PUnit × Injection :=
  match s.inj.routes[pfx]? with
  | none => (.ok ⟨⟩, s)
  | some ir =>
    let (res, kernel) := Prog.exec (call applyNetlink fails (.routeDel ir.route)) s.kernel
    (res, { inj := { s.inj with routes := s.inj.routes.erase pfx }, kernel := kernel })

def onEvent (s : Injection) (ev : PathEvent) : Except NetlinkError PUnit × Injection :=
  if ev.withdrawal then s.dropRoute fails ev.pfx
  else if isRejected s.inj.importReject ev.pfx then s.dropRoute fails ev.pfx
  else
    let route : Route := { dst := ev.pfx, gateway := some ev.nextHop, table := s.inj.table }
    let ir : InjectedRoute :=
      { route := route, viaTunnel := needsTunnel ev.nextHop s.inj.localSubnets s.inj.overlay }
    match Prog.exec (call applyNetlink fails (.routeReplace route)) s.kernel with
    | (.ok _, kernel) =>
      (.ok ⟨⟩, { inj := { s.inj with routes := s.inj.routes.insert ev.pfx ir }, kernel := kernel })
    | (.error e, kernel) => (.error e, { s with kernel := kernel })

/-- Install every route again. -/
def sync (s : Injection) : Except NetlinkError PUnit × Injection :=
  let (res, kernel) := Prog.exec ((s.inj.routes.toList.map (·.2.route)).forM fun r =>
    call applyNetlink fails (.routeReplace r)) s.kernel
  (res, { s with kernel := kernel })

end Injection

/-! ## Receiver -/

/-- The daemon's table, the watch and the receiver. `consumed` are the events received so far. -/
structure Receiver where
  best : Std.TreeMap IpNet ApiPath := ∅
  connected : Bool := false
  queue : List PathEvent := []
  consumed : List PathEvent := []
  injection : Injection

inductive Step where
  /-- The best path of a prefix becomes `path`. -/
  | announce (path : ApiPath)
  | withdraw (pfx : IpNet)
  /-- The watch breaks behind the first `kept` events that are on their way. -/
  | disconnect (kept : Nat)
  /-- The watch connects and is told the table, in the order `dump`. -/
  | connect (dump : List ApiPath)
  | receive
  | tick
deriving DecidableEq, Repr

/-- What the node tells apart: its own address, and the prefixes it rejects. -/
structure RxConfig where
  parse : Parsers
  localIp : Option IpAddr
  importReject : List IpNet

namespace Receiver

def init (cfg : RxConfig) : Receiver where
  injection := { inj := { localSubnets := [], overlay := .Subnet, table := mainTable,
                          importReject := cfg.importReject } }

/-- The arm of `receive_side_inject` for an event. -/
def handle (cfg : RxConfig) (s : Receiver) (ev : PathEvent) : Injection :=
  if some ev.nextHop = cfg.localIp then s.injection
  else (s.injection.onEvent reliable ev).2

/-- A connected watch forwards what it can read. -/
def report (cfg : RxConfig) (s : Receiver) (path : ApiPath) : List PathEvent :=
  if s.connected then s.queue ++ (parsePathEvent cfg.parse path).toList else s.queue

def step (cfg : RxConfig) (s : Receiver) : Step → Option Receiver
  | .announce path =>
    match parsePathEvent cfg.parse path with
    | some ⟨pfx, _, false⟩ =>
      some { s with best := s.best.insert pfx path, queue := s.report cfg path }
    | _ => none
  | .withdraw pfx =>
    match s.best[pfx]? with
    | some path =>
      some { s with best := s.best.erase pfx,
                    queue := s.report cfg { path with isWithdraw := true } }
    | none => none
  | .disconnect kept =>
    if s.connected then some { s with connected := false, queue := s.queue.take kept } else none
  | .connect dump =>
    if !s.connected ∧ dump.Perm (s.best.toList.map (·.2)) then
      some { s with connected := true,
                    queue := s.queue ++ dump.filterMap (parsePathEvent cfg.parse) }
    else none
  | .receive =>
    match s.queue with
    | [] => none
    | ev :: rest =>
      some { s with queue := rest, consumed := s.consumed ++ [ev],
                    injection := s.handle cfg ev }
  | .tick => some { s with injection := (s.injection.sync reliable).2 }

end Receiver

/-! ## What the injector holds -/

namespace Injection

/-- The next hop of the route a prefix has. -/
def hop (s : Injection) (p : IpNet) : Option IpAddr :=
  s.inj.routes[p]?.bind (·.route.gateway)

/-- The kernel has the routes of the state map, each under its own prefix. -/
structure WF (importReject : List IpNet) (s : Injection) : Prop where
  table : s.inj.table = mainTable
  reject : s.inj.importReject = importReject
  keyed : ∀ (p : IpNet) (ir : InjectedRoute), s.inj.routes[p]? = some ir →
    ∃ nh, ir.route = ⟨p, some nh, mainTable⟩
  kernel : ∀ r, r ∈ s.kernel.state ↔
    ∃ (p : IpNet) (ir : InjectedRoute), s.inj.routes[p]? = some ir ∧ ir.route = r

theorem WF.kernel_iff {importReject : List IpNet} {s : Injection} (h : s.WF importReject)
    (r : Route) : r ∈ s.kernel.state ↔ ∃ p nh, s.hop p = some nh ∧ r = ⟨p, some nh, mainTable⟩ := by
  rw [h.kernel]
  constructor
  · rintro ⟨p, ir, hir, hr⟩
    obtain ⟨nh, hroute⟩ := h.keyed p ir hir
    refine ⟨p, nh, ?_, hr ▸ hroute⟩
    unfold hop
    rw [hir, Option.bind_some, hroute]
  · rintro ⟨p, nh, hhop, hr⟩
    obtain ⟨ir, hir, hgw⟩ := Option.bind_eq_some_iff.mp hhop
    obtain ⟨nh', hroute⟩ := h.keyed p ir hir
    refine ⟨p, ir, hir, ?_⟩
    rw [hroute] at hgw
    cases hgw
    rw [hr, hroute]

/-- Dropping a prefix removes its route from map and kernel. -/
theorem WF.dropRoute {importReject : List IpNet} {s : Injection} (h : s.WF importReject)
    (pfx : IpNet) : (s.dropRoute reliable pfx).2.WF importReject ∧
      (s.dropRoute reliable pfx).2.hop = Function.update s.hop pfx none := by
  unfold Injection.dropRoute
  cases hir : s.inj.routes[pfx]? with
  | none =>
    refine ⟨h, ?_⟩
    rw [eq_comm, Function.update_eq_self_iff]
    unfold hop
    rw [hir]
    rfl
  | some ir =>
    obtain ⟨nh, hroute⟩ := h.keyed pfx ir hir
    have hget : ∀ p, (s.inj.routes.erase pfx)[p]? =
        if p = pfx then none else s.inj.routes[p]? := by
      intro p
      rw [get_erase, Function.update_apply]
    dsimp only
    rw [exec_call, reliable]
    refine ⟨⟨h.table, h.reject, ?_, ?_⟩, ?_⟩
    · intro p ir' hp
      rw [hget p] at hp
      split at hp
      · cases hp
      · exact h.keyed p ir' hp
    · intro r
      rw [mem_routeDel, h.kernel]
      constructor
      · rintro ⟨⟨p, ir', hp, hr⟩, hkey⟩
        refine ⟨p, ir', ?_, hr⟩
        rw [hget, if_neg]
        · exact hp
        · intro heq
          subst heq
          rw [hir] at hp
          cases hp
          rw [← hr, Route.sameKey_self] at hkey
          cases hkey
      · rintro ⟨p, ir', hp, hr⟩
        rw [hget] at hp
        split at hp
        · cases hp
        · next hne =>
          refine ⟨⟨p, ir', hp, hr⟩, ?_⟩
          obtain ⟨nh', hroute'⟩ := h.keyed p ir' hp
          rw [← hr, hroute', hroute]
          simpa [Route.sameKey] using hne
    · funext p
      unfold hop
      rw [hget]
      by_cases hp : p = pfx
      · simp [hp]
      · simp [hp]

/-- Installing a route puts it in the place of the prefix's old one. -/
theorem WF.install {importReject : List IpNet} {s : Injection} (h : s.WF importReject)
    (pfx : IpNet) (nh : IpAddr) (ir : InjectedRoute)
    (hroute : ir.route = ⟨pfx, some nh, mainTable⟩) :
    let t : Injection :=
      { inj := { s.inj with routes := s.inj.routes.insert pfx ir },
        kernel := { state := applyNetlink s.kernel.state (.routeReplace ir.route),
                    calls := s.kernel.calls + 1 } }
    t.WF importReject ∧ t.hop = Function.update s.hop pfx (some nh) := by
  intro t
  have hget : ∀ p, (s.inj.routes.insert pfx ir)[p]? =
      if p = pfx then some ir else s.inj.routes[p]? := by
    intro p
    rw [get_insert, Function.update_apply]
  refine ⟨⟨h.table, h.reject, ?_, ?_⟩, ?_⟩
  · intro p ir' hp
    rw [hget p] at hp
    split at hp
    · next heq =>
      cases hp
      exact ⟨nh, heq ▸ hroute⟩
    · exact h.keyed p ir' hp
  · intro r
    rw [mem_routeReplace, h.kernel]
    constructor
    · intro hr
      obtain hr | ⟨⟨p, ir', hp, hr⟩, hkey⟩ := hr
      · exact ⟨pfx, ir, by rw [hget, if_pos rfl], hr.symm⟩
      · refine ⟨p, ir', ?_, hr⟩
        rw [hget, if_neg]
        · exact hp
        · intro heq
          subst heq
          obtain ⟨nh', hroute'⟩ := h.keyed p ir' hp
          rw [← hr, hroute', hroute] at hkey
          simp [Route.sameKey] at hkey
    · rintro ⟨p, ir', hp, hr⟩
      rw [hget] at hp
      split at hp
      · cases hp
        exact Or.inl hr.symm
      · next hne =>
        refine Or.inr ⟨⟨p, ir', hp, hr⟩, ?_⟩
        obtain ⟨nh', hroute'⟩ := h.keyed p ir' hp
        rw [← hr, hroute', hroute]
        simpa [Route.sameKey] using hne
  · funext p
    unfold hop
    rw [hget]
    by_cases hp : p = pfx
    · simp [hp, hroute]
    · simp [hp]

/-- One event: the prefix's route becomes what the event says, unless it is rejected. -/
theorem WF.onEvent {importReject : List IpNet} {s : Injection} (h : s.WF importReject)
    (ev : PathEvent) : (s.onEvent reliable ev).2.WF importReject ∧
      (s.onEvent reliable ev).2.hop = Function.update s.hop ev.pfx
        (if ev.withdrawal || isRejected importReject ev.pfx then none else some ev.nextHop) := by
  unfold Injection.onEvent
  rw [h.reject]
  by_cases hw : ev.withdrawal = true
  · rw [if_pos hw, if_pos (by rw [hw]; rfl)]
    exact h.dropRoute ev.pfx
  · rw [if_neg hw]
    by_cases hr : isRejected importReject ev.pfx = true
    · rw [if_pos hr, if_pos (by rw [hr, Bool.or_true])]
      exact h.dropRoute ev.pfx
    · rw [if_neg hr, if_neg (by simp [hw, hr])]
      dsimp only
      rw [exec_call, reliable]
      exact h.install ev.pfx ev.nextHop _ (by rw [h.table])

/-- The sync tick changes nothing while the kernel has the routes. -/
theorem WF.sync {importReject : List IpNet} {s : Injection} (h : s.WF importReject) :
    (s.sync reliable).2.WF importReject ∧ (s.sync reliable).2.hop = s.hop := by
  have hmem : ∀ r, r ∈ s.inj.routes.toList.map (·.2.route) ↔ r ∈ s.kernel.state := by
    intro r
    rw [h.kernel, List.mem_map]
    constructor
    · rintro ⟨⟨p, ir⟩, hp, hr⟩
      exact ⟨p, ir, Std.TreeMap.mem_toList_iff_getElem?_eq_some.mp hp, hr⟩
    · rintro ⟨p, ir, hp, hr⟩
      exact ⟨⟨p, ir⟩, Std.TreeMap.mem_toList_iff_getElem?_eq_some.mpr hp, hr⟩
  have hone : OneHop (s.inj.routes.toList.map (·.2.route)) := by
    intro r hr r' hr' hkey
    obtain ⟨p, ir, hp, rfl⟩ := (h.kernel r).mp ((hmem r).mp hr)
    obtain ⟨p', ir', hp', rfl⟩ := (h.kernel r').mp ((hmem r').mp hr')
    obtain ⟨nh, hroute⟩ := h.keyed p ir hp
    obtain ⟨nh', hroute'⟩ := h.keyed p' ir' hp'
    have hdst := (Route.sameKey_iff.mp hkey).1
    rw [hroute, hroute'] at hdst
    obtain rfl : p = p' := hdst
    rw [hp] at hp'
    cases hp'
    rfl
  have hscript := script_done applyNetlink
  have htakes := takes_forM_call applyNetlink reliable hscript
    (takes_call_ok applyNetlink reliable fun _ => rfl) NetlinkCall.routeReplace
    (s.inj.routes.toList.map (·.2.route)) s.kernel
  have hkernel : (s.sync reliable).2.kernel.state =
      ((s.inj.routes.toList.map (·.2.route)).map NetlinkCall.routeReplace).foldl applyNetlink
        s.kernel.state :=
    wp_state (P := fun t : Remote (List Route) => t.state = _)
      (wp_mono htakes (fun _ _ ht => ht) (fun _ _ hf => hf.elim))
  refine ⟨⟨h.table, h.reject, h.keyed, fun r => ?_⟩, rfl⟩
  rw [hkernel, mem_replaceAll hone, hmem]
  exact (or_iff_left_of_imp fun hr => hr.1).trans (h.kernel r)

end Injection

/-! ## What the watch tells -/

/-- The next hop a prefix should have, given its best path: none for rejected prefixes and for
the node's own address. -/
def RxConfig.accepted (cfg : RxConfig) (p : IpNet) (nextHop : Option IpAddr) : Option IpAddr :=
  if isRejected cfg.importReject p then none
  else nextHop.filter fun nh => decide (some nh ≠ cfg.localIp)

/-- The best paths as an event reports them. -/
def tell (f : IpNet → Option IpAddr) (ev : PathEvent) : IpNet → Option IpAddr :=
  Function.update f ev.pfx (if ev.withdrawal then none else some ev.nextHop)

/-- The best paths as a list of events reports them. -/
def told (events : List PathEvent) : IpNet → Option IpAddr := events.foldl tell fun _ => none

theorem told_append (events later : List PathEvent) :
    told (events ++ later) = later.foldl tell (told events) := by
  unfold told
  rw [List.foldl_append]

theorem writes_tell (p : IpNet) :
    Writes tell (fun f => f p) (fun ev : PathEvent =>
      if ev.pfx = p then some (if ev.withdrawal then none else some ev.nextHop) else none) := by
  intro f ev
  unfold tell
  by_cases h : ev.pfx = p
  · simp [h]
  · have hne : p ≠ ev.pfx := fun heq => h heq.symm
    simp [h, Function.update_of_ne hne]

namespace RxConfig

variable (cfg : RxConfig)

@[simp] theorem accepted_none (p : IpNet) : cfg.accepted p none = none := by
  simp [accepted]

theorem accepted_eq_some {p : IpNet} {o : Option IpAddr} {nh : IpAddr} :
    cfg.accepted p o = some nh ↔
      isRejected cfg.importReject p = false ∧ o = some nh ∧ some nh ≠ cfg.localIp := by
  unfold accepted
  split
  · next h => simp [h]
  · next h =>
    have hrej : isRejected cfg.importReject p = false := by simpa using h
    simp [Option.filter_eq_some_iff, hrej]

/-- The node's own address is not accepted. -/
theorem accepted_local {p : IpNet} {nh : IpAddr} (h : some nh = cfg.localIp) :
    cfg.accepted p (some nh) = none := by
  cases hacc : cfg.accepted p (some nh) with
  | none => rfl
  | some x =>
    obtain ⟨_, hx, hne⟩ := (cfg.accepted_eq_some).mp hacc
    cases hx
    exact absurd h hne

/-- Every event with the node's own address comes when the prefix has no accepted next hop. -/
def Clean (f : IpNet → Option IpAddr) : List PathEvent → Prop
  | [] => True
  | ev :: events =>
    (some ev.nextHop = cfg.localIp → cfg.accepted ev.pfx (f ev.pfx) = none) ∧
      Clean (tell f ev) events

theorem clean_append (f : IpNet → Option IpAddr) (events later : List PathEvent) :
    cfg.Clean f (events ++ later) ↔ cfg.Clean f events ∧ cfg.Clean (events.foldl tell f) later := by
  induction events generalizing f with
  | nil => simp [Clean]
  | cons ev events ih =>
    rw [List.cons_append, List.foldl_cons, Clean, Clean, ih, and_assoc]

end RxConfig

/-! ## Invariant -/

namespace Receiver

/-- The next hop of the best path of a prefix. -/
def bestHop (cfg : RxConfig) (s : Receiver) (p : IpNet) : Option IpAddr :=
  s.best[p]?.bind fun path => (parsePathEvent cfg.parse path).map (·.nextHop)

/-- The next hop a prefix should have in the kernel. -/
def target (cfg : RxConfig) (s : Receiver) (p : IpNet) : Option IpAddr :=
  cfg.accepted p (s.bestHop cfg p)

/-- The best paths as the watch has reported them, events on their way included. -/
def reported (s : Receiver) : IpNet → Option IpAddr := told (s.consumed ++ s.queue)

structure Inv (cfg : RxConfig) (s : Receiver) : Prop where
  wf : s.injection.WF cfg.importReject
  best : ∀ (p : IpNet) (path : ApiPath), s.best[p]? = some path →
    ∃ nh, parsePathEvent cfg.parse path = some ⟨p, nh, false⟩
  hop : ∀ p, s.injection.hop p = cfg.accepted p (told s.consumed p)
  clean : cfg.Clean (told s.consumed) s.queue
  current : s.connected = true → ∀ p, cfg.accepted p (s.reported p) = s.target cfg p

theorem inv_init (cfg : RxConfig) : (init cfg).Inv cfg where
  wf := {
    table := rfl
    reject := rfl
    keyed := fun p ir h => by simp [init] at h
    kernel := fun r => by simp [init] }
  best := fun p path h => by simp [init] at h
  hop := fun p => by simp [init, Injection.hop, told]
  clean := trivial
  current := fun h => by cases h

/-- The injector follows an event that is clean. -/
theorem handle_spec {cfg : RxConfig} {s : Receiver} (hwf : s.injection.WF cfg.importReject)
    {f : IpNet → Option IpAddr} (hhop : ∀ p, s.injection.hop p = cfg.accepted p (f p))
    (ev : PathEvent)
    (hclean : some ev.nextHop = cfg.localIp → cfg.accepted ev.pfx (f ev.pfx) = none) :
    (s.handle cfg ev).WF cfg.importReject ∧
      ∀ p, (s.handle cfg ev).hop p = cfg.accepted p (tell f ev p) := by
  unfold handle
  by_cases hlocal : some ev.nextHop = cfg.localIp
  · -- a skipped event
    rw [if_pos hlocal]
    refine ⟨hwf, fun p => ?_⟩
    rw [hhop p]
    unfold tell
    by_cases hp : p = ev.pfx
    · subst hp
      rw [Function.update_self, hclean hlocal]
      split
      · exact (cfg.accepted_none _).symm
      · exact (cfg.accepted_local hlocal).symm
    · rw [Function.update_of_ne hp]
  · rw [if_neg hlocal]
    obtain ⟨hwf', hhop'⟩ := hwf.onEvent ev
    refine ⟨hwf', fun p => ?_⟩
    rw [hhop']
    unfold tell
    by_cases hp : p = ev.pfx
    · subst hp
      rw [Function.update_self, Function.update_self]
      cases hw : ev.withdrawal with
      | true => simp
      | false =>
        cases hr : isRejected cfg.importReject ev.pfx with
        | true => simp [RxConfig.accepted, hr]
        | false => exact (cfg.accepted_eq_some.mpr ⟨hr, rfl, hlocal⟩).symm
    · rw [Function.update_of_ne hp, Function.update_of_ne hp, hhop p]

/-! ## Steps -/

theorem reported_queue (s : Receiver) : s.reported = s.queue.foldl tell (told s.consumed) :=
  told_append s.consumed s.queue

theorem parse_withdraw {parse : Parsers} {path : ApiPath} {p : IpNet} {nh : IpAddr}
    (h : parsePathEvent parse path = some ⟨p, nh, false⟩) :
    parsePathEvent parse { path with isWithdraw := true } = some ⟨p, nh, true⟩ := by
  simp only [parsePathEvent, Option.bind_eq_bind, Option.bind_eq_some_iff, Option.pure_def,
    Option.some.injEq, PathEvent.mk.injEq] at h ⊢
  obtain ⟨text, htext, q, hq, nh', hnh, rfl, rfl, _⟩ := h
  exact ⟨text, htext, q, hq, nh', hnh, rfl, rfl, trivial⟩

/-- A change of the best path of one prefix, reported if the watch is up. -/
theorem Inv.change {cfg : RxConfig} {s : Receiver} (h : s.Inv cfg) {path : ApiPath}
    {ev : PathEvent} (hev : parsePathEvent cfg.parse path = some ev)
    {best : Std.TreeMap IpNet ApiPath}
    (hbest : ∀ (p : IpNet) (path' : ApiPath), best[p]? = some path' →
      ∃ nh, parsePathEvent cfg.parse path' = some ⟨p, nh, false⟩)
    (hhop : ∀ p, bestHop cfg { s with best := best } p = tell (s.bestHop cfg) ev p)
    (hclean : s.connected = true → some ev.nextHop = cfg.localIp → s.target cfg ev.pfx = none) :
    Inv cfg { s with best := best, queue := s.report cfg path } := by
  have hqueue : s.report cfg path = if s.connected then s.queue ++ [ev] else s.queue := by
    unfold report
    rw [hev]
    rfl
  rw [hqueue]
  cases hconn : s.connected with
  | false => exact ⟨h.wf, hbest, h.hop, h.clean, fun hc => by cases hc⟩
  | true =>
    have hcurrent := h.current hconn
    refine ⟨h.wf, hbest, h.hop, ?_, fun _ p => ?_⟩
    · rw [if_pos rfl]
      show cfg.Clean (told s.consumed) (s.queue ++ [ev])
      rw [cfg.clean_append, ← reported_queue]
      refine ⟨h.clean, fun hlocal => ?_, trivial⟩
      rw [hcurrent]
      exact hclean hconn hlocal
    · have hreported : told (s.consumed ++ (s.queue ++ [ev])) = tell s.reported ev := by
        rw [← List.append_assoc, told_append]
        rfl
      show cfg.accepted p (told (s.consumed ++ (s.queue ++ [ev])) p) =
        cfg.accepted p (bestHop cfg { s with best := best } p)
      rw [hreported, hhop p]
      unfold tell
      by_cases hp : p = ev.pfx
      · rw [hp, Function.update_self, Function.update_self]
      · rw [Function.update_of_ne hp, Function.update_of_ne hp]
        exact hcurrent p

/-- The events of a dump bring what is reported up to date, if every accepted route reported
before is still an accepted best path. -/
theorem clean_dump {cfg : RxConfig} {s : Receiver} {events : List PathEvent}
    (hevents : ∀ ev ∈ events, ev.withdrawal = false ∧ s.bestHop cfg ev.pfx = some ev.nextHop)
    {f : IpNet → Option IpAddr}
    (hstale : ∀ p, s.target cfg p = none → cfg.accepted p (f p) = none) : cfg.Clean f events := by
  induction events generalizing f with
  | nil => trivial
  | cons ev events ih =>
    obtain ⟨hadv, hbest⟩ := hevents ev List.mem_cons_self
    refine ⟨fun hlocal => hstale ev.pfx ?_, ?_⟩
    · unfold target
      rw [hbest]
      exact cfg.accepted_local hlocal
    · refine ih (fun e he => hevents e (List.mem_cons_of_mem ev he)) fun p hp => ?_
      unfold tell
      by_cases heq : p = ev.pfx
      · subst heq
        unfold target at hp
        rw [hbest] at hp
        rw [Function.update_self, hadv]
        exact hp
      · rw [Function.update_of_ne heq]
        exact hstale p hp

theorem accepted_dump {cfg : RxConfig} {s : Receiver} {events : List PathEvent}
    (hevents : ∀ ev ∈ events, ev.withdrawal = false ∧ s.bestHop cfg ev.pfx = some ev.nextHop)
    (hall : ∀ p nh, s.bestHop cfg p = some nh → ⟨p, nh, false⟩ ∈ events)
    {f : IpNet → Option IpAddr}
    (hstale : ∀ p, s.target cfg p = none → cfg.accepted p (f p) = none) (p : IpNet) :
    cfg.accepted p (events.foldl tell f p) = s.target cfg p := by
  cases hbest : s.bestHop cfg p with
  | some nh =>
    have htold : events.foldl tell f p = some nh := by
      refine read_foldl_agree (writes_tell p) events f (fun ev hev v hv => ?_) (Or.inr ?_)
      · obtain ⟨hadv, hhop⟩ := hevents ev hev
        by_cases hp : ev.pfx = p
        · subst hp
          rw [hbest] at hhop
          rw [if_pos rfl, hadv, if_neg Bool.false_ne_true] at hv
          rw [← Option.some.inj hv, hhop]
        · simp [hp] at hv
      · exact ⟨⟨p, nh, false⟩, hall p nh hbest, by simp⟩
    unfold target
    rw [htold, hbest]
  | none =>
    have htold : events.foldl tell f p = f p := by
      refine read_foldl_untouched (writes_tell p) events f fun ev hev => ?_
      refine if_neg fun hp => ?_
      have hhop := (hevents ev hev).2
      rw [hp, hbest] at hhop
      cases hhop
    have htarget : s.target cfg p = none := by
      unfold target
      rw [hbest]
      exact cfg.accepted_none p
    rw [htold, hstale p htarget, htarget]

/-- When a watch connects, every accepted route reported before is an accepted best path; and
while it is up, no accepted best path moves to the node's own address. -/
def NothingMissed (cfg : RxConfig) (s : Receiver) : Step → Prop
  | .announce path => s.connected = true → ∀ ev ∈ parsePathEvent cfg.parse path,
      some ev.nextHop = cfg.localIp → s.target cfg ev.pfx = none
  | .connect _ => ∀ ev ∈ s.consumed ++ s.queue,
      s.target cfg ev.pfx = none → cfg.accepted ev.pfx (s.reported ev.pfx) = none
  | .withdraw _ | .disconnect _ | .receive | .tick => True

instance (cfg : RxConfig) (s : Receiver) (a : Step) : Decidable (s.NothingMissed cfg a) :=
  match a with
  | .announce _ => inferInstanceAs (Decidable (_ → ∀ ev ∈ _, _ → _))
  | .connect _ => inferInstanceAs (Decidable (∀ ev ∈ _, _ → _))
  | .withdraw _ | .disconnect _ | .receive | .tick => inferInstanceAs (Decidable True)

/-- A prefix no event is about was not reported. -/
theorem reported_eq_none {s : Receiver} {p : IpNet}
    (h : ∀ ev ∈ s.consumed ++ s.queue, ev.pfx ≠ p) : s.reported p = none :=
  read_foldl_untouched (writes_tell p) (s.consumed ++ s.queue) (fun _ => none)
    fun ev hev => if_neg (h ev hev)

theorem Inv.connect {cfg : RxConfig} {s : Receiver} (h : s.Inv cfg) {dump : List ApiPath}
    (hdump : dump.Perm (s.best.toList.map (·.2)))
    (hstale : ∀ ev ∈ s.consumed ++ s.queue,
      s.target cfg ev.pfx = none → cfg.accepted ev.pfx (s.reported ev.pfx) = none) :
    Inv cfg { s with
      connected := true, queue := s.queue ++ dump.filterMap (parsePathEvent cfg.parse) } := by
  have hmem : ∀ path, path ∈ dump ↔ ∃ p : IpNet, s.best[p]? = some path := by
    intro path
    rw [hdump.mem_iff, List.mem_map]
    constructor
    · rintro ⟨⟨p, path'⟩, hp, heq⟩
      subst heq
      exact ⟨p, Std.TreeMap.mem_toList_iff_getElem?_eq_some.mp hp⟩
    · rintro ⟨p, hp⟩
      exact ⟨⟨p, path⟩, Std.TreeMap.mem_toList_iff_getElem?_eq_some.mpr hp, rfl⟩
  have hevents : ∀ ev ∈ dump.filterMap (parsePathEvent cfg.parse),
      ev.withdrawal = false ∧ s.bestHop cfg ev.pfx = some ev.nextHop := by
    intro ev hev
    obtain ⟨path, hpath, hparse⟩ := List.mem_filterMap.mp hev
    obtain ⟨p, hp⟩ := (hmem path).mp hpath
    obtain ⟨nh, hnh⟩ := h.best p path hp
    rw [hnh] at hparse
    cases hparse
    refine ⟨rfl, ?_⟩
    unfold bestHop
    rw [hp, Option.bind_some, hnh]
    rfl
  have hall : ∀ p nh, s.bestHop cfg p = some nh →
      ⟨p, nh, false⟩ ∈ dump.filterMap (parsePathEvent cfg.parse) := by
    intro p nh hhop
    obtain ⟨path, hp, hparsed⟩ := Option.bind_eq_some_iff.mp hhop
    obtain ⟨nh', hnh⟩ := h.best p path hp
    rw [hnh] at hparsed
    cases hparsed
    exact List.mem_filterMap.mpr ⟨path, (hmem path).mpr ⟨p, hp⟩, hnh⟩
  have hstale : ∀ p, s.target cfg p = none → cfg.accepted p (s.reported p) = none := by
    intro p hp
    by_cases hev : ∃ ev ∈ s.consumed ++ s.queue, ev.pfx = p
    · obtain ⟨ev, hmem, rfl⟩ := hev
      exact hstale ev hmem hp
    · rw [reported_eq_none fun ev hmem heq => hev ⟨ev, hmem, heq⟩]
      exact cfg.accepted_none p
  refine ⟨h.wf, h.best, h.hop, ?_, fun _ p => ?_⟩
  · show cfg.Clean (told s.consumed) (s.queue ++ dump.filterMap (parsePathEvent cfg.parse))
    rw [cfg.clean_append, ← reported_queue]
    exact ⟨h.clean, clean_dump hevents hstale⟩
  · show cfg.accepted p (told (s.consumed ++ (s.queue ++ _)) p) = s.target cfg p
    rw [← List.append_assoc, told_append]
    exact accepted_dump hevents hall hstale p

theorem Inv.announce {cfg : RxConfig} {s : Receiver} (h : s.Inv cfg) {path : ApiPath} {pfx : IpNet}
    {nh : IpAddr} (hparse : parsePathEvent cfg.parse path = some ⟨pfx, nh, false⟩)
    (hlocal : s.connected = true → some nh = cfg.localIp → s.target cfg pfx = none) :
    Inv cfg { s with best := s.best.insert pfx path, queue := s.report cfg path } := by
  refine h.change hparse ?_ ?_ hlocal
  · intro p path' hp
    rw [get_insert, Function.update_apply] at hp
    split at hp
    · next heq =>
      cases hp
      exact ⟨nh, heq ▸ hparse⟩
    · exact h.best p path' hp
  · intro p
    unfold bestHop tell
    rw [get_insert]
    by_cases hp : p = pfx
    · subst hp
      simp [hparse]
    · rw [Function.update_of_ne hp, Function.update_of_ne hp]

theorem Inv.withdraw {cfg : RxConfig} {s : Receiver} (h : s.Inv cfg) {path : ApiPath} {pfx : IpNet}
    (hpath : s.best[pfx]? = some path) :
    Inv cfg { s with
      best := s.best.erase pfx, queue := s.report cfg { path with isWithdraw := true } } := by
  obtain ⟨nh, hparse⟩ := h.best pfx path hpath
  refine h.change (parse_withdraw hparse) ?_ ?_ (fun _ hlocal => ?_)
  · intro p path' hp
    rw [get_erase, Function.update_apply] at hp
    split at hp
    · cases hp
    · exact h.best p path' hp
  · intro p
    unfold bestHop tell
    rw [get_erase]
    by_cases hp : p = pfx
    · subst hp
      simp
    · rw [Function.update_of_ne hp, Function.update_of_ne hp]
  · have hhop : s.bestHop cfg pfx = some nh := by
      unfold bestHop
      rw [hpath, Option.bind_some, hparse]
      rfl
    unfold target
    rw [hhop]
    exact cfg.accepted_local hlocal

theorem Inv.receive {cfg : RxConfig} {s : Receiver} (h : s.Inv cfg) {ev : PathEvent}
    {rest : List PathEvent} (hqueue : s.queue = ev :: rest) :
    Inv cfg { s with
      queue := rest, consumed := s.consumed ++ [ev], injection := s.handle cfg ev } := by
  have hclean := h.clean
  rw [hqueue] at hclean
  obtain ⟨hwf, hhop⟩ := handle_spec h.wf h.hop ev hclean.1
  have htold : told (s.consumed ++ [ev]) = tell (told s.consumed) ev := told_append _ _
  refine ⟨hwf, h.best, ?_, ?_, fun hc p => ?_⟩
  · rw [htold]
    exact hhop
  · rw [htold]
    exact hclean.2
  · have hcur := h.current hc p
    unfold reported at hcur ⊢
    rw [hqueue] at hcur
    show cfg.accepted p (told (s.consumed ++ [ev] ++ rest) p) = s.target cfg p
    rw [List.append_assoc]
    exact hcur

/-- One step keeps the invariant, as long as the watch misses nothing. -/
theorem Inv.step {cfg : RxConfig} {s t : Receiver} {a : Step} (h : s.Inv cfg)
    (hmissed : s.NothingMissed cfg a) (hstep : s.step cfg a = some t) : t.Inv cfg := by
  cases a with
  | announce path =>
    simp only [Receiver.step] at hstep
    split at hstep
    · next pfx nh hparse =>
      cases hstep
      exact h.announce hparse fun hconn hlocal => hmissed hconn _ hparse hlocal
    · cases hstep
  | withdraw pfx =>
    simp only [Receiver.step] at hstep
    split at hstep
    · next path hpath =>
      cases hstep
      exact h.withdraw hpath
    · cases hstep
  | disconnect kept =>
    simp only [Receiver.step] at hstep
    split at hstep
    · cases hstep
      have hclean := h.clean
      rw [← List.take_append_drop kept s.queue, cfg.clean_append] at hclean
      exact ⟨h.wf, h.best, h.hop, hclean.1, fun hc => by cases hc⟩
    · cases hstep
  | connect dump =>
    simp only [Receiver.step] at hstep
    split at hstep
    · next hguard =>
      cases hstep
      exact h.connect hguard.2 hmissed
    · cases hstep
  | receive =>
    simp only [Receiver.step] at hstep
    split at hstep
    · cases hstep
    · next ev rest hqueue =>
      cases hstep
      exact h.receive hqueue
  | tick =>
    cases hstep
    obtain ⟨hwf, hhop⟩ := h.wf.sync
    refine ⟨hwf, h.best, ?_, h.clean, h.current⟩
    rw [hhop]
    exact h.hop

/-- The kernel has exactly the best paths whose next hop is not the node's own address and whose
prefix is not rejected. -/
def Follows (cfg : RxConfig) (s : Receiver) : Prop :=
  ∀ r, r ∈ s.injection.kernel.state ↔ ∃ p nh, s.bestHop cfg p = some nh ∧
    some nh ≠ cfg.localIp ∧ isRejected cfg.importReject p = false ∧ r = ⟨p, some nh, mainTable⟩

end Receiver

/-- Whenever a connected watch has nothing left to report, the kernel follows the best paths, in
every run whose steps miss nothing. -/
theorem routes_follow_best_paths (cfg : RxConfig) (steps : List Step) (t : Receiver)
    (hrun : System.run (Receiver.step cfg) (.init cfg) steps = some t)
    (hmissed : System.Meets (Receiver.step cfg) (Receiver.NothingMissed cfg) (.init cfg) steps)
    (hconn : t.connected = true) (hidle : t.queue = []) : t.Follows cfg := by
  have hinv : t.Inv cfg := System.run_invariant (I := Receiver.Inv cfg)
    (C := Receiver.NothingMissed cfg) (fun u a v hu hC hstep => hu.step hC hstep)
    (Receiver.inv_init cfg) hmissed hrun
  have hhop : ∀ p, t.injection.hop p = t.target cfg p := by
    intro p
    have hcur := hinv.current hconn p
    unfold Receiver.reported at hcur
    rw [hidle, List.append_nil] at hcur
    rw [hinv.hop p, hcur]
  intro r
  rw [hinv.wf.kernel_iff]
  constructor
  · rintro ⟨p, nh, hp, hr⟩
    rw [hhop p] at hp
    obtain ⟨hrej, hbest, hlocal⟩ := cfg.accepted_eq_some.mp hp
    exact ⟨p, nh, hbest, hlocal, hrej, hr⟩
  · rintro ⟨p, nh, hbest, hlocal, hrej, hr⟩
    refine ⟨p, nh, ?_, hr⟩
    rw [hhop p]
    exact cfg.accepted_eq_some.mpr ⟨hrej, hbest, hlocal⟩

/-! ## A prefix withdrawn while the watch is down -/

section Sample

def learnedNet : IpNet := ⟨.ofOctets 10 244 1 0, 24, by decide⟩

/-- The parsers, on the texts of the sample. -/
def sampleParsers : Parsers where
  net text := if text = "10.244.1.0/24" then some learnedNet else none
  ip text :=
    if text = "192.168.32.4" then some (.ofOctets 192 168 32 4)
    else if text = "192.168.32.5" then some (.ofOctets 192 168 32 5)
    else none

def sampleRx : RxConfig where
  parse := sampleParsers
  localIp := some (.ofOctets 192 168 32 3)
  importReject := []

def learnedPath (nextHop : String) : ApiPath where
  nlri := some ("10.244.1.0", 24)
  pattrs := [.Other, .NextHop nextHop]
  isWithdraw := false

/-- The prefix gets another next hop while the watch is down. -/
def movesWhileDown : List Step :=
  [.connect [], .announce (learnedPath "192.168.32.4"), .receive, .disconnect 0,
    .announce (learnedPath "192.168.32.5"), .connect [learnedPath "192.168.32.5"], .tick, .receive]

/-- The prefix is withdrawn while the watch is down. -/
def withdrawnWhileDown : List Step :=
  [.connect [], .announce (learnedPath "192.168.32.4"), .receive, .disconnect 0,
    .withdraw learnedNet, .connect []]

end Sample

theorem movesWhileDown_follows :
    ∃ t, System.run (Receiver.step sampleRx) (.init sampleRx) movesWhileDown = some t ∧
      t.Follows sampleRx := by
  have hrun : (System.run (Receiver.step sampleRx) (.init sampleRx) movesWhileDown).isSome =
      true := by decide +kernel
  obtain ⟨t, ht⟩ := Option.isSome_iff_exists.mp hrun
  have hend : (System.run (Receiver.step sampleRx) (.init sampleRx) movesWhileDown).map
      (fun t => (t.connected, t.queue)) = some (true, []) := by decide +kernel
  rw [ht] at hend
  obtain ⟨hconn, hidle⟩ := Prod.mk.inj (Option.some.inj hend)
  exact ⟨t, ht, routes_follow_best_paths sampleRx movesWhileDown t ht (by decide +kernel) hconn
    hidle⟩

theorem withdrawn_route_stays :
    ¬∀ (cfg : RxConfig) (steps : List Step) (t : Receiver),
      System.run (Receiver.step cfg) (.init cfg) steps = some t → t.connected = true →
        t.queue = [] → t.Follows cfg := by
  intro h
  have hrun : (System.run (Receiver.step sampleRx) (.init sampleRx) withdrawnWhileDown).isSome =
      true := by decide +kernel
  obtain ⟨t, ht⟩ := Option.isSome_iff_exists.mp hrun
  have hend : (System.run (Receiver.step sampleRx) (.init sampleRx) withdrawnWhileDown).map
      (fun t => (t.connected, t.queue, t.best.isEmpty, t.injection.kernel.state)) =
      some (true, [], true, [⟨learnedNet, some (.ofOctets 192 168 32 4), mainTable⟩]) := by
    decide +kernel
  rw [ht] at hend
  obtain ⟨hconn, hidle, hempty, hkernel⟩ :
      t.connected = true ∧ t.queue = [] ∧ t.best.isEmpty = true ∧ _ = _ := by
    simpa only [Option.map_some, Option.some.injEq, Prod.mk.injEq] using hend
  have hfollows := h sampleRx withdrawnWhileDown t ht hconn hidle
  obtain ⟨p, nh, hbest, _⟩ := (hfollows _).mp (hkernel ▸ List.mem_singleton_self _)
  unfold Receiver.bestHop at hbest
  rw [Std.TreeMap.getElem?_of_isEmpty hempty] at hbest
  cases hbest

end KubeRouter.Routing
