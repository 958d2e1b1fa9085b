/-
  Prefixes on their way through the cluster: from the advertisers of some nodes to the kernel
  routes of another one (`run_routing`, `advertise_service_vips_task` and `receive_side_inject` in
  `kube-router-rs/src/main.rs`, over `advertise.rs`, `grpc.rs` and `inject.rs`).

  A sender drives its BGP engine with two advertisers, one for the pod prefixes and one for the
  service addresses. The engine tells the receiver's daemon every path that it is given, as the
  message `build_path` makes of it, in order and at some time. The daemon picks a best path for
  each prefix among those it was told; which one is its own affair. The receiver's watch reports
  the best paths, and the injector installs them.

  Syncs, deliveries, events and ticks interleave in any order. Calls of a sync may fail. BGP
  sessions and the watch stay up, and the receiver advertises nothing itself.

  Proved:
  * `Inv.step`: what is in flight, put on top of what the daemon was told, is what the sender's
    engine holds; every best path is one that some sender has told.
  * `mesh_delivers`: when nothing is on its way any more, the receiver has exactly one route for
    each prefix that some sender announces and that it does not reject, by way of one of the
    senders that announce it, and no other routes.
  * `mesh_converges`: the same for the prefixes that the advertisers were last asked for, where all
    syncs succeed and no prefix is asked of both advertisers of a sender.
-/
import Mathlib.Data.Fintype.Basic
import KubeRouter.Bgp.Grpc
import KubeRouter.Common.Line
import KubeRouter.Routing.Advertise

namespace KubeRouter.Routing.Mesh

open Bgp (BgpError EngineCall Path Tables)
open Program

/-! ## Senders -/

inductive Task where
  | pods
  | vips
deriving DecidableEq, Repr

structure Sender where
  pods : Advertiser := {}
  vips : Advertiser := {}
  engine : Remote Tables := { state := {} }

namespace Sender

def adv (s : Sender) : Task → Advertiser
  | .pods => s.pods
  | .vips => s.vips

def setAdv (s : Sender) (adv : Advertiser) : Task → Sender
  | .pods => { s with pods := adv }
  | .vips => { s with vips := adv }

def announcer (s : Sender) (task : Task) : Announcer := { adv := s.adv task, engine := s.engine }

/-- A sync of one of the advertisers. -/
def sync (fails : Nat → Option BgpError) (nextHop : IpAddr) (s : Sender) (task : Task)
    (args : SyncArgs) : Sender :=
  let after := ((s.announcer task).sync fails nextHop args).2
  { s.setAdv after.adv task with engine := after.engine }

/-- The calls of the sync that take effect. -/
def sentCalls (fails : Nat → Option BgpError) (nextHop : IpAddr) (s : Sender) (task : Task)
    (args : SyncArgs) : List EngineCall :=
  sent fails s.engine.calls ((s.announcer task).script nextHop args)

/-- The engine has a path for the prefix. -/
def Announces (s : Sender) (p : IpNet) : Prop := (s.engine.state.paths[p]?).isSome

end Sender

/-! ## The cluster -/

/-- The prefix of a path call. -/
def prefixOf : EngineCall → Option IpNet
  | .addPath path => some path.pfx
  | .deletePath path => some path.pfx
  | .addPeer _ | .deletePeer _ => none

/-- What the readers of the receiver rely on: addresses and prefixes are read back from their
texts. -/
structure ReadsBack (parse : Parsers) : Prop where
  ip : ∀ a : IpAddr, parse.ip a.toText = some a
  net : ∀ n : IpNet, parse.net (n.addr.toText ++ "/" ++ Nat.repr n.prefixLen) = some n

/-- Senders, the updates on their way, what the receiver's daemon was told by each of them, and
the receiver. -/
structure Cluster (ι : Type) where
  senders : ι → Sender
  flight : ι → List EngineCall
  ribIn : ι → Tables
  receiver : Receiver

inductive Step (ι : Type) where
  | sync (i : ι) (task : Task) (args : SyncArgs) (fails : Nat → Option BgpError)
  /-- The next update of a sender arrives, and the daemon picks the path of `choice` for its
  prefix. -/
  | deliver (i : ι) (choice : Option ι)
  | connect (dump : List ApiPath)
  | receive
  | tick

section Cluster

variable {ι : Type} [Fintype ι] [DecidableEq ι] (addr : ι → IpAddr) (cfg : RxConfig)

/-- The policies are the communities and the AS path prepend of the senders. -/
def Cluster.init (policies : ι → List UInt32 × Option (UInt32 × UInt8)) : Cluster ι where
  senders i := { vips := { communities := (policies i).1, asPrepend := (policies i).2 } }
  flight _ := []
  ribIn _ := {}
  receiver := .init cfg

/-- The message of a path as the daemon reports it. -/
def wire (path : Path) : ApiPath := (Bgp.buildPath path).watched

/-- The daemon's best path for a prefix, picked among those that it was told. The watch hears of
it when it is not the one before. -/
def Cluster.select (c : Cluster ι) (p : IpNet) (choice : Option ι) : Option Receiver :=
  match choice with
  | some j =>
    match (c.ribIn j).paths[p]? with
    | some path =>
      if c.receiver.best[p]? = some (wire path) then some c.receiver
      else c.receiver.step cfg (.announce (wire path))
    | none => none
  | none =>
    if ∀ j, (c.ribIn j).paths[p]? = none then
      if c.receiver.best.contains p then c.receiver.step cfg (.withdraw p) else some c.receiver
    else none

/-- The daemon is told the first of a sender's updates. -/
def Cluster.tell (c : Cluster ι) (i : ι) (call : EngineCall) (rest : List EngineCall) :
    Cluster ι :=
  { c with
    flight := Function.update c.flight i rest
    ribIn := Function.update c.ribIn i ((c.ribIn i).apply call) }

omit [Fintype ι] in
theorem Cluster.tell_ribIn (c : Cluster ι) (i j : ι) (call : EngineCall) (rest : List EngineCall) :
    (c.tell i call rest).ribIn j = Function.update c.ribIn i ((c.ribIn i).apply call) j := rfl

omit [Fintype ι] in
theorem Cluster.tell_flight (c : Cluster ι) (i j : ι) (call : EngineCall)
    (rest : List EngineCall) :
    (c.tell i call rest).flight j = Function.update c.flight i rest j := rfl

def Cluster.step (c : Cluster ι) : Step ι → Option (Cluster ι)
  | .sync i task args fails =>
    some { c with
      senders := Function.update c.senders i ((c.senders i).sync fails (addr i) task args)
      flight := Function.update c.flight i
        (c.flight i ++ (c.senders i).sentCalls fails (addr i) task args) }
  | .deliver i choice =>
    match c.flight i with
    | [] => none
    | call :: rest =>
      let c := c.tell i call rest
      match prefixOf call with
      | some p => (c.select cfg p choice).map fun receiver => { c with receiver := receiver }
      | none => some c
  | .connect dump => (c.receiver.step cfg (.connect dump)).map fun r => { c with receiver := r }
  | .receive => (c.receiver.step cfg .receive).map fun r => { c with receiver := r }
  | .tick => (c.receiver.step cfg .tick).map fun r => { c with receiver := r }

/-- Nothing is on its way any more. -/
structure Cluster.Idle (c : Cluster ι) : Prop where
  flight : ∀ i, c.flight i = []
  connected : c.receiver.connected = true
  queue : c.receiver.queue = []

/-! ## What a sync sends -/

omit [Fintype ι] [DecidableEq ι] in
theorem sync_engine (fails : Nat → Option BgpError) (nextHop : IpAddr) (s : Sender) (task : Task)
    (args : SyncArgs) :
    (s.sync fails nextHop task args).engine.state =
      (s.sentCalls fails nextHop task args).foldl Tables.apply s.engine.state := by
  have hscript := script_sent Tables.apply fails
  have hcall := takes_call_sent Tables.apply fails
  have htakes : Takes (AllSent Tables.apply fails) (CutSent Tables.apply fails)
      ((s.adv task).applyDiff fails nextHop (Advertiser.desiredSet args.desired args.enabled))
      ((s.announcer task).script nextHop args) :=
    Takes.bind hscript (takes_forM_call _ _ hscript hcall _ _)
      (takes_forM_call _ _ hscript hcall _ _)
  have hstate := state_of_sent Tables.apply fails htakes s.engine
  rw [← Sender.sentCalls] at hstate
  rw [← hstate]
  show ((s.announcer task).sync fails nextHop args).2.engine.state = _
  unfold Announcer.sync
  dsimp only
  split
  · next hexec => exact (congrArg (·.2.state) hexec).symm
  · next hexec => exact (congrArg (·.2.state) hexec).symm

/-- An update from a sender with the address `nextHop`. -/
def FromSender (nextHop : IpAddr) : EngineCall → Prop
  | .addPath path => path.nextHop = nextHop ∧ path.withdrawal = false
  | .deletePath _ => True
  | .addPeer _ | .deletePeer _ => False

omit [Fintype ι] [DecidableEq ι] in
theorem sentCalls_from (fails : Nat → Option BgpError) (nextHop : IpAddr) (s : Sender) (task : Task)
    (args : SyncArgs) : ∀ c ∈ s.sentCalls fails nextHop task args, FromSender nextHop c := by
  intro c hc
  obtain hc | hc := List.mem_append.mp (mem_of_mem_sent fails hc)
  · obtain ⟨p, _, rfl⟩ := List.mem_map.mp hc
    unfold Advertiser.announcement
    cases (s.announcer task).adv.asPrepend with
    | none => exact ⟨rfl, rfl⟩
    | some prepend =>
      show FromSender nextHop (.addPath (Bgp.PathBuilder.asPathPrepend _ prepend.1 prepend.2).build)
      unfold Bgp.PathBuilder.asPathPrepend
      split <;> exact ⟨rfl, rfl⟩
  · obtain ⟨p, _, rfl⟩ := List.mem_map.mp hc
    trivial

/-- A path is read back as the announcement it is. -/
theorem parse_wire {parse : Parsers} (hparse : ReadsBack parse) (path : Path)
    (h : path.withdrawal = false) :
    parsePathEvent parse (wire path) = some ⟨path.pfx, path.nextHop, false⟩ := by
  rw [← h]
  exact Bgp.parse_build (hparse.ip path.nextHop) (hparse.net path.pfx)

/-! ## Invariant -/

/-- What is in flight leads from what the daemon was told to what the sender holds, everything the
daemon was told names its sender, and the best paths are among it. -/
structure Inv (c : Cluster ι) : Prop where
  link : ∀ i, (c.flight i).foldl Tables.apply (c.ribIn i) = (c.senders i).engine.state
  flight : ∀ i, ∀ u ∈ c.flight i, FromSender (addr i) u
  rib : ∀ (i : ι) (p : IpNet) (path : Path), (c.ribIn i).paths[p]? = some path →
    path.pfx = p ∧ path.nextHop = addr i ∧ path.withdrawal = false
  best : ∀ p : IpNet, (c.receiver.best[p]? = none ∧ ∀ i, (c.ribIn i).paths[p]? = none) ∨
    ∃ (i : ι) (path : Path),
      (c.ribIn i).paths[p]? = some path ∧ c.receiver.best[p]? = some (wire path)
  rx : c.receiver.Inv cfg
  quiet : c.receiver.connected = false → c.receiver.consumed = [] ∧ c.receiver.queue = []

omit [Fintype ι] [DecidableEq ι] in
theorem inv_init (policies : ι → List UInt32 × Option (UInt32 × UInt8)) :
    Inv addr cfg (Cluster.init cfg policies) where
  link i := rfl
  flight i u hu := by cases hu
  rib i p path h := by simp [Cluster.init] at h
  best p := .inl ⟨by simp [Cluster.init, Receiver.init], fun i => by simp [Cluster.init]⟩
  rx := Receiver.inv_init cfg
  quiet _ := ⟨rfl, rfl⟩

section Receiver

variable {addr cfg} {r r' : Receiver}

omit [Fintype ι] [DecidableEq ι] in
/-- A best path that is no path of the receiver itself. -/
theorem announce_spec (hparse : ReadsBack cfg.parse) {path : Path}
    (hpath : path.withdrawal = false) (hlocal : some path.nextHop ≠ cfg.localIp) (h : r.Inv cfg)
    (hstep : r.step cfg (.announce (wire path)) = some r') :
    r'.Inv cfg ∧ r'.best = r.best.insert path.pfx (wire path) ∧ r'.connected = r.connected ∧
      (r.connected = false → r'.consumed = r.consumed ∧ r'.queue = r.queue) := by
  have hevent : parsePathEvent cfg.parse (wire path) = some ⟨path.pfx, path.nextHop, false⟩ :=
    parse_wire hparse path hpath
  have hmissed : r.NothingMissed cfg (.announce (wire path)) := by
    intro _ ev hev heq
    rw [hevent] at hev
    obtain rfl := Option.some.inj hev
    exact absurd heq hlocal
  refine ⟨h.step hmissed hstep, ?_⟩
  simp only [Receiver.step, hevent] at hstep
  obtain rfl := Option.some.inj hstep
  refine ⟨rfl, rfl, fun hc => ⟨rfl, ?_⟩⟩
  unfold Receiver.report
  rw [if_neg (by simp [hc])]

omit [Fintype ι] [DecidableEq ι] in
theorem withdraw_spec {p : IpNet} (h : r.Inv cfg) (hstep : r.step cfg (.withdraw p) = some r') :
    r'.Inv cfg ∧ r'.best = r.best.erase p ∧ r'.connected = r.connected ∧
      (r.connected = false → r'.consumed = r.consumed ∧ r'.queue = r.queue) := by
  have hmissed : r.NothingMissed cfg (.withdraw p) := trivial
  refine ⟨h.step hmissed hstep, ?_⟩
  simp only [Receiver.step] at hstep
  split at hstep
  · obtain rfl := Option.some.inj hstep
    refine ⟨rfl, rfl, fun hc => ⟨rfl, ?_⟩⟩
    unfold Receiver.report
    rw [if_neg (by simp [hc])]
  · cases hstep

omit [Fintype ι] [DecidableEq ι] in
/-- With nothing left to report, the injector has the best paths that it accepts. -/
theorem hop_settled (h : r.Inv cfg) (hconn : r.connected = true) (hqueue : r.queue = [])
    (p : IpNet) : r.injection.hop p = r.target cfg p := by
  have hcurrent := h.current hconn p
  unfold Receiver.reported at hcurrent
  rw [hqueue, List.append_nil] at hcurrent
  rw [h.hop p, hcurrent]

end Receiver

section Steps

variable {addr cfg} {c d : Cluster ι}

omit [DecidableEq ι] in
/-- The daemon's choice restores its account of the prefix. -/
theorem select_spec (hparse : ReadsBack cfg.parse) (hlocal : ∀ i, some (addr i) ≠ cfg.localIp)
    {p : IpNet} {choice : Option ι} {r : Receiver} (hrx : c.receiver.Inv cfg)
    (hrib : ∀ i p (path : Path), (c.ribIn i).paths[p]? = some path →
      path.pfx = p ∧ path.nextHop = addr i ∧ path.withdrawal = false)
    (hsel : c.select cfg p choice = some r) :
    r.Inv cfg ∧ r.connected = c.receiver.connected ∧
      (c.receiver.connected = false →
        r.consumed = c.receiver.consumed ∧ r.queue = c.receiver.queue) ∧
      (∀ q, q ≠ p → r.best[q]? = c.receiver.best[q]?) ∧
      ((r.best[p]? = none ∧ ∀ i, (c.ribIn i).paths[p]? = none) ∨
        ∃ i path, (c.ribIn i).paths[p]? = some path ∧ r.best[p]? = some (wire path)) := by
  unfold Cluster.select at hsel
  cases choice with
  | some j =>
    simp only at hsel
    split at hsel
    · next path hpath =>
      obtain ⟨rfl, hhop, hnot⟩ := hrib j p path hpath
      split at hsel
      · next hsame =>
        obtain rfl := Option.some.inj hsel
        exact ⟨hrx, rfl, fun _ => ⟨rfl, rfl⟩, fun _ _ => rfl, .inr ⟨j, path, hpath, hsame⟩⟩
      · obtain ⟨hinv, hbest, hconn, hquiet⟩ :=
          announce_spec hparse hnot (hhop ▸ hlocal j) hrx hsel
        refine ⟨hinv, hconn, hquiet, fun q hq => ?_, .inr ⟨j, path, hpath, ?_⟩⟩
        · rw [hbest, get_insert, Function.update_of_ne hq]
        · rw [hbest, get_insert, Function.update_self]
    · cases hsel
  | none =>
    simp only at hsel
    split at hsel
    · next hnone =>
      split at hsel
      · obtain ⟨hinv, hbest, hconn, hquiet⟩ := withdraw_spec hrx hsel
        refine ⟨hinv, hconn, hquiet, fun q hq => ?_, .inl ⟨?_, hnone⟩⟩
        · rw [hbest, get_erase, Function.update_of_ne hq]
        · rw [hbest, get_erase, Function.update_self]
      · next hbest =>
        obtain rfl := Option.some.inj hsel
        refine ⟨hrx, rfl, fun _ => ⟨rfl, rfl⟩, fun _ _ => rfl, .inl ⟨?_, hnone⟩⟩
        rw [Std.TreeMap.contains_eq_isSome_getElem?, Bool.not_eq_true] at hbest
        exact Option.isSome_eq_false_iff.mp hbest |> Option.isNone_iff_eq_none.mp
    · cases hsel

/-- The tables of a sender behind one of its updates. -/
theorem apply_from {nextHop : IpAddr} {t : Tables} {u : EngineCall} (hu : FromSender nextHop u)
    (ht : ∀ p (path : Path), t.paths[p]? = some path →
      path.pfx = p ∧ path.nextHop = nextHop ∧ path.withdrawal = false) :
    ∃ p, prefixOf u = some p ∧ (∀ q, q ≠ p → (t.apply u).paths[q]? = t.paths[q]?) ∧
      ∀ q (path : Path), (t.apply u).paths[q]? = some path →
        path.pfx = q ∧ path.nextHop = nextHop ∧ path.withdrawal = false := by
  cases u with
  | addPeer peer => cases hu
  | deletePeer neighbor => cases hu
  | addPath path =>
    have hget : ∀ q, (t.apply (.addPath path)).paths[q]? =
        Function.update (fun q => t.paths[q]?) path.pfx (some path) q :=
      fun q => get_insert t.paths path.pfx q path
    refine ⟨path.pfx, rfl, fun q hq => ?_, fun q path' hq => ?_⟩
    · rw [hget, Function.update_of_ne hq]
    · rw [hget] at hq
      by_cases heq : q = path.pfx
      · subst heq
        rw [Function.update_self] at hq
        obtain rfl := Option.some.inj hq
        exact ⟨rfl, hu⟩
      · rw [Function.update_of_ne heq] at hq
        exact ht q path' hq
  | deletePath path =>
    have hget : ∀ q, (t.apply (.deletePath path)).paths[q]? =
        Function.update (fun q => t.paths[q]?) path.pfx none q :=
      fun q => get_erase t.paths path.pfx q
    refine ⟨path.pfx, rfl, fun q hq => ?_, fun q path' hq => ?_⟩
    · rw [hget, Function.update_of_ne hq]
    · rw [hget] at hq
      by_cases heq : q = path.pfx
      · subst heq
        rw [Function.update_self] at hq
        cases hq
      · rw [Function.update_of_ne heq] at hq
        exact ht q path' hq

theorem Inv.deliver (hparse : ReadsBack cfg.parse) (hlocal : ∀ i, some (addr i) ≠ cfg.localIp)
    (h : Inv addr cfg c) {i : ι} {choice : Option ι}
    (hstep : c.step addr cfg (.deliver i choice) = some d) : Inv addr cfg d := by
  simp only [Cluster.step] at hstep
  split at hstep
  · cases hstep
  · next u rest hflight =>
    have hu := h.flight i u (hflight ▸ List.mem_cons_self)
    obtain ⟨p, hp, hother, hrib⟩ := apply_from hu (h.rib i)
    rw [hp] at hstep
    obtain ⟨r, hsel, rfl⟩ := Option.map_eq_some_iff.mp hstep
    -- what the daemon was told, behind the update
    have hribs : ∀ j q (path : Path), ((c.tell i u rest).ribIn j).paths[q]? = some path →
        path.pfx = q ∧ path.nextHop = addr j ∧ path.withdrawal = false := by
      intro j q path hq
      rw [Cluster.tell_ribIn] at hq
      by_cases hj : j = i
      · subst hj
        rw [Function.update_self] at hq
        exact hrib q path hq
      · rw [Function.update_of_ne hj] at hq
        exact h.rib j q path hq
    have hsame : ∀ j q, q ≠ p →
        ((c.tell i u rest).ribIn j).paths[q]? = (c.ribIn j).paths[q]? := by
      intro j q hq
      rw [Cluster.tell_ribIn]
      by_cases hj : j = i
      · subst hj
        rw [Function.update_self, hother q hq]
      · rw [Function.update_of_ne hj]
    have hrx : (c.tell i u rest).receiver.Inv cfg := h.rx
    obtain ⟨hinv, hconn, hquiet, hbest, hchosen⟩ := select_spec hparse hlocal hrx hribs hsel
    refine ⟨fun j => ?_, fun j v hv => ?_, hribs, fun q => ?_, hinv, fun hc => ?_⟩
    · show ((c.tell i u rest).flight j).foldl Tables.apply ((c.tell i u rest).ribIn j) = _
      rw [Cluster.tell_flight, Cluster.tell_ribIn]
      have hlink := h.link j
      by_cases hj : j = i
      · subst hj
        rw [hflight, List.foldl_cons] at hlink
        rw [Function.update_self, Function.update_self]
        exact hlink
      · rw [Function.update_of_ne hj, Function.update_of_ne hj]
        exact hlink
    · have hv : v ∈ (c.tell i u rest).flight j := hv
      rw [Cluster.tell_flight] at hv
      by_cases hj : j = i
      · subst hj
        rw [Function.update_self] at hv
        exact h.flight j v (hflight ▸ List.mem_cons_of_mem u hv)
      · rw [Function.update_of_ne hj] at hv
        exact h.flight j v hv
    · by_cases hq : q = p
      · rw [hq]
        exact hchosen
      · show (r.best[q]? = none ∧ _) ∨ _
        rw [hbest q hq, show (c.tell i u rest).receiver = c.receiver from rfl]
        obtain ⟨hnone, hall⟩ | ⟨j, path, hpath, hwire⟩ := h.best q
        · exact .inl ⟨hnone, fun j => (hsame j q hq).trans (hall j)⟩
        · exact .inr ⟨j, path, (hsame j q hq).trans hpath, hwire⟩
    · have hc' : c.receiver.connected = false := hconn ▸ hc
      obtain ⟨hconsumed, hqueue⟩ := hquiet hc'
      obtain ⟨hconsumed', hqueue'⟩ := h.quiet hc'
      exact ⟨hconsumed.trans hconsumed', hqueue.trans hqueue'⟩

theorem Inv.sync (h : Inv addr cfg c) {i : ι} {task : Task} {args : SyncArgs}
    {fails : Nat → Option BgpError}
    (hstep : c.step addr cfg (.sync i task args fails) = some d) : Inv addr cfg d := by
  obtain rfl := Option.some.inj hstep
  refine ⟨fun j => ?_, fun j u hu => ?_, h.rib, h.best, h.rx, h.quiet⟩
  · by_cases hj : j = i
    · subst hj
      simp only [Function.update_self]
      rw [List.foldl_append, h.link j]
      exact (sync_engine fails (addr j) (c.senders j) task args).symm
    · simp only [Function.update_of_ne hj]
      exact h.link j
  · by_cases hj : j = i
    · subst hj
      simp only [Function.update_self] at hu
      obtain hu | hu := List.mem_append.mp hu
      · exact h.flight j u hu
      · exact sentCalls_from fails (addr j) (c.senders j) task args u hu
    · simp only [Function.update_of_ne hj] at hu
      exact h.flight j u hu

omit [Fintype ι] [DecidableEq ι] in
/-- Steps of the receiver that leave the daemon's table as it is. -/
theorem Inv.watch (h : Inv addr cfg c) {r : Receiver} (hinv : r.Inv cfg)
    (hbest : r.best = c.receiver.best)
    (hquiet : r.connected = false → r.consumed = [] ∧ r.queue = []) :
    Inv addr cfg { c with receiver := r } := by
  refine ⟨h.link, h.flight, h.rib, fun p => ?_, hinv, hquiet⟩
  show (r.best[p]? = none ∧ _) ∨ _
  rw [hbest]
  exact h.best p

/-- One step keeps the invariant. -/
theorem Inv.step (hparse : ReadsBack cfg.parse) (hlocal : ∀ i, some (addr i) ≠ cfg.localIp)
    (h : Inv addr cfg c) {a : Step ι} (hstep : c.step addr cfg a = some d) : Inv addr cfg d := by
  cases a with
  | sync i task args fails => exact h.sync hstep
  | deliver i choice => exact h.deliver hparse hlocal hstep
  | connect dump =>
    obtain ⟨r, hr, rfl⟩ := Option.map_eq_some_iff.mp hstep
    simp only [Receiver.step] at hr
    split at hr
    · next hguard =>
      obtain rfl := Option.some.inj hr
      obtain ⟨hconsumed, hqueue⟩ := h.quiet (by simpa using hguard.1)
      refine h.watch (h.rx.connect hguard.2 fun ev hev => ?_) rfl fun hc => by cases hc
      rw [hconsumed, hqueue] at hev
      cases hev
    · cases hr
  | receive =>
    obtain ⟨r, hr, rfl⟩ := Option.map_eq_some_iff.mp hstep
    simp only [Receiver.step] at hr
    split at hr
    · cases hr
    · next ev rest hqueue =>
      obtain rfl := Option.some.inj hr
      refine h.watch (h.rx.receive hqueue) rfl fun hc => ?_
      have hempty := (h.quiet hc).2
      rw [hqueue] at hempty
      cases hempty
  | tick =>
    obtain rfl := Option.some.inj hstep
    have hmissed : c.receiver.NothingMissed cfg .tick := trivial
    exact h.watch (h.rx.step hmissed rfl) rfl h.quiet

omit [Fintype ι] [DecidableEq ι] in
/-- The best paths, once the daemon was told everything. -/
theorem Inv.best_settled (h : Inv addr cfg c) (hparse : ReadsBack cfg.parse)
    (hflight : ∀ i, c.flight i = []) (p : IpNet) :
    (c.receiver.bestHop cfg p = none ∧ ∀ i, ¬(c.senders i).Announces p) ∨
      ∃ i, (c.senders i).Announces p ∧ c.receiver.bestHop cfg p = some (addr i) := by
  have hengine : ∀ i, c.ribIn i = (c.senders i).engine.state := by
    intro i
    rw [← h.link i, hflight i, List.foldl_nil]
  unfold Receiver.bestHop Sender.Announces
  simp only [← hengine]
  obtain ⟨hnone, hall⟩ | ⟨i, path, hpath, hwire⟩ := h.best p
  · refine .inl ⟨by rw [hnone, Option.bind_none], fun i => ?_⟩
    rw [hall i]
    exact Bool.false_ne_true
  · obtain ⟨hpfx, hhop, hnot⟩ := h.rib i p path hpath
    refine .inr ⟨i, by rw [hpath]; rfl, ?_⟩
    rw [hwire, Option.bind_some, parse_wire hparse path hnot, hhop]
    rfl

omit [Fintype ι] [DecidableEq ι] in
/-- The routes, once nothing is on its way any more. -/
theorem Inv.routes (h : Inv addr cfg c) (hparse : ReadsBack cfg.parse)
    (hlocal : ∀ i, some (addr i) ≠ cfg.localIp) (hidle : c.Idle) :
    (∀ p i, (c.senders i).Announces p → isRejected cfg.importReject p = false →
      ∃! r, r ∈ c.receiver.injection.kernel.state ∧ r.dst = p) ∧
    ∀ r ∈ c.receiver.injection.kernel.state, isRejected cfg.importReject r.dst = false ∧
      ∃ i, (c.senders i).Announces r.dst ∧ r = ⟨r.dst, some (addr i), mainTable⟩ := by
  have hhop := hop_settled h.rx hidle.connected hidle.queue
  have hkernel := h.rx.wf.kernel_iff
  refine ⟨fun p i hannounced hrej => ?_, fun r hr => ?_⟩
  · obtain ⟨-, hnone⟩ | ⟨j, -, hbest⟩ := h.best_settled hparse hidle.flight p
    · exact absurd hannounced (hnone i)
    · have haccepted : c.receiver.injection.hop p = some (addr j) := by
        rw [hhop p]
        exact cfg.accepted_eq_some.mpr ⟨hrej, hbest, hlocal j⟩
      refine ⟨⟨p, some (addr j), mainTable⟩, ⟨(hkernel _).mpr ⟨p, _, haccepted, rfl⟩, rfl⟩, ?_⟩
      intro r ⟨hr, hdst⟩
      obtain ⟨q, nh, hq, rfl⟩ := (hkernel r).mp hr
      obtain rfl : q = p := hdst
      rw [haccepted] at hq
      obtain rfl := Option.some.inj hq
      rfl
  · obtain ⟨p, nh, hp, rfl⟩ := (hkernel r).mp hr
    rw [hhop p] at hp
    obtain ⟨hrej, hbest, -⟩ := cfg.accepted_eq_some.mp hp
    refine ⟨hrej, ?_⟩
    obtain ⟨hnone, -⟩ | ⟨j, hannounced, hbest'⟩ := h.best_settled hparse hidle.flight p
    · rw [hnone] at hbest
      cases hbest
    · rw [hbest'] at hbest
      obtain rfl := Option.some.inj hbest
      exact ⟨j, hannounced, rfl⟩

end Steps

/-- Whenever nothing is on its way any more, in every run, the receiver has exactly one route for
each prefix that some sender announces and that it does not reject; every route it has is by way
of a sender that announces its prefix. -/
theorem mesh_delivers (addr : ι → IpAddr) (cfg : RxConfig) (hparse : ReadsBack cfg.parse)
    (policies : ι → List UInt32 × Option (UInt32 × UInt8)) (steps : List (Step ι)) (t : Cluster ι)
    (hlocal : ∀ i, some (addr i) ≠ cfg.localIp)
    (hrun : System.run (Cluster.step addr cfg) (.init cfg policies) steps = some t)
    (hidle : t.Idle) :
    (∀ p i, (t.senders i).Announces p → isRejected cfg.importReject p = false →
      ∃! r, r ∈ t.receiver.injection.kernel.state ∧ r.dst = p) ∧
    ∀ r ∈ t.receiver.injection.kernel.state, isRejected cfg.importReject r.dst = false ∧
      ∃ i, (t.senders i).Announces r.dst ∧ r = ⟨r.dst, some (addr i), mainTable⟩ := by
  have hinv : Inv addr cfg t :=
    System.run_invariant (I := Inv addr cfg) (C := fun _ _ => True)
      (fun s a u hs _ hstep => hs.step hparse hlocal hstep)
      (inv_init addr _ policies) (fun _ _ _ _ _ => trivial) hrun
  exact hinv.routes hparse hlocal hidle

section Sample

theorem podPrefix_bits : 24 ≤ (IpAddr.ofOctets 10 244 1 0).bits := by decide

def podPrefix : IpNet := ⟨.ofOctets 10 244 1 0, 24, podPrefix_bits⟩

theorem vip_bits : 32 ≤ (IpAddr.ofOctets 10 96 0 10).bits := by decide

def vip : IpNet := ⟨.ofOctets 10 96 0 10, 32, vip_bits⟩

def senderAddr : Fin 2 → IpAddr
  | 0 => .ofOctets 192 168 32 4
  | 1 => .ofOctets 192 168 32 5

def noFailure : Nat → Option BgpError := fun _ => none

/-- Readers of texts as they are printed. -/
def textParsers : Parsers where
  net text := IpNet.parse text.toList
  ip text := IpAddr.parse text.toList

theorem textParsers_readsBack : ReadsBack textParsers := ⟨IpAddr.parse_toText, IpNet.parse_toText⟩

def rx : RxConfig := ⟨textParsers, some (.ofOctets 192 168 32 3), []⟩

/-- Both senders announce the service address; the second one, whose path was the best, takes it
back. -/
def movingVip : List (Step (Fin 2)) :=
  [.sync 0 .pods ⟨[podPrefix], true⟩ noFailure, .sync 0 .vips ⟨[vip], true⟩ noFailure,
    .sync 1 .vips ⟨[vip], true⟩ noFailure, .deliver 1 (some 1),
    .connect [wire (Advertiser.announcement {} (senderAddr 1) vip)], .deliver 0 (some 0),
    .deliver 0 (some 1), .receive, .sync 1 .vips ⟨[], true⟩ noFailure, .receive, .tick,
    .deliver 1 (some 0), .receive]

theorem movingVip_idle : ∃ t, System.run (Cluster.step senderAddr rx)
    (.init rx fun _ => ([], none)) movingVip = some t ∧ t.Idle := by
  have hend : (System.run (Cluster.step senderAddr rx) (.init rx fun _ => ([], none)) movingVip).map
      (fun t => (decide (∀ i, t.flight i = []), t.receiver.connected, t.receiver.queue)) =
      some (true, true, []) := by decide +kernel
  obtain ⟨t, ht, hidle⟩ := Option.map_eq_some_iff.mp hend
  obtain ⟨hflight, hconn, hqueue⟩ : _ ∧ _ ∧ _ := by simpa only [Prod.mk.injEq] using hidle
  exact ⟨t, ht, of_decide_eq_true hflight, hconn, hqueue⟩

end Sample

theorem mesh_delivers_moving :
    ∃ t, System.run (Cluster.step senderAddr rx) (.init rx fun _ => ([], none)) movingVip =
        some t ∧
      ∀ r ∈ t.receiver.injection.kernel.state, isRejected [] r.dst = false ∧
        ∃ i, (t.senders i).Announces r.dst ∧ r = ⟨r.dst, some (senderAddr i), mainTable⟩ := by
  obtain ⟨t, hrun, hidle⟩ := movingVip_idle
  exact ⟨t, hrun, (mesh_delivers senderAddr rx textParsers_readsBack (fun _ => ([], none))
    movingVip t (by decide) hrun hidle).2⟩

/-! ## What the senders were asked for -/

namespace Task

def other : Task → Task
  | .pods => .vips
  | .vips => .pods

@[simp] theorem other_ne (task : Task) : task.other ≠ task := by
  cases task <;> exact fun h => nomatch h

@[simp] theorem other_other (task : Task) : task.other.other = task := by
  cases task <;> rfl

theorem eq_or_other (task u : Task) : u = task ∨ u = task.other := by
  cases task <;> cases u <;> simp [other]

theorem exists_iff {P : Task → Prop} (task : Task) : (∃ u, P u) ↔ P task ∨ P task.other := by
  constructor
  · rintro ⟨u, hu⟩
    obtain rfl | rfl := eq_or_other task u
    · exact .inl hu
    · exact .inr hu
  · rintro (h | h)
    · exact ⟨task, h⟩
    · exact ⟨task.other, h⟩

end Task

namespace Sender

/-- The prefixes on record at one of the advertisers. -/
def records (s : Sender) (task : Task) (p : IpNet) : Bool := (s.adv task).advertised.contains p

/-- The engine has exactly what is on record, and nothing is on record twice. -/
structure Settled (s : Sender) : Prop where
  apart : ∀ (task : Task) (p : IpNet), s.records task p = true → s.records task.other p = false
  engine : ∀ p : IpNet, s.engine.state.paths.contains p = true ↔ ∃ task, s.records task p = true

theorem settled_init (pods vips : Advertiser) (hpods : pods.advertised = ∅)
    (hvips : vips.advertised = ∅) : Settled { pods := pods, vips := vips } := by
  have hnone : ∀ task p, records { pods := pods, vips := vips } task p = false := by
    intro task p
    cases task <;> simp [records, adv, hpods, hvips]
  refine ⟨fun task p h => ?_, fun p => ?_⟩
  · rw [hnone] at h
    cases h
  · simp [hnone]

variable {s : Sender} {task : Task} {args : SyncArgs} {fails : Nat → Option BgpError}
  {nextHop : IpAddr}

theorem adv_sync_self : (s.sync fails nextHop task args).adv task =
    ((s.announcer task).sync fails nextHop args).2.adv := by
  cases task <;> rfl

theorem adv_sync_other : (s.sync fails nextHop task args).adv task.other = s.adv task.other := by
  cases task <;> rfl

/-- A sync that succeeds puts what it is asked for on record. -/
theorem records_sync {n : Nat × Nat}
    (hn : ((s.announcer task).sync fails nextHop args).1 = .ok n) (p : IpNet) :
    (s.sync fails nextHop task args).records task p = args.wants p ∧
      (s.sync fails nextHop task args).records task.other p = s.records task.other p := by
  unfold records
  rw [adv_sync_self, adv_sync_other, (Announcer.sync_ok hn).1]
  exact ⟨Advertiser.contains_desiredSet args p, rfl⟩

/-- A sync that succeeds, for prefixes that the other advertiser does not have. -/
theorem Settled.sync (h : s.Settled) {n : Nat × Nat}
    (hn : ((s.announcer task).sync fails nextHop args).1 = .ok n)
    (hapart : ∀ p, args.wants p = true → s.records task.other p = false) :
    (s.sync fails nextHop task args).Settled := by
  have hcorr := Announcer.sync_corrects hn
  have hrec : ∀ p, (s.sync fails nextHop task args).records task p = args.wants p ∧
      (s.sync fails nextHop task args).records task.other p = s.records task.other p :=
    fun p => records_sync hn p
  refine ⟨fun u p hp => ?_, fun p => ?_⟩
  · obtain rfl | rfl := Task.eq_or_other task u
    · rw [(hrec p).1] at hp
      rw [(hrec p).2]
      exact hapart p hp
    · rw [Task.other_other, (hrec p).1]
      rw [(hrec p).2] at hp
      exact Bool.eq_false_of_not_eq_true fun hw => by rw [hapart p hw] at hp; cases hp
  · rw [Task.exists_iff task, (hrec p).1, (hrec p).2]
    show ((s.announcer task).sync fails nextHop args).2.announces p = true ↔ _
    by_cases heq : args.wants p = (s.announcer task).records p
    · rw [hcorr.trusted p heq, heq]
      show s.engine.state.paths.contains p = true ↔ _
      rw [h.engine, Task.exists_iff task]
      rfl
    · rw [hcorr.changed p heq]
      cases hw : args.wants p with
      | true => simp
      | false =>
        -- the prefix is withdrawn, and the other advertiser never had it
        have hrecord : s.records task p = true := by
          rw [hw] at heq
          exact Bool.eq_true_of_not_eq_false fun hf => heq hf.symm
        simp [h.apart task p hrecord]

end Sender

/-- What the last sync of an advertiser was asked for. -/
def Step.asks (i : ι) (task : Task) : Step ι → Option SyncArgs
  | .sync j u args _ => if j = i ∧ u = task then some args else none
  | .deliver _ _ | .connect _ | .receive | .tick => none

def lastAsked (i : ι) (task : Task) (steps : List (Step ι)) : Option SyncArgs :=
  (steps.filterMap (Step.asks i task)).getLast?

/-- The last sync of one of the sender's advertisers was asked for the prefix. -/
def Asked (steps : List (Step ι)) (i : ι) (p : IpNet) : Prop :=
  ∃ task, (lastAsked i task steps).any (·.wants p) = true

/-- The sync succeeds, and asks for no prefix that the sender's other advertiser has on
record. -/
def Cluster.Smooth (c : Cluster ι) : Step ι → Prop
  | .sync i task args fails =>
    (((c.senders i).announcer task).sync fails (addr i) args).1.isOk = true ∧
    ∀ p ∈ args.desired, args.wants p = true → (c.senders i).records task.other p = false
  | .deliver _ _ | .connect _ | .receive | .tick => True

instance (c : Cluster ι) (a : Step ι) : Decidable (c.Smooth addr a) :=
  match a with
  | .sync _ _ _ _ => inferInstanceAs (Decidable (_ ∧ _))
  | .deliver _ _ | .connect _ | .receive | .tick => inferInstanceAs (Decidable True)

omit [Fintype ι] [DecidableEq ι] in
theorem Cluster.Smooth.sync {addr : ι → IpAddr} {c : Cluster ι} {i : ι} {task : Task}
    {args : SyncArgs} {fails : Nat → Option BgpError}
    (h : c.Smooth addr (.sync i task args fails)) :
    ∃ n, (((c.senders i).announcer task).sync fails (addr i) args).1 = .ok n ∧
      ∀ p, args.wants p = true → (c.senders i).records task.other p = false := by
  obtain ⟨hok, hapart⟩ := h
  cases hres : (((c.senders i).announcer task).sync fails (addr i) args).1 with
  | error e =>
    rw [hres] at hok
    cases hok
  | ok n =>
    refine ⟨n, rfl, fun p hp => hapart p ?_ hp⟩
    unfold SyncArgs.wants at hp
    exact List.contains_iff_mem.mp (Bool.and_eq_true_iff.mp hp).2

omit [Fintype ι] in
theorem lastAsked_concat (i : ι) (task : Task) (steps : List (Step ι)) (a : Step ι) :
    lastAsked i task (steps ++ [a]) = (a.asks i task).or (lastAsked i task steps) := by
  unfold lastAsked
  rw [List.filterMap_append]
  cases h : a.asks i task with
  | none => simp [h]
  | some args => simp [h]

/-- Only syncs change the senders. -/
def Cluster.synced (c : Cluster ι) : Step ι → ι → Sender
  | .sync i task args fails =>
    Function.update c.senders i ((c.senders i).sync fails (addr i) task args)
  | .deliver _ _ | .connect _ | .receive | .tick => c.senders

theorem senders_step {c d : Cluster ι} {a : Step ι} (hstep : c.step addr cfg a = some d) :
    d.senders = c.synced addr a := by
  cases a with
  | sync i task args fails =>
    obtain rfl := Option.some.inj hstep
    rfl
  | deliver i choice =>
    simp only [Cluster.step] at hstep
    split at hstep
    · cases hstep
    · split at hstep
      · obtain ⟨r, -, rfl⟩ := Option.map_eq_some_iff.mp hstep
        rfl
      · obtain rfl := Option.some.inj hstep
        rfl
  | connect dump =>
    obtain ⟨r, -, rfl⟩ := Option.map_eq_some_iff.mp hstep
    rfl
  | receive =>
    obtain ⟨r, -, rfl⟩ := Option.map_eq_some_iff.mp hstep
    rfl
  | tick =>
    obtain rfl := Option.some.inj hstep
    rfl

/-- Every advertiser has on record what it was last asked for. -/
structure OnRecord (steps : List (Step ι)) (c : Cluster ι) : Prop where
  settled : ∀ i, (c.senders i).Settled
  records : ∀ (i : ι) (task : Task) (p : IpNet),
    (c.senders i).records task p = (lastAsked i task steps).any (·.wants p)

omit [Fintype ι] in
theorem onRecord_init (policies : ι → List UInt32 × Option (UInt32 × UInt8)) :
    OnRecord [] (Cluster.init cfg policies) := by
  refine ⟨fun i => Sender.settled_init _ _ rfl rfl, fun i task p => ?_⟩
  cases task <;> simp [Cluster.init, Sender.records, Sender.adv, lastAsked]

theorem OnRecord.step {steps : List (Step ι)} {c d : Cluster ι} (h : OnRecord steps c) {a : Step ι}
    (hsmooth : c.Smooth addr a) (hstep : c.step addr cfg a = some d) :
    OnRecord (steps ++ [a]) d := by
  have hsenders := senders_step addr cfg hstep
  cases a with
  | sync i task args fails =>
    obtain ⟨n, hn, hapart⟩ := hsmooth.sync
    refine ⟨fun j => ?_, fun j u p => ?_⟩
    · rw [hsenders, Cluster.synced]
      by_cases hj : j = i
      · subst hj
        rw [Function.update_self]
        exact (h.settled j).sync hn hapart
      · rw [Function.update_of_ne hj]
        exact h.settled j
    · rw [hsenders, lastAsked_concat, Cluster.synced]
      by_cases hj : j = i
      · subst hj
        rw [Function.update_self]
        have hrec := Sender.records_sync hn p
        obtain rfl | rfl := Task.eq_or_other task u
        · rw [hrec.1]
          simp [Step.asks]
        · rw [hrec.2, h.records]
          have hne : task ≠ task.other := fun heq => Task.other_ne task heq.symm
          simp [Step.asks, hne]
      · have hne : i ≠ j := fun heq => hj heq.symm
        rw [Function.update_of_ne hj, h.records]
        simp [Step.asks, hne]
  | _ =>
    refine ⟨fun j => ?_, fun j u p => ?_⟩
    · rw [hsenders]
      exact h.settled j
    · rw [hsenders, lastAsked_concat]
      exact h.records j u p

omit [Fintype ι] in
theorem OnRecord.announces_iff {steps : List (Step ι)} {c : Cluster ι} (h : OnRecord steps c)
    (i : ι) (p : IpNet) : (c.senders i).Announces p ↔ Asked steps i p := by
  have hengine := (h.settled i).engine p
  rw [Std.TreeMap.contains_eq_isSome_getElem?] at hengine
  unfold Sender.Announces Asked
  rw [hengine]
  simp only [h.records]

/-- From what the advertisers are asked for to the routes of another node: in every run in which
all syncs succeed and no prefix is asked of both advertisers of a sender, whenever nothing is on its
way any more, the receiver has exactly one route for each prefix that some advertiser was last asked
for and that it does not reject, and no other routes. -/
theorem mesh_converges (addr : ι → IpAddr) (cfg : RxConfig) (hparse : ReadsBack cfg.parse)
    (policies : ι → List UInt32 × Option (UInt32 × UInt8)) (steps : List (Step ι)) (t : Cluster ι)
    (hlocal : ∀ i, some (addr i) ≠ cfg.localIp)
    (hrun : System.run (Cluster.step addr cfg) (.init cfg policies) steps = some t)
    (hsmooth : System.Meets (Cluster.step addr cfg) (Cluster.Smooth addr) (.init cfg policies)
      steps)
    (hidle : t.Idle) :
    (∀ p i, Asked steps i p → isRejected cfg.importReject p = false →
      ∃! r, r ∈ t.receiver.injection.kernel.state ∧ r.dst = p) ∧
    ∀ r ∈ t.receiver.injection.kernel.state, isRejected cfg.importReject r.dst = false ∧
      ∃ i, Asked steps i r.dst ∧ r = ⟨r.dst, some (addr i), mainTable⟩ := by
  have hboth := System.run_history (I := fun before c => Inv addr cfg c ∧ OnRecord before c)
    (fun before s a u hs hC hstep =>
      ⟨hs.1.step hparse hlocal hstep, hs.2.step addr cfg hC hstep⟩)
    ⟨inv_init addr _ policies, onRecord_init _ policies⟩ hsmooth hrun
  obtain ⟨hinv, hrecord⟩ := hboth
  obtain ⟨hone, hevery⟩ := hinv.routes hparse hlocal hidle
  simp only [hrecord.announces_iff] at hone hevery
  exact ⟨hone, hevery⟩

theorem mesh_converges_moving :
    ∃ t, System.run (Cluster.step senderAddr rx) (.init rx fun _ => ([], none)) movingVip =
        some t ∧
      ∃! r, r ∈ t.receiver.injection.kernel.state ∧ r.dst = vip := by
  obtain ⟨t, hrun, hidle⟩ := movingVip_idle
  refine ⟨t, hrun, (mesh_converges senderAddr rx textParsers_readsBack (fun _ => ([], none))
    movingVip t (by decide) hrun ?_ hidle).1 vip 0 ⟨.vips, ?_⟩ rfl⟩
  · decide +kernel
  · decide +kernel

end Cluster

end KubeRouter.Routing.Mesh
