/-
  BGP peers of a node (`routing/src/peers.rs`, `routing/src/controller.rs`).

  The controller adds the configured external peers once, when it starts. On every tick it
  derives the iBGP peers from the node snapshot, records them, and then applies the difference
  to the previous record call by call. A failed call ends the tick; the record keeps what the
  calls behind it would have done.

  Proved:
  * `diffCalls_corrects`: the calls for a difference write exactly where the two lists differ.
  * `Follows`: the engine and the record of a run are those of the calls that went through.
  * `ticks_exact_iff`: over every run with any calls failing, each tick without a failure leaves
    exactly the external and the derived peers in the engine if and only if, at every neighbor
    it has no call for, the last call that went through left the peer now meant.
  * `exact_without_failures`: so every tick of a run without failures does.
  * `lost_peer_stays_lost`: a peer that could not be added is never added again.
-/
import Std.Data.String.ToNat
import Mathlib.Data.List.Pairwise
import KubeRouter.Bgp.Engine
import KubeRouter.Lib.Reconcile
import KubeRouter.Lib.System

namespace KubeRouter.Routing

open Program Bgp

/-! ## Derivation -/

structure NodeBgp where
  name : String
  ip : IpAddr
  asn : UInt32
  rrServer : Option UInt32
  rrClient : Option UInt32
deriving DecidableEq, Repr

structure BgpPeer where
  neighbor : IpAddr
  peerAsn : UInt32
  isExternal : Bool
  rrClient : Bool
  rrClusterId : Option UInt32
deriving DecidableEq, Repr

/-- A reflector server peers with everyone, a client with servers only; without reflectors the
mesh is full or within one ASN. -/
def shouldPeer (localNode : NodeBgp) (fullMesh : Bool) (o : NodeBgp) : Bool :=
  if localNode.rrServer.isSome then true
  else if localNode.rrClient.isSome then o.rrServer.isSome
  else if fullMesh then true
  else o.asn == localNode.asn

/-- The peer that `localNode` configures for another node, if any. -/
def peerFor (localNode : NodeBgp) (fullMesh : Bool) (o : NodeBgp) : Option BgpPeer :=
  let client := localNode.rrServer.isSome && o.rrServer.isNone
  if o.name = localNode.name then none
  else if shouldPeer localNode fullMesh o then
    some {
      neighbor := o.ip
      peerAsn := o.asn
      isExternal := false
      rrClient := client
      rrClusterId := if client then localNode.rrServer else none }
  else none

def deriveIbgpPeers (localNode : NodeBgp) (others : List NodeBgp) (fullMesh enableIbgp : Bool) :
    List BgpPeer :=
  if !enableIbgp then [] else others.filterMap (peerFor localNode fullMesh)

def peerDiff (current desired : List BgpPeer) : List BgpPeer × List IpAddr :=
  (desired.filter (fun d => !current.any (· == d)),
    (current.filter fun c => !desired.any (·.neighbor == c.neighbor)).map (·.neighbor))

def toPeerConfig (gracefulRestart : Option GracefulRestart) (p : BgpPeer) : PeerConfig where
  neighbor := p.neighbor
  peerAsn := p.peerAsn
  isExternal := p.isExternal
  rrClient := p.rrClient
  rrClusterId := p.rrClusterId.map fun c => Nat.repr c.toNat
  localAddress := none
  password := none
  port := none
  multihopTtl := none
  gracefulRestart := gracefulRestart

/-! ## Controller -/

structure RoutesControllerConfig where
  localNode : NodeBgp
  fullMesh : Bool
  enableIbgp : Bool
  gracefulRestart : Option GracefulRestart
deriving DecidableEq, Repr

structure RoutesController where
  cfg : RoutesControllerConfig
  externalPeers : List PeerConfig
  currentPeers : List BgpPeer := []
  externalApplied : Bool := false
  engine : Remote Tables := { state := {} }

/-- The peers derived from a snapshot. -/
def RoutesControllerConfig.derive (cfg : RoutesControllerConfig) (nodes : List NodeBgp) :
    List BgpPeer :=
  deriveIbgpPeers cfg.localNode nodes cfg.fullMesh cfg.enableIbgp

namespace RoutesController

def addExternal (fails : Nat → Option BgpError) (peers : List PeerConfig) :
    Prog (Remote Tables) BgpError PUnit :=
  peers.forM fun peer => call Tables.apply fails (.addPeer peer)

def applyExternalPeers (fails : Nat → Option BgpError) (s : RoutesController) :
    Except BgpError Nat × RoutesController :=
  if s.externalApplied then (.ok 0, s)
  else
    match Prog.exec (addExternal fails s.externalPeers) s.engine with
    | (.ok _, engine) =>
      (.ok s.externalPeers.length, { s with externalApplied := true, engine := engine })
    | (.error e, engine) => (.error e, { s with engine := engine })

/-- The difference to the record, which is replaced at once. -/
def reconcile (s : RoutesController) (nodes : List NodeBgp) :
    (List BgpPeer × List IpAddr) × RoutesController :=
  let desired := s.cfg.derive nodes
  (peerDiff s.currentPeers desired, { s with currentPeers := desired })

/-- The two loops of `reconcile_and_apply`. -/
def applyDiff (fails : Nat → Option BgpError) (gracefulRestart : Option GracefulRestart)
    (add : List BgpPeer) (remove : List IpAddr) : Prog (Remote Tables) BgpError PUnit := do
  add.forM fun peer => call Tables.apply fails (.addPeer (toPeerConfig gracefulRestart peer))
  remove.forM fun neighbor => call Tables.apply fails (.deletePeer neighbor)

def reconcileAndApply (fails : Nat → Option BgpError) (s : RoutesController)
    (nodes : List NodeBgp) : Except BgpError (Nat × Nat) × RoutesController :=
  let ((add, remove), s) := s.reconcile nodes
  match Prog.exec (applyDiff fails s.cfg.gracefulRestart add remove) s.engine with
  | (.ok _, engine) => (.ok (add.length, remove.length), { s with engine := engine })
  | (.error e, engine) => (.error e, { s with engine := engine })

/-- One tick of `run`; an error is logged. -/
def step (fails : Nat → Option BgpError) (s : RoutesController) (nodes : List NodeBgp) :
    Option RoutesController := some (s.reconcileAndApply fails nodes).2

/-- `run` before its first tick; an error is logged. -/
def start (fails : Nat → Option BgpError) (cfg : RoutesControllerConfig)
    (externalPeers : List PeerConfig) : RoutesController :=
  (applyExternalPeers fails { cfg := cfg, externalPeers := externalPeers }).2

end RoutesController

/-! ## Peers by neighbor -/

def peerAt (peers : List BgpPeer) (n : IpAddr) : Option BgpPeer := peers.find? (·.neighbor == n)

/-- The external peer of a neighbor; the last one configured counts. -/
def externalAt (peers : List PeerConfig) (n : IpAddr) : Option PeerConfig :=
  peers.reverse.find? (·.neighbor == n)

/-- A list of iBGP peers next to the external ones: one for each neighbor, none of them
external. -/
structure Distinct (external : List PeerConfig) (peers : List BgpPeer) : Prop where
  unique : peers.Pairwise fun p q => p.neighbor ≠ q.neighbor
  apart : ∀ p ∈ peers, ∀ e ∈ external, e.neighbor ≠ p.neighbor

/-- Node names and addresses are unique, and no node address is an external neighbor. -/
structure ValidSnapshot (external : List PeerConfig) (nodes : List NodeBgp) : Prop where
  names : nodes.Pairwise fun a b => a.name ≠ b.name
  ips : nodes.Pairwise fun a b => a.ip ≠ b.ip
  apart : ∀ n ∈ nodes, ∀ e ∈ external, e.neighbor ≠ n.ip

theorem peerFor_neighbor {localNode o : NodeBgp} {fullMesh : Bool} {p : BgpPeer}
    (h : peerFor localNode fullMesh o = some p) : p.neighbor = o.ip := by
  unfold peerFor at h
  dsimp only at h
  split at h
  · cases h
  · split at h
    · cases h
      rfl
    · cases h

theorem distinct_derive (cfg : RoutesControllerConfig) {external : List PeerConfig}
    {nodes : List NodeBgp} (h : ValidSnapshot external nodes) :
    Distinct external (cfg.derive nodes) := by
  unfold RoutesControllerConfig.derive deriveIbgpPeers
  split
  · exact ⟨List.Pairwise.nil, fun p hp => absurd hp List.not_mem_nil⟩
  · constructor
    · rw [List.pairwise_filterMap]
      refine h.ips.imp fun {a b} hab p hp q hq => ?_
      rw [peerFor_neighbor hp, peerFor_neighbor hq]
      exact hab
    · intro p hp e he
      obtain ⟨o, ho, hpeer⟩ := List.mem_filterMap.mp hp
      rw [peerFor_neighbor hpeer]
      exact h.apart o ho e he

theorem Distinct.peerAt_eq {external : List PeerConfig} {peers : List BgpPeer}
    (h : Distinct external peers) {n : IpAddr} {p : BgpPeer} :
    peerAt peers n = some p ↔ p ∈ peers ∧ p.neighbor = n := by
  constructor
  · intro hp
    exact ⟨List.mem_of_find?_eq_some hp, by simpa using List.find?_some hp⟩
  · intro ⟨hp, hn⟩
    have hsome : (peerAt peers n).isSome = true := by
      unfold peerAt
      exact List.find?_isSome.mpr ⟨p, hp, by simp [hn]⟩
    obtain ⟨q, hq⟩ := Option.isSome_iff_exists.mp hsome
    have hqn : q.neighbor = n := by simpa using List.find?_some hq
    by_contra hne
    have hpq : p ≠ q := fun heq => hne (heq ▸ hq)
    have : Std.Symm fun x y : BgpPeer => x.neighbor ≠ y.neighbor := ⟨fun _ _ hxy => hxy.symm⟩
    exact List.Pairwise.forall h.unique hp (List.mem_of_find?_eq_some hq) hpq (hn.trans hqn.symm)

theorem peerAt_eq_none {peers : List BgpPeer} {n : IpAddr} :
    peerAt peers n = none ↔ ∀ p ∈ peers, p.neighbor ≠ n := by
  simp [peerAt]

theorem Distinct.externalAt_none {external : List PeerConfig} {peers : List BgpPeer}
    (h : Distinct external peers) {p : BgpPeer} (hp : p ∈ peers) :
    externalAt external p.neighbor = none := by
  unfold externalAt
  rw [List.find?_eq_none]
  intro e he
  have hne := h.apart p hp e (List.mem_reverse.mp he)
  simpa using hne

theorem toPeerConfig_injective (gr : Option GracefulRestart) :
    Function.Injective (toPeerConfig gr) := by
  intro p q h
  have hid : p.rrClusterId = q.rrClusterId := by
    have hrepr : Function.Injective fun c : UInt32 => Nat.repr c.toNat :=
      fun a b hab => UInt32.toNat_inj.mp (Nat.repr_injective hab)
    exact Option.map_injective hrepr (congrArg PeerConfig.rrClusterId h)
  have hneighbor : p.neighbor = q.neighbor := congrArg PeerConfig.neighbor h
  have hasn : p.peerAsn = q.peerAsn := congrArg PeerConfig.peerAsn h
  have hext : p.isExternal = q.isExternal := congrArg PeerConfig.isExternal h
  have hclient : p.rrClient = q.rrClient := congrArg PeerConfig.rrClient h
  cases p
  cases q
  simp_all

/-! ## The difference -/

/-- The calls for a difference: what is new or changed is added, then what is gone is deleted. -/
def diffCalls (gr : Option GracefulRestart) (current desired : List BgpPeer) : List EngineCall :=
  (peerDiff current desired).1.map (fun p => .addPeer (toPeerConfig gr p)) ++
    (peerDiff current desired).2.map .deletePeer

/-- What the engine is meant to have for a neighbor, next to the external peers. -/
def meantAt (gr : Option GracefulRestart) (external : List PeerConfig) (peers : List BgpPeer)
    (n : IpAddr) : Option PeerConfig :=
  ((peerAt peers n).map (toPeerConfig gr)).or (externalAt external n)

section Diff

variable {gr : Option GracefulRestart} {external : List PeerConfig}
  {peers current desired : List BgpPeer} {n : IpAddr}

theorem meantAt_of_mem (h : Distinct external peers) {p : BgpPeer} (hp : p ∈ peers) :
    meantAt gr external peers p.neighbor = some (toPeerConfig gr p) := by
  unfold meantAt
  rw [h.peerAt_eq.mpr ⟨hp, rfl⟩]
  rfl

theorem meantAt_of_none (h : peerAt peers n = none) :
    meantAt gr external peers n = externalAt external n := by
  unfold meantAt
  rw [h]
  rfl

theorem mem_toAdd {p : BgpPeer} :
    p ∈ (peerDiff current desired).1 ↔ p ∈ desired ∧ p ∉ current := by
  simp only [peerDiff, List.mem_filter, Bool.not_eq_true', List.any_eq_false, beq_iff_eq]
  refine and_congr_right fun _ => ⟨fun h hp => h p hp rfl, fun h q hq heq => h (heq ▸ hq)⟩

theorem mem_toRemove {n : IpAddr} :
    n ∈ (peerDiff current desired).2 ↔
      (∃ c ∈ current, c.neighbor = n) ∧ ∀ d ∈ desired, d.neighbor ≠ n := by
  simp only [peerDiff, List.mem_map, List.mem_filter, Bool.not_eq_true', List.any_eq_false,
    beq_iff_eq]
  constructor
  · intro ⟨c, ⟨hc, hnone⟩, hn⟩
    subst hn
    exact ⟨⟨c, hc, rfl⟩, hnone⟩
  · intro ⟨⟨c, hc, hn⟩, hnone⟩
    subst hn
    exact ⟨c, ⟨hc, hnone⟩, rfl⟩

/-- The calls write only where the two lists differ, and what is desired. -/
theorem diffCalls_writes (hs : Distinct external current) (hd : Distinct external desired)
    (n : IpAddr) (c : EngineCall) (hc : c ∈ diffCalls gr current desired)
    (v : Option PeerConfig) (hv : peerWrite n c = some v) :
    v = meantAt gr external desired n ∧
      meantAt gr external desired n ≠ meantAt gr external current n := by
  obtain hc | hc := List.mem_append.mp hc
  · obtain ⟨p, hp, rfl⟩ := List.mem_map.mp hc
    obtain ⟨hpd, hpc⟩ := mem_toAdd.mp hp
    by_cases heq : p.neighbor = n
    · subst heq
      have hv : some (toPeerConfig gr p) = v := by simpa [peerWrite, toPeerConfig] using hv
      have hwant : meantAt gr external desired p.neighbor = _ := meantAt_of_mem hd hpd
      refine ⟨by rw [← hv, hwant], fun hsame => ?_⟩
      rw [hwant] at hsame
      cases hrec : peerAt current p.neighbor with
      | none =>
        have hnone : meantAt gr external current p.neighbor = none :=
          (meantAt_of_none hrec).trans (hd.externalAt_none hpd)
        rw [hnone] at hsame
        cases hsame
      | some q =>
        obtain ⟨hq, hqn⟩ := hs.peerAt_eq.mp hrec
        have hrecorded : meantAt gr external current p.neighbor = _ := hqn ▸ meantAt_of_mem hs hq
        rw [hrecorded] at hsame
        have hpq : p = q := toPeerConfig_injective _ (Option.some.inj hsame)
        exact hpc (hpq ▸ hq)
    · simp [peerWrite, toPeerConfig, heq] at hv
  · obtain ⟨m, hm, rfl⟩ := List.mem_map.mp hc
    obtain ⟨⟨q, hq, hqm⟩, hnone⟩ := mem_toRemove.mp hm
    by_cases heq : m = n
    · subst heq
      subst hqm
      have hv : none = v := by simpa [peerWrite] using hv
      have hwant : meantAt gr external desired q.neighbor = none :=
        (meantAt_of_none (peerAt_eq_none.mpr hnone)).trans (hs.externalAt_none hq)
      refine ⟨by rw [← hv, hwant], fun hsame => ?_⟩
      have hrecorded : meantAt gr external current q.neighbor = _ := meantAt_of_mem hs hq
      rw [hwant, hrecorded] at hsame
      cases hsame
    · simp [peerWrite, heq] at hv

/-- The calls write wherever the two lists differ. -/
theorem diffCalls_covers (hs : Distinct external current) (hd : Distinct external desired)
    (n : IpAddr) (hdiff : meantAt gr external desired n ≠ meantAt gr external current n) :
    ∃ c ∈ diffCalls gr current desired, (peerWrite n c).isSome = true := by
  cases hwant : peerAt desired n with
  | some p =>
    obtain ⟨hp, hpn⟩ := hd.peerAt_eq.mp hwant
    subst hpn
    have hnew : p ∉ current := by
      intro hold
      refine hdiff ?_
      rw [meantAt_of_mem hd hp, meantAt_of_mem hs hold]
    exact ⟨_, List.mem_append_left _ (List.mem_map_of_mem (mem_toAdd.mpr ⟨hp, hnew⟩)),
      by simp [peerWrite, toPeerConfig]⟩
  | none =>
    have hnone := peerAt_eq_none.mp hwant
    have hold : ∃ c ∈ current, c.neighbor = n := by
      by_contra hno
      refine hdiff ?_
      have hrec : peerAt current n = none :=
        peerAt_eq_none.mpr fun c hc hcn => hno ⟨c, hc, hcn⟩
      exact (meantAt_of_none hwant).trans (meantAt_of_none hrec).symm
    exact ⟨_, List.mem_append_right _ (List.mem_map_of_mem (mem_toRemove.mpr ⟨hold, hnone⟩)),
      by simp [peerWrite]⟩

theorem diffCalls_corrects (hs : Distinct external current) (hd : Distinct external desired)
    (t : Tables) : Reconcile.Corrects (fun n => t.peers[n]?) (meantAt gr external current)
      (meantAt gr external desired)
      (fun n => ((diffCalls gr current desired).foldl Tables.apply t).peers[n]?) :=
  Reconcile.corrects_of_script writes_peers (diffCalls gr current desired) t
    (diffCalls_writes hs hd) (diffCalls_covers hs hd)

theorem takes_applyDiff {fails : Nat → Option BgpError}
    {R F : Remote Tables → Remote Tables → List EngineCall → Prop} (hR : Script R F)
    (hcall : ∀ c, Takes R F (call Tables.apply fails c) [c]) (gr : Option GracefulRestart)
    (current desired : List BgpPeer) :
    Takes R F (RoutesController.applyDiff fails gr (peerDiff current desired).1
      (peerDiff current desired).2) (diffCalls gr current desired) :=
  Takes.bind hR (takes_forM_call _ _ hR hcall _ _) (takes_forM_call _ _ hR hcall _ _)

end Diff

namespace RoutesController

/-- The peers a controller means the engine to have when its iBGP peers are `peers`. -/
def meant (s : RoutesController) (peers : List BgpPeer) (n : IpAddr) : Option PeerConfig :=
  ((peerAt peers n).map (toPeerConfig s.cfg.gracefulRestart)).or (externalAt s.externalPeers n)

def recorded (s : RoutesController) : IpAddr → Option PeerConfig := s.meant s.currentPeers

def wanted (s : RoutesController) (nodes : List NodeBgp) : IpAddr → Option PeerConfig :=
  s.meant (s.cfg.derive nodes)

def configured (s : RoutesController) (n : IpAddr) : Option PeerConfig := s.engine.state.peers[n]?

/-! ## One tick -/

/-- The calls of a tick without failures. -/
def script (s : RoutesController) (nodes : List NodeBgp) : List EngineCall :=
  diffCalls s.cfg.gracefulRestart s.currentPeers (s.cfg.derive nodes)

variable {fails : Nat → Option BgpError} {s : RoutesController} {nodes : List NodeBgp}

/-- What a tick leaves: the record is the derived one, the engine has the calls that took
effect, and the tick is fine if all of them did. -/
theorem tick_spec : (s.reconcileAndApply fails nodes).2.cfg = s.cfg ∧
    (s.reconcileAndApply fails nodes).2.externalPeers = s.externalPeers ∧
    (s.reconcileAndApply fails nodes).2.currentPeers = s.cfg.derive nodes ∧
    (s.reconcileAndApply fails nodes).2.engine.state =
      (sent fails s.engine.calls (s.script nodes)).foldl Tables.apply s.engine.state ∧
    (s.reconcileAndApply fails nodes).2.engine.calls =
      s.engine.calls + made fails s.engine.calls (s.script nodes) ∧
    ((∃ n, (s.reconcileAndApply fails nodes).1 = .ok n) ↔
      sent fails s.engine.calls (s.script nodes) = s.script nodes) := by
  have htakes := takes_applyDiff (script_sent Tables.apply fails)
      (takes_call_sent Tables.apply fails)
    s.cfg.gracefulRestart s.currentPeers (s.cfg.derive nodes)
  have hstate := state_of_sent Tables.apply fails htakes s.engine
  have hcalls := calls_of_sent Tables.apply fails htakes s.engine
  have hok := ok_iff_sent Tables.apply fails htakes s.engine
  unfold reconcileAndApply reconcile
  dsimp only
  split
  · next engine hexec =>
    rw [hexec] at hstate hcalls hok
    exact ⟨rfl, rfl, rfl, hstate, hcalls, ⟨fun _ => hok.mp ⟨_, rfl⟩, fun _ => ⟨_, rfl⟩⟩⟩
  · next e engine hexec =>
    rw [hexec] at hstate hcalls hok
    refine ⟨rfl, rfl, rfl, hstate, hcalls, fun h => ?_, fun h => ?_⟩
    · obtain ⟨n, hn⟩ := h
      cases hn
    · obtain ⟨n, hn⟩ := hok.mpr h
      cases hn

theorem tick_corrects (hs : Distinct s.externalPeers s.currentPeers)
    (hd : Distinct s.externalPeers (s.cfg.derive nodes)) {n : Nat × Nat}
    (h : (s.reconcileAndApply fails nodes).1 = .ok n) :
    Reconcile.Corrects s.configured s.recorded (s.wanted nodes)
      (s.reconcileAndApply fails nodes).2.configured := by
  obtain ⟨-, -, -, hstate, -, hok⟩ := @tick_spec fails s nodes
  have hafter : (s.reconcileAndApply fails nodes).2.configured = fun n =>
      ((s.script nodes).foldl Tables.apply s.engine.state).peers[n]? := by
    funext n
    unfold configured
    rw [hstate, hok.mp ⟨_, h⟩]
  rw [hafter]
  exact diffCalls_corrects hs hd s.engine.state

/-! ## Runs -/

/-- If no call of this tick fails, the engine has exactly the external peers and those derived
from the snapshot. -/
def Exact (fails : Nat → Option BgpError) (s : RoutesController) (nodes : List NodeBgp) : Prop :=
  ∀ n, (s.reconcileAndApply fails nodes).1 = .ok n →
    ∀ nb, (s.reconcileAndApply fails nodes).2.configured nb = s.wanted nodes nb

/-- If no call of this tick fails, the engine was as recorded before at every neighbor for which
the record is what the snapshot wants. -/
def Trusted (fails : Nat → Option BgpError) (s : RoutesController) (nodes : List NodeBgp) :
    Prop :=
  ∀ n, (s.reconcileAndApply fails nodes).1 = .ok n →
    ∀ nb, s.wanted nodes nb = s.recorded nb → s.configured nb = s.recorded nb

theorem exact_iff_trusted (hs : Distinct s.externalPeers s.currentPeers)
    (hd : Distinct s.externalPeers (s.cfg.derive nodes)) :
    Exact fails s nodes ↔ Trusted fails s nodes := by
  constructor
  · intro h n hn
    exact (tick_corrects hs hd hn).exact_iff.mp (h n hn)
  · intro h n hn
    exact (tick_corrects hs hd hn).exact_iff.mpr (h n hn)

end RoutesController

section Runs

variable (fails : Nat → Option BgpError) (cfg : RoutesControllerConfig)
  (external : List PeerConfig)

/-- The peers on record behind some snapshots. -/
def recordAfter (snapshots : List (List NodeBgp)) : List BgpPeer :=
  (snapshots.getLast?.map cfg.derive).getD []

/-- The calls for the snapshots of a run, when `current` is on record before. -/
def tickBatches (current : List BgpPeer) : List (List NodeBgp) → List (List EngineCall)
  | [] => []
  | nodes :: rest =>
    diffCalls cfg.gracefulRestart current (cfg.derive nodes) :: tickBatches (cfg.derive nodes) rest

/-- The calls of a run, if all went through: the external peers, then tick by tick. -/
def batches (snapshots : List (List NodeBgp)) : List (List EngineCall) :=
  external.map .addPeer :: tickBatches cfg [] snapshots

/-- The calls for the next snapshot. -/
def nextBatch (before : List (List NodeBgp)) (nodes : List NodeBgp) : List EngineCall :=
  diffCalls cfg.gracefulRestart (recordAfter cfg before) (cfg.derive nodes)

/-- What the last call for a neighbor leaves. -/
def lastFor (nb : IpAddr) (calls : List EngineCall) : Option PeerConfig :=
  (calls.filterMap (peerWrite nb)).getLast?.getD none

/-- If no call of the tick for `nodes` fails: at every neighbor whose peer the snapshot leaves as
the one before had it, the last of the calls so far that went through left just that peer. Calls
are counted over the run, and a failed one ends its tick (or the start). -/
def Carried (before : List (List NodeBgp)) (nodes : List NodeBgp) : Prop :=
  sent fails (madeAll fails 0 (batches cfg external before)) (nextBatch cfg before nodes) =
      nextBatch cfg before nodes →
    ∀ nb, meantAt cfg.gracefulRestart external (cfg.derive nodes) nb =
        meantAt cfg.gracefulRestart external (recordAfter cfg before) nb →
      lastFor nb (sentAll fails 0 (batches cfg external before)) =
        meantAt cfg.gracefulRestart external (cfg.derive nodes) nb

variable {fails cfg external}

theorem batches_concat (before : List (List NodeBgp)) (nodes : List NodeBgp) :
    batches cfg external (before ++ [nodes]) =
      batches cfg external before ++ [nextBatch cfg before nodes] := by
  -- generalised to a record before the first snapshot
  have main : ∀ (before : List (List NodeBgp)) (current : List BgpPeer),
      tickBatches cfg current (before ++ [nodes]) = tickBatches cfg current before ++
        [diffCalls cfg.gracefulRestart ((before.getLast?.map cfg.derive).getD current)
          (cfg.derive nodes)] := by
    intro before
    induction before with
    | nil => exact fun current => rfl
    | cons first before ih =>
      intro current
      rw [List.cons_append, tickBatches, tickBatches, ih, List.getLast?_cons, List.cons_append]
      cases before.getLast? <;> rfl
  unfold batches nextBatch recordAfter
  rw [main, List.cons_append]

theorem distinct_recordAfter {before : List (List NodeBgp)}
    (hvalid : ∀ nodes ∈ before, ValidSnapshot external nodes) :
    Distinct external (recordAfter cfg before) := by
  unfold recordAfter
  cases h : before.getLast? with
  | none => exact ⟨List.Pairwise.nil, fun p hp => absurd hp List.not_mem_nil⟩
  | some nodes => exact distinct_derive cfg (hvalid nodes (List.mem_of_getLast? h))

theorem peers_foldl (nb : IpAddr) (calls : List EngineCall) :
    (calls.foldl Tables.apply {}).peers[nb]? = lastFor nb calls :=
  (read_foldl_last (writes_peers nb) calls {}).trans (by rw [Std.TreeMap.getElem?_emptyc]; rfl)

/-- A controller behind some snapshots: the last one is on record, and the engine is what the
calls that went through made of it. -/
structure Follows (fails : Nat → Option BgpError) (cfg : RoutesControllerConfig)
    (external : List PeerConfig) (before : List (List NodeBgp)) (s : RoutesController) :
    Prop where
  config : s.cfg = cfg
  kept : s.externalPeers = external
  record : s.currentPeers = recordAfter cfg before
  state : s.engine.state = (sentAll fails 0 (batches cfg external before)).foldl Tables.apply {}
  calls : s.engine.calls = madeAll fails 0 (batches cfg external before)

namespace Follows

theorem start : Follows fails cfg external [] (.start fails cfg external) := by
  have htakes := takes_forM_call Tables.apply fails (script_sent Tables.apply fails)
    (takes_call_sent Tables.apply fails) EngineCall.addPeer external
  have hstate := state_of_sent Tables.apply fails htakes { state := {} }
  have hcalls := calls_of_sent Tables.apply fails htakes { state := {} }
  have hlist : sentAll fails 0 (batches cfg external []) =
      sent fails 0 (external.map EngineCall.addPeer) :=
    List.append_nil _
  have hmade : madeAll fails 0 (batches cfg external []) =
      0 + made fails 0 (external.map EngineCall.addPeer) := Nat.add_comm _ 0
  unfold RoutesController.start RoutesController.applyExternalPeers RoutesController.addExternal
  rw [if_neg Bool.false_ne_true]
  split
  · next hexec =>
    rw [hexec] at hstate hcalls
    exact ⟨rfl, rfl, rfl, by rw [hlist]; exact hstate, by rw [hmade]; exact hcalls⟩
  · next hexec =>
    rw [hexec] at hstate hcalls
    exact ⟨rfl, rfl, rfl, by rw [hlist]; exact hstate, by rw [hmade]; exact hcalls⟩

variable {before : List (List NodeBgp)} {s : RoutesController} {nodes : List NodeBgp}

theorem script_eq (h : Follows fails cfg external before s) :
    s.script nodes = nextBatch cfg before nodes := by
  unfold RoutesController.script nextBatch
  rw [h.config, h.record]

theorem tick (h : Follows fails cfg external before s) :
    Follows fails cfg external (before ++ [nodes]) (s.reconcileAndApply fails nodes).2 := by
  obtain ⟨hcfg, hext, hrec, hstate, hcalls, -⟩ :=
    @RoutesController.tick_spec fails s nodes
  rw [h.script_eq, h.calls] at hstate hcalls
  refine ⟨hcfg.trans h.config, hext.trans h.kept, ?_, ?_, ?_⟩
  · rw [hrec, h.config, recordAfter, List.getLast?_concat]
    rfl
  · rw [hstate, h.state, batches_concat, sentAll_concat, List.foldl_append, Nat.zero_add]
  · rw [hcalls, batches_concat, madeAll_concat, Nat.zero_add]

theorem run (h : System.run (RoutesController.step fails) (.start fails cfg external) before =
    some s) : Follows fails cfg external before s := by
  have hall : System.Meets (RoutesController.step fails) (fun _ _ => True)
      (.start fails cfg external) before := fun _ _ _ _ _ => trivial
  have hkeep : ∀ (done : List (List NodeBgp)) (u : RoutesController) (nodes : List NodeBgp)
      (v : RoutesController), Follows fails cfg external done u → True →
      RoutesController.step fails u nodes = some v →
      Follows fails cfg external (done ++ [nodes]) v := by
    intro done u nodes v hu _ hstep
    cases hstep
    exact hu.tick
  have hend := System.run_history (I := Follows fails cfg external) hkeep start hall h
  exact hend

/-- A tick trusts the engine rightly exactly when the calls so far carried it there. -/
theorem trusted_iff (h : Follows fails cfg external before s) :
    RoutesController.Trusted fails s nodes ↔ Carried fails cfg external before nodes := by
  obtain ⟨-, -, -, -, -, hok⟩ := @RoutesController.tick_spec fails s nodes
  rw [h.script_eq, h.calls] at hok
  have hwanted : s.wanted nodes = meantAt cfg.gracefulRestart external (cfg.derive nodes) := by
    funext nb
    unfold RoutesController.wanted RoutesController.meant meantAt
    rw [h.config, h.kept]
  have hrecorded : s.recorded = meantAt cfg.gracefulRestart external (recordAfter cfg before) := by
    funext nb
    unfold RoutesController.recorded RoutesController.meant meantAt
    rw [h.config, h.kept, h.record]
  have hconfigured : ∀ nb, s.configured nb =
      lastFor nb (sentAll fails 0 (batches cfg external before)) := by
    intro nb
    rw [RoutesController.configured, h.state, peers_foldl]
  unfold RoutesController.Trusted Carried
  rw [← hok, hwanted, hrecorded]
  simp only [hconfigured]
  constructor
  · intro htrust hsent nb hsame
    obtain ⟨n, hn⟩ := hsent
    rw [hsame]
    exact htrust n hn nb hsame
  · intro hcarried n hn nb hsame
    rw [← hsame]
    exact hcarried ⟨n, hn⟩ nb hsame

theorem exact_iff (h : Follows fails cfg external before s)
    (hbefore : ∀ x ∈ before, ValidSnapshot external x) (hnodes : ValidSnapshot external nodes) :
    RoutesController.Exact fails s nodes ↔ Carried fails cfg external before nodes := by
  rw [← h.trusted_iff]
  refine RoutesController.exact_iff_trusted ?_ ?_
  · rw [h.kept, h.record]
    exact distinct_recordAfter hbefore
  · rw [h.kept]
    exact distinct_derive s.cfg hnodes

end Follows

/-! ### Without failures -/

/-- Adding the external peers leaves the last one configured for a neighbor. -/
theorem lastFor_externals (nb : IpAddr) :
    lastFor nb (external.map .addPeer) = externalAt external nb := by
  have hfind : ∀ peers : List PeerConfig,
      peers.findSome? (fun p => peerWrite nb (.addPeer p)) =
        (peers.find? (·.neighbor == nb)).map some := by
    intro peers
    induction peers with
    | nil => rfl
    | cons p peers ih =>
      rw [List.findSome?_cons, List.find?_cons, ih]
      by_cases h : p.neighbor = nb
      · simp [peerWrite, h]
      · have hne : (p.neighbor == nb) = false := by simpa using h
        simp [peerWrite, h, hne]
  unfold lastFor externalAt
  rw [List.filterMap_map, List.getLast?_eq_head?_reverse, ← List.filterMap_reverse,
    List.head?_filterMap]
  simp only [Function.comp_def, hfind]
  cases external.reverse.find? (·.neighbor == nb) <;> rfl

/-- A run without failures has in the engine what it has on record. -/
theorem recorded_of_ok (hok : ∀ n, fails n = none) {before : List (List NodeBgp)}
    (hvalid : ∀ nodes ∈ before, ValidSnapshot external nodes) {s : RoutesController}
    (hrun : System.run (RoutesController.step fails) (.start fails cfg external) before = some s) :
    ∀ nb, s.configured nb = s.recorded nb := by
  have hstart : (RoutesController.start fails cfg external).externalPeers = external ∧
      Distinct external (RoutesController.start fails cfg external).currentPeers ∧
      ∀ nb, (RoutesController.start fails cfg external).configured nb =
        (RoutesController.start fails cfg external).recorded nb := by
    have h : Follows fails cfg external [] (.start fails cfg external) := Follows.start
    refine ⟨h.kept, ?_, fun nb => ?_⟩
    · rw [h.record]
      exact distinct_recordAfter fun _ hx => absurd hx List.not_mem_nil
    · rw [RoutesController.configured, h.state, peers_foldl, RoutesController.recorded,
        RoutesController.meant, h.kept, h.record]
      have hsent : sentAll fails 0 (batches cfg external []) = external.map .addPeer := by
        rw [batches, sentAll, sent_of_ok fails hok]
        exact List.append_nil _
      rw [hsent, lastFor_externals]
      rfl
  refine (System.run_invariant
    (I := fun u => u.externalPeers = external ∧ Distinct external u.currentPeers ∧
      ∀ nb, u.configured nb = u.recorded nb)
    (C := fun _ nodes => ValidSnapshot external nodes) ?_ hstart ?_ hrun).2.2
  · intro u nodes v hu hnodes hstep
    obtain ⟨hkept, hdistinct, htrue⟩ := hu
    cases hstep
    obtain ⟨hcfg, hext, hrec, -, -, htick⟩ :=
      @RoutesController.tick_spec fails u nodes
    obtain ⟨n, hn⟩ := htick.mpr (sent_of_ok fails hok _ _)
    have hd : Distinct external (u.cfg.derive nodes) := distinct_derive u.cfg hnodes
    have hexact : RoutesController.Exact fails u nodes :=
      (RoutesController.exact_iff_trusted (by rwa [hkept]) (by rwa [hkept])).mpr
        fun _ _ nb _ => htrue nb
    refine ⟨hext.trans hkept, by rwa [hrec], fun nb => ?_⟩
    rw [hexact n hn nb, RoutesController.recorded, RoutesController.wanted, RoutesController.meant,
      RoutesController.meant, hcfg, hext, hrec]
  · intro done nodes u hpre _
    exact hvalid nodes (hpre.subset (List.mem_append_right done List.mem_cons_self))

/-- Every tick of a run without failures is exact. -/
theorem exact_without_failures (hok : ∀ n, fails n = none) {snapshots : List (List NodeBgp)}
    (hvalid : ∀ nodes ∈ snapshots, ValidSnapshot external nodes) :
    System.Meets (RoutesController.step fails) (RoutesController.Exact fails)
      (.start fails cfg external) snapshots := by
  intro before nodes s hpre hrun
  have hbefore : ∀ x ∈ before, ValidSnapshot external x :=
    fun x hx => hvalid x (hpre.subset (List.mem_append_left _ hx))
  have hnodes : ValidSnapshot external nodes :=
    hvalid nodes (hpre.subset (List.mem_append_right _ List.mem_cons_self))
  have hfollows := Follows.run hrun
  rw [hfollows.exact_iff hbefore hnodes, ← hfollows.trusted_iff]
  exact fun _ _ nb _ => recorded_of_ok hok hbefore hrun nb

/-- In a run of ticks over snapshots with unique node names and addresses, any of whose calls
may fail, every tick without a failure leaves exactly the external and the derived peers in the
engine if and only if, at every neighbor it has nothing to change for, the last call that went
through left the peer that is meant. -/
theorem ticks_exact_iff (fails : Nat → Option BgpError) (cfg : RoutesControllerConfig)
    (external : List PeerConfig) (snapshots : List (List NodeBgp))
    (hvalid : ∀ nodes ∈ snapshots, ValidSnapshot external nodes) :
    System.Meets (RoutesController.step fails) (RoutesController.Exact fails)
        (.start fails cfg external) snapshots ↔
      ∀ before nodes, before ++ [nodes] <+: snapshots →
        Carried fails cfg external before nodes := by
  have hexact : ∀ before nodes t, before ++ [nodes] <+: snapshots →
      System.run (RoutesController.step fails) (.start fails cfg external) before = some t →
      (RoutesController.Exact fails t nodes ↔ Carried fails cfg external before nodes) := by
    intro before nodes t hpre hrun
    have hbefore : ∀ x ∈ before, ValidSnapshot external x :=
      fun x hx => hvalid x (hpre.subset (List.mem_append_left _ hx))
    have hnodes : ValidSnapshot external nodes :=
      hvalid nodes (hpre.subset (List.mem_append_right _ List.mem_cons_self))
    exact (Follows.run hrun).exact_iff hbefore hnodes
  have hrun : ∀ before s, ∃ t, System.run (RoutesController.step fails) s before = some t := by
    intro before
    induction before with
    | nil => exact fun s => ⟨s, rfl⟩
    | cons nodes before ih => exact fun s => ih (s.reconcileAndApply fails nodes).2
  constructor
  · intro h before nodes hpre
    obtain ⟨t, ht⟩ := hrun before (.start fails cfg external)
    exact (hexact before nodes t hpre ht).mp (h before nodes t hpre ht)
  · intro h before nodes t hpre ht
    exact (hexact before nodes t hpre ht).mpr (h before nodes hpre)

end Runs

/-! ## A peer that could not be added -/

section Sample

def bgpNode (name : String) (ip : IpAddr) : NodeBgp where
  name := name
  ip := ip
  asn := 64512
  rrServer := none
  rrClient := none

def meshConfig : RoutesControllerConfig where
  localNode := bgpNode "a" (.ofOctets 10 0 0 1)
  fullMesh := true
  enableIbgp := true
  gracefulRestart := none

/-- Nodes `a` and `b`. -/
def twoNodes : List NodeBgp :=
  [bgpNode "a" (.ofOctets 10 0 0 1), bgpNode "b" (.ofOctets 10 0 0 2)]

theorem twoNodes_valid : ValidSnapshot [] twoNodes where
  names := by unfold twoNodes; decide
  ips := by unfold twoNodes; decide
  apart := fun _ _ e he => absurd he List.not_mem_nil

/-- The first call fails. -/
def firstCallFails : Nat → Option BgpError :=
  fun n => if n = 0 then some (.Engine "unavailable") else none

/-- A peer outside the cluster. -/
def upstreamPeer : PeerConfig where
  neighbor := .ofOctets 192 0 2 1
  peerAsn := 65000
  isExternal := true
  rrClient := false
  rrClusterId := none
  localAddress := none
  password := none
  port := none
  multihopTtl := none
  gracefulRestart := none

/-- `b` leaves and comes back. -/
def flapping : List (List NodeBgp) :=
  [twoNodes, [bgpNode "a" (.ofOctets 10 0 0 1)], twoNodes]

theorem flapping_valid : ∀ nodes ∈ flapping, ValidSnapshot [upstreamPeer] nodes := by
  intro nodes hn
  simp only [flapping, List.mem_cons, List.not_mem_nil, or_false] at hn
  rcases hn with rfl | rfl | rfl
  all_goals exact ⟨by decide, by decide, by decide⟩

/-- The call behind the external peer fails: the first tick cannot add `b`. -/
def addOfBFails : Nat → Option BgpError :=
  fun n => if n = 1 then some (.Engine "unavailable") else none

/-- Neither later tick leaves `b` as it was, and the external peer stays the one added first. -/
theorem flapping_carried (before : List (List NodeBgp)) (nodes : List NodeBgp)
    (hpre : before ++ [nodes] <+: flapping) :
    Carried addOfBFails meshConfig [upstreamPeer] before nodes := by
  have hfirst : Carried addOfBFails meshConfig [upstreamPeer] [] twoNodes := by
    intro hsent
    exact absurd hsent (by decide)
  have hsecond : Carried addOfBFails meshConfig [upstreamPeer] [twoNodes]
      [bgpNode "a" (.ofOctets 10 0 0 1)] := by
    intro _ nb _
    have hcalls : sentAll addOfBFails 0 (batches meshConfig [upstreamPeer] [twoNodes]) =
        [upstreamPeer].map .addPeer := by decide
    rw [hcalls, lastFor_externals]
    exact (meantAt_of_none rfl).symm
  have hthird : Carried addOfBFails meshConfig [upstreamPeer]
      [twoNodes, [bgpNode "a" (.ofOctets 10 0 0 1)]] twoNodes := by
    intro _ nb hsame
    have hcalls : sentAll addOfBFails 0 (batches meshConfig [upstreamPeer]
        [twoNodes, [bgpNode "a" (.ofOctets 10 0 0 1)]]) =
        [.addPeer upstreamPeer, .deletePeer (.ofOctets 10 0 0 2)] := by decide
    have hrecord : recordAfter meshConfig [twoNodes, [bgpNode "a" (.ofOctets 10 0 0 1)]] = [] := by
      decide
    rw [hcalls, hsame, hrecord, meantAt_of_none rfl, ← lastFor_externals]
    -- For `b` itself the snapshot changes something, so `hsame` rules it out.
    by_cases hb : IpAddr.ofOctets 10 0 0 2 = nb
    · subst hb
      exact absurd hsame (by decide)
    · simp [lastFor, peerWrite, hb]
  revert before nodes
  have hone : ∀ before nodes, before ++ [nodes] <+: [] ++ [twoNodes] →
      Carried addOfBFails meshConfig [upstreamPeer] before nodes :=
    System.forall_prefix_concat.mpr ⟨fun _ _ hpre => by simp at hpre, hfirst⟩
  have htwo : ∀ before nodes,
      before ++ [nodes] <+: [twoNodes] ++ [[bgpNode "a" (.ofOctets 10 0 0 1)]] →
      Carried addOfBFails meshConfig [upstreamPeer] before nodes :=
    System.forall_prefix_concat.mpr ⟨hone, hsecond⟩
  have hthree : ∀ before nodes, before ++ [nodes] <+:
      [twoNodes, [bgpNode "a" (.ofOctets 10 0 0 1)]] ++ [twoNodes] →
      Carried addOfBFails meshConfig [upstreamPeer] before nodes :=
    System.forall_prefix_concat.mpr ⟨htwo, hthird⟩
  exact hthree

end Sample

/-- The first tick fails and loses `b`; the ticks behind it have calls for `b` and are exact. -/
theorem flapping_exact :
    System.Meets (RoutesController.step addOfBFails) (RoutesController.Exact addOfBFails)
      (.start addOfBFails meshConfig [upstreamPeer]) flapping :=
  (ticks_exact_iff addOfBFails meshConfig [upstreamPeer] flapping flapping_valid).mpr
    flapping_carried

theorem lost_peer_stays_lost :
    ¬∀ (fails : Nat → Option BgpError) (cfg : RoutesControllerConfig)
      (external : List PeerConfig) (snapshots : List (List NodeBgp)),
      (∀ nodes ∈ snapshots, ValidSnapshot external nodes) →
        System.Meets (RoutesController.step fails) (RoutesController.Exact fails)
          (.start fails cfg external) snapshots := by
  intro h
  have hvalid : ∀ nodes ∈ [twoNodes, twoNodes], ValidSnapshot [] nodes :=
    List.forall_mem_cons.mpr ⟨twoNodes_valid, List.forall_mem_singleton.mpr twoNodes_valid⟩
  have hlast := h firstCallFails meshConfig [] [twoNodes, twoNodes] hvalid [twoNodes] twoNodes
    (RoutesController.reconcileAndApply firstCallFails (.start firstCallFails meshConfig [])
      twoNodes).2 (List.prefix_refl _) rfl (0, 0) (by decide +kernel) (.ofOctets 10 0 0 2)
  revert hlast
  decide +kernel

end KubeRouter.Routing
