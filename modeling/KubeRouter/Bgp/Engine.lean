/-
  The BGP engine the routing controllers drive (`bgp/src/engine.rs`, `bgp/src/path.rs`).

  The engine keeps the peers it was told of, one for each neighbor address, and the paths it was
  told of, one for each prefix: adding what is there replaces it, deleting what is not there
  changes nothing. Any call may fail without effect.
-/
import KubeRouter.Common.Ip
import KubeRouter.Lib.Calls

namespace KubeRouter.Bgp

open Program

/-! ## Peers -/

structure GracefulRestart where
  restartTimeSecs : UInt32
  deferralTimeSecs : UInt32
deriving DecidableEq, Repr

structure PeerConfig where
  neighbor : IpAddr
  peerAsn : UInt32
  isExternal : Bool
  rrClient : Bool
  rrClusterId : Option String
  localAddress : Option IpAddr
  password : Option String
  port : Option UInt16
  multihopTtl : Option UInt8
  gracefulRestart : Option GracefulRestart
deriving DecidableEq, Repr

/-! ## Paths -/

inductive Afi where
  | Ip
  | Ip6
deriving DecidableEq, Repr

inductive Safi where
  | Unicast
deriving DecidableEq, Repr

inductive Attr where
  | Origin (code : UInt8)
  | NextHop (ip : IpAddr)
  | MpReachNlri (nextHop : IpAddr) (nlri : IpNet)
  | Communities (communities : List UInt32)
  | AsPathPrepend (asn : UInt32) (count : UInt8)
deriving DecidableEq, Repr

structure Path where
  afi : Afi
  safi : Safi
  pfx : IpNet
  nextHop : IpAddr
  attrs : List Attr
  withdrawal : Bool
deriving DecidableEq, Repr

structure PathBuilder where
  pfx : IpNet
  nextHop : IpAddr
  withdrawal : Bool := false
  communities : List UInt32 := []
  asPrepend : Option (UInt32 × UInt8) := none
deriving DecidableEq, Repr

namespace PathBuilder

/-- No-op for a repeat count of 0. -/
def asPathPrepend (b : PathBuilder) (asn : UInt32) (count : UInt8) : PathBuilder :=
  if count > 0 then { b with asPrepend := some (asn, count) } else b

def build (b : PathBuilder) : Path :=
  let (afi, base) := match b.pfx.family with
    | .V4 => (Afi.Ip, [Attr.Origin 0, Attr.NextHop b.nextHop])
    | .V6 => (Afi.Ip6, [Attr.Origin 0, Attr.MpReachNlri b.nextHop b.pfx])
  let communities := if b.communities.isEmpty then [] else [Attr.Communities b.communities]
  let prepend := match b.asPrepend with
    | some (asn, count) => [Attr.AsPathPrepend asn count]
    | none => []
  { afi := afi, safi := .Unicast, pfx := b.pfx, nextHop := b.nextHop,
    attrs := base ++ communities ++ prepend, withdrawal := b.withdrawal }

@[simp] theorem build_pfx (b : PathBuilder) : b.build.pfx = b.pfx := rfl

@[simp] theorem build_nextHop (b : PathBuilder) : b.build.nextHop = b.nextHop := rfl

@[simp] theorem build_withdrawal (b : PathBuilder) : b.build.withdrawal = b.withdrawal := rfl

end PathBuilder

/-! ## Engine -/

inductive BgpError where
  | Engine (msg : String)
deriving DecidableEq, Repr

inductive EngineCall where
  | addPeer (peer : PeerConfig)
  | deletePeer (neighbor : IpAddr)
  | addPath (path : Path)
  | deletePath (path : Path)
deriving DecidableEq, Repr

structure Tables where
  peers : Std.TreeMap IpAddr PeerConfig := ∅
  paths : Std.TreeMap IpNet Path := ∅

namespace Tables

def apply (t : Tables) : EngineCall → Tables
  | .addPeer peer => { t with peers := t.peers.insert peer.neighbor peer }
  | .deletePeer neighbor => { t with peers := t.peers.erase neighbor }
  | .addPath path => { t with paths := t.paths.insert path.pfx path }
  | .deletePath path => { t with paths := t.paths.erase path.pfx }

end Tables

/-- What a call stores for a neighbor. -/
def peerWrite (n : IpAddr) : EngineCall → Option (Option PeerConfig)
  | .addPeer peer => if peer.neighbor = n then some (some peer) else none
  | .deletePeer neighbor => if neighbor = n then some none else none
  | .addPath _ | .deletePath _ => none

/-- What a call stores for a prefix. -/
def pathWrite (p : IpNet) : EngineCall → Option (Option Path)
  | .addPath path => if path.pfx = p then some (some path) else none
  | .deletePath path => if path.pfx = p then some none else none
  | .addPeer _ | .deletePeer _ => none

theorem writes_peers (n : IpAddr) :
    Writes Tables.apply (fun t : Tables => t.peers[n]?) (peerWrite n) := by
  intro t c
  cases c with
  | addPeer peer =>
    by_cases h : peer.neighbor = n
    · simp [Tables.apply, peerWrite, h]
    · simp [Tables.apply, peerWrite, h, Std.TreeMap.getElem?_insert]
  | deletePeer neighbor =>
    by_cases h : neighbor = n
    · simp [Tables.apply, peerWrite, h]
    · simp [Tables.apply, peerWrite, h, Std.TreeMap.getElem?_erase]
  | addPath path => rfl
  | deletePath path => rfl

theorem writes_paths (p : IpNet) :
    Writes Tables.apply (fun t : Tables => t.paths[p]?) (pathWrite p) := by
  intro t c
  cases c with
  | addPath path =>
    by_cases h : path.pfx = p
    · simp [Tables.apply, pathWrite, h]
    · simp [Tables.apply, pathWrite, h, Std.TreeMap.getElem?_insert]
  | deletePath path =>
    by_cases h : path.pfx = p
    · simp [Tables.apply, pathWrite, h]
    · simp [Tables.apply, pathWrite, h, Std.TreeMap.getElem?_erase]
  | addPeer peer => rfl
  | deletePeer neighbor => rfl

end KubeRouter.Bgp
