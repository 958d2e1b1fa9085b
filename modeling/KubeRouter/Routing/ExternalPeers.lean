/-
  External BGP peers (`routing/src/external_peers.rs`): from the global flags, which are zipped by
  index, and from the YAML text of the node annotation.

  `readPeers` is `serde_yaml_ng::from_str` at the entries of the annotation: the entries, or the
  text of the error.

  Proved:
  * `zipPeers_eq_ok_iff`, `getElem?_zippedPeers`: when the lists are accepted, and the peer at an
    index.
-/
import KubeRouter.Bgp.Engine
import KubeRouter.Common.AddrParse
import KubeRouter.Lib.Collect

namespace KubeRouter.Routing

open Bgp

inductive PeerParseError where
  | CountMismatch (ips asns : Nat)
  | OptionalCountMismatch (field : String) (got want : Nat)
  | Yaml (text : String)
deriving DecidableEq, Repr

/-- An entry of the annotation. -/
structure PeerEntry where
  remoteip : String
  remoteasn : UInt32
  localip : Option String := none
  password : Option String := none
  port : Option UInt32 := none
deriving DecidableEq, Repr

/-- `u16::try_from`. -/
def tryPort (p : UInt32) : Option UInt16 :=
  if p.toNat < 65536 then some (UInt16.ofNat p.toNat) else none

namespace PeerEntry

def localAddress (e : PeerEntry) : Option IpAddr := e.localip.bind fun s => IpAddr.parse s.toList

/-- An empty password is none. -/
def usedPassword (e : PeerEntry) : Option String := e.password.filter (· ≠ "")

/-- A port that is zero or too large is none. -/
def usedPort (e : PeerEntry) : Option UInt16 := (e.port.bind tryPort).filter (· ≠ 0)

end PeerEntry

/-- The peer of one entry. -/
def entryPeer (multihopTtl : Option UInt8) (gracefulRestart : Option GracefulRestart)
    (e : PeerEntry) :
    Except PeerParseError PeerConfig :=
  match IpAddr.parse e.remoteip.toList with
  | none => .error (.Yaml ("bad remoteip: " ++ e.remoteip))
  | some neighbor => .ok {
      neighbor
      peerAsn := e.remoteasn
      isExternal := true
      rrClient := false
      rrClusterId := none
      localAddress := e.localAddress
      password := e.usedPassword
      port := e.usedPort
      multihopTtl
      gracefulRestart }

def parsePeersAnnotation (readPeers : String → Except String (List PeerEntry)) (yaml : String)
    (multihopTtl : Option UInt8) (gracefulRestart : Option GracefulRestart) :
    Except PeerParseError (List PeerConfig) :=
  match readPeers yaml with
  | .error e => .error (.Yaml e)
  | .ok entries => entries.mapM (entryPeer multihopTtl gracefulRestart)

/-- The peer of the flags at an index. -/
def zippedPeer (ports : List UInt16) (passwords : List String) (multihopTtl : Option UInt8)
    (localAddress : Option IpAddr) (gracefulRestart : Option GracefulRestart) :
    (IpAddr × UInt32) × Nat → PeerConfig
  | ((neighbor, peerAsn), i) => {
      neighbor
      peerAsn
      isExternal := true
      rrClient := false
      rrClusterId := none
      localAddress
      password := passwords[i]?.filter (· ≠ "")
      port := ports[i]?.filter (· ≠ 0)
      multihopTtl
      gracefulRestart }

def zipPeers (ips : List IpAddr) (asns : List UInt32) (ports : List UInt16)
    (passwords : List String)
    (multihopTtl : Option UInt8) (localAddress : Option IpAddr)
    (gracefulRestart : Option GracefulRestart) : Except PeerParseError (List PeerConfig) :=
  if ips.length ≠ asns.length then .error (.CountMismatch ips.length asns.length)
  else if ports ≠ [] ∧ ports.length ≠ ips.length then
    .error (.OptionalCountMismatch "ports" ports.length ips.length)
  else if passwords ≠ [] ∧ passwords.length ≠ ips.length then
    .error (.OptionalCountMismatch "passwords" passwords.length ips.length)
  else
    .ok ((ips.zip asns).zipIdx.map
      (zippedPeer ports passwords multihopTtl localAddress gracefulRestart))

theorem tryPort_eq_some_iff {p : UInt32} {q : UInt16} : tryPort p = some q ↔ q.toNat = p.toNat := by
  unfold tryPort
  have hq : q.toNat < 65536 := q.toNat_lt
  split
  · next hp =>
    rw [Option.some.injEq, ← UInt16.toNat_inj, UInt16.toNat_ofNat_of_lt' hp]
    exact eq_comm
  · next hp =>
    constructor
    · intro h
      cases h
    · intro h
      omega

theorem tryPort_eq_none_iff {p : UInt32} : tryPort p = none ↔ 65536 ≤ p.toNat := by
  unfold tryPort
  split
  · next hp => simpa using hp
  · next hp => simpa using hp

theorem isSome_tryPort_iff {p : UInt32} : (tryPort p).isSome = true ↔ p.toNat < 65536 := by
  rw [Option.isSome_iff_ne_none, Ne, tryPort_eq_none_iff, Nat.not_le]

section Zip

variable {ips : List IpAddr} {asns : List UInt32} {ports : List UInt16} {passwords : List String}
  {multihopTtl : Option UInt8} {localAddress : Option IpAddr}
  {gracefulRestart : Option GracefulRestart}

theorem zipPeers_eq_ok_iff {peers : List PeerConfig} :
    zipPeers ips asns ports passwords multihopTtl localAddress gracefulRestart = .ok peers ↔
      (ips.length = asns.length ∧ (ports = [] ∨ ports.length = ips.length) ∧
        (passwords = [] ∨ passwords.length = ips.length)) ∧
      peers = (ips.zip asns).zipIdx.map
        (zippedPeer ports passwords multihopTtl localAddress gracefulRestart) := by
  unfold zipPeers
  split
  · next h => simp [h]
  · next hasns =>
    split
    · next h => simp [h.1, h.2]
    · next hports =>
      split
      · next h => simp [h.1, h.2]
      · next hpasswords =>
        rw [Except.ok.injEq, eq_comm, and_iff_right]
        exact ⟨not_not.mp hasns, by tauto, by tauto⟩

theorem getElem?_zippedPeers {i : Nat} {peer : PeerConfig} :
    ((ips.zip asns).zipIdx.map
        (zippedPeer ports passwords multihopTtl localAddress gracefulRestart))[i]? = some peer ↔
      ∃ ip asn, ips[i]? = some ip ∧ asns[i]? = some asn ∧
        zippedPeer ports passwords multihopTtl localAddress gracefulRestart ((ip, asn), i) =
          peer := by
  simp only [List.getElem?_map, List.getElem?_zipIdx, Nat.zero_add, Option.map_map,
    Option.map_eq_some_iff, Function.comp_apply, List.getElem?_zip_eq_some]
  constructor
  · rintro ⟨⟨ip, asn⟩, ⟨hip, hasn⟩, heq⟩
    exact ⟨ip, asn, hip, hasn, heq⟩
  · rintro ⟨ip, asn, hip, hasn, heq⟩
    exact ⟨(ip, asn), ⟨hip, hasn⟩, heq⟩

end Zip

end KubeRouter.Routing
