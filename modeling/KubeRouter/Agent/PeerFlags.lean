/-
  The external peers of `build_controller` (`kube-router-rs/src/routing_wire.rs`), those of the
  `--peer-router-*` flags and those of the annotation of the local node.

  `validate` compares the numbers of addresses and AS numbers only, and only when there are some of
  both. A port above 65535 is dropped before the lists are zipped by index, and lists that cannot be
  zipped are ignored as a whole.

  Proved:
  * `peerFlags_usable_iff`: when the flags of an accepted configuration give the peers they name.
  * `asnless_peers_ignored`: an accepted configuration whose peers are all ignored.
-/
import KubeRouter.Agent.Config
import KubeRouter.Agent.BgpWire

namespace KubeRouter.Agent

open Routing Bgp

namespace KubeRouterConfig

/-- The ports that fit. -/
def peerPorts (cfg : KubeRouterConfig) : List UInt16 := cfg.peerRouterPorts.filterMap tryPort

def multihopTtl (cfg : KubeRouterConfig) : Option UInt8 :=
  if cfg.peerRouterMultihopTtl > 0 then some cfg.peerRouterMultihopTtl else none

/-- `as_secs() as u32` of a duration. -/
def asSecs (d : Nat) : UInt32 := UInt32.ofNat (d / seconds 1)

def gracefulRestart (cfg : KubeRouterConfig) : Option GracefulRestart :=
  if cfg.bgpGracefulRestart then
    some ⟨asSecs cfg.bgpGracefulRestartTime, asSecs cfg.bgpGracefulRestartDeferralTime⟩
  else none

/-- The call of `zip_peers`. -/
def flagPeers (cfg : KubeRouterConfig) (localIp : IpAddr) :
    Except PeerParseError (List PeerConfig) :=
  zipPeers cfg.peerRouterIps cfg.peerRouterAsns cfg.peerPorts cfg.peerRouterPasswords
    cfg.multihopTtl (some localIp) cfg.gracefulRestart

/-- The peers that `build_controller` hands to the controller. -/
def externalPeers (readPeers : String → Except String (List PeerEntry)) (cfg : KubeRouterConfig)
    (store : List K8sNodeMeta) (name : String) (localIp : IpAddr) : List PeerConfig :=
  (cfg.flagPeers localIp).toOption.getD [] ++
    annotationPeers readPeers store name cfg.multihopTtl cfg.gracefulRestart

/-! ## Usable flags -/

/-- The peer has the values of the flags at an index. A port that is not set is 0, and a password
that is not set is empty. -/
structure Carries (cfg : KubeRouterConfig) (i : Nat) (peer : PeerConfig) : Prop where
  neighbor : cfg.peerRouterIps[i]? = some peer.neighbor
  asn : cfg.peerRouterAsns[i]? = some peer.peerAsn
  port : cfg.peerRouterPorts ≠ [] →
    cfg.peerRouterPorts[i]?.map UInt32.toNat = some (peer.port.getD 0).toNat
  password : cfg.peerRouterPasswords ≠ [] →
    cfg.peerRouterPasswords[i]? = some (peer.password.getD "")

/-- One peer for every address, in order, with its values. -/
def PeersUsable (cfg : KubeRouterConfig) (localIp : IpAddr) : Prop :=
  ∃ peers, cfg.flagPeers localIp = .ok peers ∧ peers.length = cfg.peerRouterIps.length ∧
    ∀ i peer, peers[i]? = some peer → cfg.Carries i peer

/-- There are no ports, or one that fits for every address and, after those, only ones that do
not. -/
def PortsFit (n : Nat) (ports : List UInt32) : Prop :=
  ports = [] ∨ n ≤ ports.length ∧ (∀ p ∈ ports.take n, p.toNat < 65536) ∧
    ∀ p ∈ ports.drop n, 65536 ≤ p.toNat

/-- The lists of the flags fit together. -/
structure PeerFlagsFit (cfg : KubeRouterConfig) : Prop where
  asns : cfg.peerRouterIps = [] ↔ cfg.peerRouterAsns = []
  ports : PortsFit cfg.peerRouterIps.length cfg.peerRouterPorts
  passwords : cfg.peerRouterPasswords = [] ∨
    cfg.peerRouterPasswords.length = cfg.peerRouterIps.length

/-! ## Ports -/

section Ports

variable {n : Nat} {ports : List UInt32}

theorem filterMap_tryPort_of_fit (hn : n ≤ ports.length)
    (hfit : ∀ p ∈ ports.take n, p.toNat < 65536) (hrest : ∀ p ∈ ports.drop n, 65536 ≤ p.toNat) :
    (ports.filterMap tryPort).length = n ∧
      ∀ i < n, (ports.filterMap tryPort)[i]? = ports[i]?.bind tryPort := by
  have hsome : ∀ p ∈ ports.take n, (tryPort p).isSome = true :=
    fun p hp => isSome_tryPort_iff.mpr (hfit p hp)
  have hdrop : (ports.drop n).filterMap tryPort = [] :=
    List.filterMap_eq_nil_iff.mpr fun p hp => tryPort_eq_none_iff.mpr (hrest p hp)
  have heq : ports.filterMap tryPort = (ports.take n).filterMap tryPort := by
    conv_lhs => rw [← List.take_append_drop n ports]
    rw [List.filterMap_append, hdrop, List.append_nil]
  rw [heq]
  constructor
  · rw [List.filterMap_length_eq_length.mpr hsome, List.length_take_of_le hn]
  · intro i hi
    rw [Collect.getElem?_filterMap_of_isSome hsome, List.getElem?_take_of_lt hi]

/-- The ports that are left are those of the addresses. -/
theorem portsFit_iff : PortsFit n ports ↔
    (ports.filterMap tryPort = [] ∨ (ports.filterMap tryPort).length = n) ∧
      (ports ≠ [] → ∀ i < n, ports[i]?.map UInt32.toNat =
        some ((ports.filterMap tryPort)[i]?.getD 0).toNat) := by
  constructor
  · rintro (rfl | ⟨hn, hfit, hrest⟩)
    · simp
    · obtain ⟨hlen, hget⟩ := filterMap_tryPort_of_fit hn hfit hrest
      refine ⟨.inr hlen, fun _ i hi => ?_⟩
      have hi' : i < ports.length := Nat.lt_of_lt_of_le hi hn
      have hmem : ports[i] ∈ ports.take n := List.mem_take_iff_getElem.mpr ⟨i, by omega, rfl⟩
      obtain ⟨q, hq⟩ := Option.isSome_iff_exists.mp (isSome_tryPort_iff.mpr (hfit _ hmem))
      rw [hget i hi, List.getElem?_eq_getElem hi', Option.bind_some, hq, Option.map_some,
        Option.getD_some, tryPort_eq_some_iff.mp hq]
  · rintro ⟨hlen, hget⟩
    by_cases hnil : ports = []
    · exact .inl hnil
    · have hget := hget hnil
      have hfit : ∀ p ∈ ports.take n, p.toNat < 65536 := by
        intro p hp
        obtain ⟨i, hi, rfl⟩ := List.mem_take_iff_getElem.mp hp
        have hport := hget i (by omega)
        rw [List.getElem?_eq_getElem (by omega), Option.map_some, Option.some.injEq] at hport
        rw [hport]
        exact UInt16.toNat_lt _
      have hn : n ≤ ports.length := by
        by_contra hlt
        have hport := hget ports.length (by omega)
        simp at hport
      refine .inr ⟨hn, hfit, fun p hp => ?_⟩
      -- The first ports are all kept, so there is no room for one of the rest.
      have hsome : ∀ p ∈ ports.take n, (tryPort p).isSome = true :=
        fun p hp => isSome_tryPort_iff.mpr (hfit p hp)
      have htake : ((ports.take n).filterMap tryPort).length = n := by
        rw [List.filterMap_length_eq_length.mpr hsome, List.length_take_of_le hn]
      have hsplit : (ports.filterMap tryPort).length =
          n + ((ports.drop n).filterMap tryPort).length := by
        conv_lhs => rw [← List.take_append_drop n ports]
        rw [List.filterMap_append, List.length_append, htake]
      have hdrop : (ports.drop n).filterMap tryPort = [] := by
        rw [← List.length_eq_zero_iff]
        obtain hlen | hlen := hlen
        · rw [hlen, List.length_nil] at hsplit
          omega
        · omega
      exact tryPort_eq_none_iff.mp (List.filterMap_eq_nil_iff.mp hdrop p hp)

end Ports

/-! ## Accepted configurations -/

section Accepted

variable {parseNet : String → Except String IpNet} {cfg : KubeRouterConfig}

theorem validate_asns_iff (hvalid : cfg.validate parseNet = .ok ()) :
    cfg.peerRouterIps.length = cfg.peerRouterAsns.length ↔
      (cfg.peerRouterIps = [] ↔ cfg.peerRouterAsns = []) := by
  constructor
  · intro h
    rw [← List.length_eq_zero_iff, h, List.length_eq_zero_iff]
  · intro h
    by_cases hips : cfg.peerRouterIps = []
    · rw [hips, h.mp hips]
      rfl
    · exact validate_peerLists hvalid hips (mt h.mpr hips)

theorem getD_filter_ne {α : Type} [DecidableEq α] (x : Option α) (a : α) :
    (x.filter (· ≠ a)).getD a = x.getD a := by
  cases x with
  | none => rfl
  | some b =>
    by_cases h : b = a
    · simp [Option.filter, h]
    · simp [Option.filter, h]

/-- A peer of the flags has their values at its index when it has the port. -/
theorem carries_zippedPeer_iff {localIp ip : IpAddr} {asn : UInt32} {i : Nat}
    (hip : cfg.peerRouterIps[i]? = some ip) (hasn : cfg.peerRouterAsns[i]? = some asn)
    (hpasswords : cfg.peerRouterPasswords = [] ∨
      cfg.peerRouterPasswords.length = cfg.peerRouterIps.length) :
    cfg.Carries i (zippedPeer cfg.peerPorts cfg.peerRouterPasswords cfg.multihopTtl (some localIp)
        cfg.gracefulRestart ((ip, asn), i)) ↔
      (cfg.peerRouterPorts ≠ [] → cfg.peerRouterPorts[i]?.map UInt32.toNat =
        some (cfg.peerPorts[i]?.getD 0).toNat) := by
  constructor
  · intro h hports
    rw [h.port hports]
    exact congrArg (fun p : UInt16 => some p.toNat) (getD_filter_ne _ 0)
  · intro h
    refine ⟨hip, hasn, fun hports => ?_, fun hsome => ?_⟩
    · rw [h hports]
      exact congrArg (fun p : UInt16 => some p.toNat) (getD_filter_ne _ 0).symm
    · have hlen := hpasswords.resolve_left hsome
      have hi : i < cfg.peerRouterPasswords.length := by
        rw [hlen]
        exact (List.getElem?_eq_some_iff.mp hip).1
      rw [show (zippedPeer cfg.peerPorts cfg.peerRouterPasswords cfg.multihopTtl (some localIp)
          cfg.gracefulRestart ((ip, asn), i)).password.getD "" = cfg.peerRouterPasswords[i]?.getD ""
        from getD_filter_ne _ "", List.getElem?_eq_getElem hi]
      rfl

end Accepted

/-- The flags of an accepted configuration give one peer for every address, with the values at its
index, if and only if the lists fit together. -/
theorem peerFlags_usable_iff (parseNet : String → Except String IpNet) (cfg : KubeRouterConfig)
    (localIp : IpAddr) (hvalid : cfg.validate parseNet = .ok ()) :
    cfg.PeersUsable localIp ↔ cfg.PeerFlagsFit := by
  unfold PeersUsable flagPeers
  constructor
  · rintro ⟨peers, hpeers, -, hcarries⟩
    obtain ⟨⟨hasns, hports, hpasswords⟩, rfl⟩ := zipPeers_eq_ok_iff.mp hpeers
    refine ⟨(validate_asns_iff hvalid).mp hasns, portsFit_iff.mpr ⟨hports, fun hgiven i hi => ?_⟩,
      hpasswords⟩
    have hip := List.getElem?_eq_getElem hi
    have hasn := List.getElem?_eq_getElem (hasns ▸ hi)
    have hpeer := hcarries i _ (getElem?_zippedPeers.mpr ⟨_, _, hip, hasn, rfl⟩)
    exact (carries_zippedPeer_iff hip hasn hpasswords).mp hpeer hgiven
  · intro h
    have hasns := (validate_asns_iff hvalid).mpr h.asns
    obtain ⟨hports, hget⟩ := portsFit_iff.mp h.ports
    refine ⟨_, zipPeers_eq_ok_iff.mpr ⟨⟨hasns, hports, h.passwords⟩, rfl⟩, by simp [hasns], ?_⟩
    intro i peer hpeer
    obtain ⟨ip, asn, hip, hasn, rfl⟩ := getElem?_zippedPeers.mp hpeer
    exact (carries_zippedPeer_iff hip hasn h.passwords).mpr fun hgiven =>
      hget hgiven i (List.getElem?_eq_some_iff.mp hip).1

section Sample

theorem defaultRange_le : 12 ≤ (IpAddr.ofOctets 10 96 0 0).bits := by decide

/-- `parse` of `IpNet` on the default range. -/
def parseDefaultRange (s : String) : Except String IpNet :=
  if s = "10.96.0.0/12" then .ok ⟨.ofOctets 10 96 0 0, 12, defaultRange_le⟩
  else .error "invalid IP address syntax"

/-- Two peers, of which one has a password and both have a port. -/
def twoPeers : KubeRouterConfig where
  peerRouterIps := [.ofOctets 192 0 2 1, .ofOctets 192 0 2 2]
  peerRouterAsns := [65001, 65002]
  peerRouterPorts := [179, 1790]
  peerRouterPasswords := ["", "c2VjcmV0"]

/-- Two peers without AS numbers. -/
def asnlessPeers : KubeRouterConfig where
  peerRouterIps := [.ofOctets 192 0 2 1, .ofOctets 192 0 2 2]

end Sample

theorem twoPeers_usable : twoPeers.PeersUsable (.ofOctets 10 0 0 5) :=
  (peerFlags_usable_iff parseDefaultRange twoPeers (.ofOctets 10 0 0 5) (by decide +kernel)).mpr
    ⟨by decide, .inr ⟨by decide, by simp [twoPeers], by simp [twoPeers]⟩, .inr (by decide)⟩

/-- Peers without AS numbers are accepted, and then ignored. -/
theorem asnless_peers_ignored :
    (∀ readPeers, asnlessPeers.externalPeers readPeers [] "n1" (.ofOctets 10 0 0 5) = []) ∧
      ¬∀ (parseNet : String → Except String IpNet) (cfg : KubeRouterConfig) (localIp : IpAddr),
        cfg.validate parseNet = .ok () → cfg.PeersUsable localIp := by
  constructor
  · intro readPeers
    rfl
  · intro h
    obtain ⟨peers, hpeers, -⟩ :=
      h parseDefaultRange asnlessPeers (.ofOctets 10 0 0 5) (by decide +kernel)
    cases hpeers

end KubeRouterConfig

end KubeRouter.Agent
