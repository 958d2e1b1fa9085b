/-
  The peer difference is complete and minimal (`peer_diff` in `routing/src/peers.rs`,
  `reconcile_and_apply` in `routing/src/controller.rs`).

  An engine that has exactly the current peers has exactly the desired ones after the additions
  and the removals. Additions compare all attributes and removals the neighbor only; that they do
  not interfere rests on the neighbors of each list being distinct.

  Proved:
  * `peerDiff_exact`: what the calls leave, which peers the difference names, when it is empty, and
    that no shorter list of engine calls does the same.
-/
import KubeRouter.Routing.Peers

namespace KubeRouter.Routing

open Program Bgp

/-- The engine has exactly these peers, as the controller configures them. -/
def Holds (gr : Option GracefulRestart) (t : Tables) (peers : List BgpPeer) : Prop :=
  ∀ n c, t.peers[n]? = some c ↔ ∃ p ∈ peers, p.neighbor = n ∧ toPeerConfig gr p = c

structure DiffExact (current desired : List BgpPeer) : Prop where
  /-- Where no call fails, the two loops end with the desired peers in the engine. -/
  applied : ∀ fails gr (e : Remote Tables), Holds gr e.state current →
    (Prog.exec (RoutesController.applyDiff fails gr (peerDiff current desired).1
      (peerDiff current desired).2) e).1 = .ok ⟨⟩ →
    Holds gr (Prog.exec (RoutesController.applyDiff fails gr (peerDiff current desired).1
      (peerDiff current desired).2) e).2.state desired
  ends : ∀ gr (e : Remote Tables), (Prog.exec (RoutesController.applyDiff (fun _ => none) gr
    (peerDiff current desired).1 (peerDiff current desired).2) e).1 = .ok ⟨⟩
  apart : ∀ p ∈ (peerDiff current desired).1, p.neighbor ∉ (peerDiff current desired).2
  kept : ∀ p ∈ current, p ∈ desired →
    p ∉ (peerDiff current desired).1 ∧ p.neighbor ∉ (peerDiff current desired).2
  empty_iff : peerDiff current desired = ([], []) ↔ ∀ p, p ∈ current ↔ p ∈ desired
  minimal : ∀ gr (t : Tables) (calls : List EngineCall), Holds gr t current →
    Holds gr (calls.foldl Tables.apply t) desired →
    (peerDiff current desired).1.length + (peerDiff current desired).2.length ≤ calls.length

section Diff

variable {gr : Option GracefulRestart} {peers current desired : List BgpPeer} {t : Tables}

/-! ## Complete -/

theorem distinct_nil (h : peers.Pairwise fun p q => p.neighbor ≠ q.neighbor) :
    Distinct [] peers :=
  ⟨h, fun _ _ _ he => absurd he List.not_mem_nil⟩

theorem meantAt_eq_some_iff (h : Distinct [] peers) {n : IpAddr} {c : PeerConfig} :
    meantAt gr [] peers n = some c ↔ ∃ p ∈ peers, p.neighbor = n ∧ toPeerConfig gr p = c := by
  have hnone : externalAt [] n = none := rfl
  unfold meantAt
  rw [hnone, Option.or_none, Option.map_eq_some_iff]
  constructor
  · rintro ⟨p, hp, hc⟩
    obtain ⟨hmem, hn⟩ := h.peerAt_eq.mp hp
    exact ⟨p, hmem, hn, hc⟩
  · rintro ⟨p, hmem, hn, hc⟩
    exact ⟨p, h.peerAt_eq.mpr ⟨hmem, hn⟩, hc⟩

theorem holds_iff (h : Distinct [] peers) :
    Holds gr t peers ↔ ∀ n, t.peers[n]? = meantAt gr [] peers n := by
  unfold Holds
  constructor
  · intro hall n
    exact Option.ext fun c => (hall n c).trans (meantAt_eq_some_iff h).symm
  · intro hall n c
    rw [hall n]
    exact meantAt_eq_some_iff h

theorem holds_diffCalls (hs : Distinct [] current) (hd : Distinct [] desired)
    (ht : Holds gr t current) :
    Holds gr ((diffCalls gr current desired).foldl Tables.apply t) desired := by
  have htrue := (holds_iff hs).mp ht
  exact (holds_iff hd).mpr ((diffCalls_corrects hs hd t).exact_iff.mpr fun n _ => htrue n)

/-- Where no call fails, both loops end. -/
theorem applyDiff_ok (gr : Option GracefulRestart) (current desired : List BgpPeer)
    (e : Remote Tables) : (Prog.exec (RoutesController.applyDiff (fun _ => none) gr
      (peerDiff current desired).1 (peerDiff current desired).2) e).1 = .ok ⟨⟩ := by
  have htakes := takes_applyDiff (script_done Tables.apply)
    (takes_call_ok Tables.apply _ fun _ => rfl) gr current desired
  obtain ⟨⟨⟩, hok⟩ := wp_total (htakes e)
  exact hok

/-! ## The lists of the difference -/

theorem neighbor_not_removed {p : BgpPeer} (hp : p ∈ desired) :
    p.neighbor ∉ (peerDiff current desired).2 :=
  fun h => (mem_toRemove.mp h).2 p hp rfl

theorem peerDiff_eq_nil_iff (hs : Distinct [] current) :
    peerDiff current desired = ([], []) ↔ ∀ p, p ∈ current ↔ p ∈ desired := by
  rw [Prod.ext_iff, List.eq_nil_iff_forall_not_mem, List.eq_nil_iff_forall_not_mem]
  simp only [mem_toAdd, mem_toRemove]
  constructor
  · rintro ⟨hadd, hremove⟩ p
    have hsub : ∀ d ∈ desired, d ∈ current := fun d hd => by_contra fun hc => hadd d ⟨hd, hc⟩
    refine ⟨fun hp => ?_, hsub p⟩
    by_contra hnew
    refine hremove p.neighbor ⟨⟨p, hp, rfl⟩, fun d hd heq => hnew ?_⟩
    -- a desired peer of the same neighbor is current as well, and hence the same
    have hsame : some d = some p := by
      rw [← hs.peerAt_eq.mpr ⟨hsub d hd, heq⟩, ← hs.peerAt_eq.mpr ⟨hp, rfl⟩]
    cases hsame
    exact hd
  · intro h
    refine ⟨fun d hd => hd.2 ((h d).mpr hd.1), fun n hn => ?_⟩
    obtain ⟨⟨p, hp, hpn⟩, hnone⟩ := hn
    exact hnone p ((h p).mp hp) hpn

/-! ## Minimal -/

/-- The neighbors that the difference names. -/
def touched (current desired : List BgpPeer) : List IpAddr :=
  (peerDiff current desired).1.map (·.neighbor) ++ (peerDiff current desired).2

theorem nodup_touched (hs : Distinct [] current) (hd : Distinct [] desired) :
    (touched current desired).Nodup := by
  refine List.nodup_append.mpr ⟨?_, ?_, ?_⟩
  · exact List.pairwise_map.mpr (hd.unique.sublist List.filter_sublist)
  · exact List.pairwise_map.mpr (hs.unique.sublist List.filter_sublist)
  · rintro n hn _ hm rfl
    obtain ⟨p, hp, rfl⟩ := List.mem_map.mp hn
    exact neighbor_not_removed (mem_toAdd.mp hp).1 hm

/-- At every neighbor that the difference names the two lists differ. -/
theorem differ_of_touched (hs : Distinct [] current) (hd : Distinct [] desired) {n : IpAddr}
    (hn : n ∈ touched current desired) :
    meantAt gr [] desired n ≠ meantAt gr [] current n := by
  obtain hn | hn := List.mem_append.mp hn
  · obtain ⟨p, hp, rfl⟩ := List.mem_map.mp hn
    have hcall : EngineCall.addPeer (toPeerConfig gr p) ∈ diffCalls gr current desired :=
      List.mem_append_left _ (List.mem_map_of_mem hp)
    exact (diffCalls_writes hs hd p.neighbor _ hcall _ (if_pos rfl)).2
  · have hcall : EngineCall.deletePeer n ∈ diffCalls gr current desired :=
      List.mem_append_right _ (List.mem_map_of_mem hn)
    exact (diffCalls_writes hs hd n _ hcall _ (if_pos rfl)).2

/-- The neighbor whose peer a call writes. -/
def callNeighbor : EngineCall → Option IpAddr
  | .addPeer peer => some peer.neighbor
  | .deletePeer neighbor => some neighbor
  | .addPath _ | .deletePath _ => none

theorem peerWrite_eq_none {n : IpAddr} {c : EngineCall} (h : callNeighbor c ≠ some n) :
    peerWrite n c = none := by
  cases c with
  | addPeer peer => exact if_neg fun heq => h (congrArg some heq)
  | deletePeer neighbor => exact if_neg fun heq => h (congrArg some heq)
  | addPath path => rfl
  | deletePath path => rfl

/-- Calls that lead to the desired peers write every neighbor at which the lists differ. -/
theorem touched_subset (hs : Distinct [] current) (hd : Distinct [] desired)
    {calls : List EngineCall} (ht : Holds gr t current)
    (hafter : Holds gr (calls.foldl Tables.apply t) desired) :
    touched current desired ⊆ calls.filterMap callNeighbor := by
  intro n hn
  by_contra hnone
  have huntouched : ∀ c ∈ calls, peerWrite n c = none := fun c hc =>
    peerWrite_eq_none fun heq => hnone (List.mem_filterMap.mpr ⟨c, hc, heq⟩)
  have hsame := read_foldl_untouched (writes_peers n) calls t huntouched
  rw [(holds_iff hd).mp hafter n, (holds_iff hs).mp ht n] at hsame
  exact differ_of_touched hs hd hn hsame

theorem length_peerDiff_le (hs : Distinct [] current) (hd : Distinct [] desired)
    {calls : List EngineCall} (ht : Holds gr t current)
    (hafter : Holds gr (calls.foldl Tables.apply t) desired) :
    (peerDiff current desired).1.length + (peerDiff current desired).2.length ≤ calls.length := by
  calc (peerDiff current desired).1.length + (peerDiff current desired).2.length
      = (touched current desired).length := by
        unfold touched
        rw [List.length_append, List.length_map]
    _ ≤ (calls.filterMap callNeighbor).length :=
        ((nodup_touched hs hd).subperm (touched_subset hs hd ht hafter)).length_le
    _ ≤ calls.length := List.length_filterMap_le _ _

end Diff

/-- The difference of two lists, each with distinct neighbors, is complete and minimal. -/
theorem peerDiff_exact {current desired : List BgpPeer}
    (hcurrent : current.Pairwise fun p q => p.neighbor ≠ q.neighbor)
    (hdesired : desired.Pairwise fun p q => p.neighbor ≠ q.neighbor) :
    DiffExact current desired := by
  have hs := distinct_nil hcurrent
  have hd := distinct_nil hdesired
  exact {
    applied := fun fails gr e he hok => by
      have htakes := takes_applyDiff (script_done_cut Tables.apply) (takes_call Tables.apply fails)
        gr current desired
      have hstate := wp_ok (htakes e) hok
      rw [hstate]
      exact holds_diffCalls hs hd he
    ends := fun gr e => applyDiff_ok gr current desired e
    apart := fun p hp => neighbor_not_removed (mem_toAdd.mp hp).1
    kept := fun p hp hpd => ⟨fun hadd => (mem_toAdd.mp hadd).2 hp, neighbor_not_removed hpd⟩
    empty_iff := peerDiff_eq_nil_iff hs
    minimal := fun gr t calls ht hafter => length_peerDiff_le hs hd ht hafter }

section Sample

def bgpPeer (neighbor : IpAddr) (asn : UInt32) : BgpPeer where
  neighbor := neighbor
  peerAsn := asn
  isExternal := false
  rrClient := false
  rrClusterId := none

end Sample

/-- One peer changes its ASN, one goes and one comes. -/
theorem changed_peers_exact :
    DiffExact [bgpPeer (.ofOctets 10 0 0 2) 64512, bgpPeer (.ofOctets 10 0 0 3) 64512]
      [bgpPeer (.ofOctets 10 0 0 4) 64512, bgpPeer (.ofOctets 10 0 0 2) 65000] :=
  peerDiff_exact (by decide) (by decide)

end KubeRouter.Routing
