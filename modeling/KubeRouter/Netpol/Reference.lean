/-
  NetworkPolicy meaning, stated on its own, and how the rules of a policy chain relate to it.

  Reference. A policy isolates the pods it selects in the directions it covers; an isolated pod
  exchanges exactly what some rule of such a policy admits (`Isolated`, `Admitted`). A rule
  admits a packet by its peer and its port; an empty list of either admits all. An exception of
  an ipBlock cuts an address out when it lies inside the block (the API admits no other).

  Link. With every set of the plan holding its own entries (`SetsOf`) and no named port:
  * `hits_directionMatches`: a direction of a policy chain matches exactly when the policy's own
    pods sit on the target side and `resolve_peers` and the ports match (`ruleHas`).
  * `ruleHas_admits`: what the rules match, the reference admits; `ruleHas_iff_admits`: and
    conversely for rules without ipBlock peers.
-/
import KubeRouter.Netpol.Verdict

namespace KubeRouter.Netpol

/-! ## The reference -/

/-- The pod belongs to a namespace a peer's selector stands for. -/
def NamespaceOk (w : PolicyWorld) (policyNs : String) (pod : Pod) : Option LabelSelector → Prop
  | none => pod.ns = policyNs
  | some sel => ∃ n ∈ w.namespaces, n.name = pod.ns ∧ selectorMatches sel n.labels = true

def Peer.Admits (w : PolicyWorld) (policyNs : String) (x : IpAddr) : Peer → Prop
  | selector nsSel podSel => ∃ pod ∈ w.pods, pod.hostNetwork = false ∧
      NamespaceOk w policyNs pod nsSel ∧
      (∀ sel ∈ podSel, selectorMatches sel pod.labels = true) ∧ x ∈ pod.ips
  | ipBlock cidr except => cidr.contains x = true ∧
      ∀ e ∈ except, cidr.prefixLen ≤ e.prefixLen → e.contains x = false

/-- A named port stands for the number its receiver gives the name. -/
def PortSpec.Admits (w : PolicyWorld) (pkt : Packet) (p : PortSpec) : Prop :=
  pkt.transport.protocol = p.protocol ∧
    match p.port with
    | .all => True
    | .number n => pkt.transport.dport = some n
    | .name n => ∃ pod ∈ w.pods, pkt.dst ∈ pod.ips ∧ ∃ cp ∈ pod.containerPorts,
        cp.name = some n ∧ cp.protocol = p.protocol ∧ pkt.transport.dport = some cp.port

def PolicyRule.Admits (w : PolicyWorld) (policyNs : String) (dir : Direction) (pkt : Packet)
    (r : PolicyRule) : Prop :=
  (r.peers = [] ∨ ∃ peer ∈ r.peers, peer.Admits w policyNs (pkt.addr dir.peerSide)) ∧
    (r.ports = [] ∨ ∃ port ∈ r.ports, port.Admits w pkt)

/-- Some policy covering the direction selects the pod. -/
def Isolated (w : PolicyWorld) (dir : Direction) (pod : Pod) : Prop :=
  ∃ pol ∈ w.policies, policySelects pol pod = true ∧ dir.covers pol = true

/-- Some rule, in that direction, of a policy that selects the pod admits the packet. -/
def Admitted (w : PolicyWorld) (dir : Direction) (pod : Pod) (pkt : Packet) : Prop :=
  ∃ pol ∈ w.policies, policySelects pol pod = true ∧ dir.covers pol = true ∧
    ∃ r ∈ dir.rules pol, r.Admits w pol.ns dir pkt

/-! ## The contents of a plan's sets -/

/-- Membership in the set of that name; a later set of one name replaces an earlier one. -/
def planView (ipsets : List IpsetPlan) : SetView := fun name x =>
  (ipsets.reverse.find? (·.name == name)).any (·.body.mem x)

/-- Each of the sets is seen with its own entries. -/
def SetsOf (ipsets : List IpsetPlan) (sets : SetView) : Prop :=
  ∀ s ∈ ipsets, ∀ x, sets s.name x = s.body.mem x

theorem SetsOf.mono {l l' : List IpsetPlan} {sets : SetView} (h : SetsOf l sets)
    (hs : ∀ s ∈ l', s ∈ l) : SetsOf l' sets := fun s hm => h s (hs s hm)

/-- The lookup of a set's own name finds a set of that name. -/
theorem exists_find_planned {l : List IpsetPlan} {s : IpsetPlan} (hs : s ∈ l) :
    ∃ u ∈ l, l.reverse.find? (·.name == s.name) = some u ∧ u.name = s.name := by
  cases hf : l.reverse.find? (·.name == s.name) with
  | none =>
    have hnone := List.find?_eq_none.mp hf s (List.mem_reverse.mpr hs)
    simp at hnone
  | some u =>
    exact ⟨u, List.mem_reverse.mp (List.mem_of_find?_eq_some hf), rfl,
      by simpa using List.find?_some hf⟩

theorem planView_setsOf {l : List IpsetPlan}
    (huniq : ∀ s ∈ l, ∀ t ∈ l, s.name = t.name → s = t) : SetsOf l (planView l) := by
  intro s hs x
  obtain ⟨u, hu, hfind, hname⟩ := exists_find_planned hs
  rw [planView, hfind, huniq u hu s hs hname]
  rfl

/-- Objects of the world that derive the same chain or set name are the same object. -/
structure DistinctNames (cfg : Config) (w : PolicyWorld) (family : IpFamily) : Prop where
  policies : ∀ p ∈ w.policies, ∀ q ∈ w.policies,
    policyChain cfg family p = policyChain cfg family q → p = q
  pods : ∀ p ∈ w.pods, ∀ q ∈ w.pods, podChain cfg p = podChain cfg q → p = q
  sets : ∀ s ∈ (buildPlan cfg w family).ipsets, ∀ t ∈ (buildPlan cfg w family).ipsets,
    s.name = t.name → s = t

/-! ## What the rules of a policy chain match -/

/-- The peer sets and the match-all flag, as the emitted rules read them. -/
def ResolvedPeers.has (r : ResolvedPeers) (x : IpAddr) : Bool :=
  r.matchAll || r.ipEntries.contains x || (SetBody.hashNet r.netEntries).mem x

def PortSpec.has (p : PortSpec) (t : Transport) : Bool :=
  match p.port with
  | .all => t.protocol == p.protocol
  | .number n => t.protocol == p.protocol && t.dport == some n
  | .name _ => false

def PortSpec.isNamed (p : PortSpec) : Bool :=
  match p.port with
  | .name _ => true
  | _ => false

/-- Peers and ports of the rule match the packet. -/
def ruleHas (w : PolicyWorld) (family : IpFamily) (pol : NetworkPolicy) (dir : Direction)
    (pkt : Packet) (rule : PolicyRule) : Bool :=
  (resolvePeers rule.peers w.pods w.namespaces pol.ns family).has (pkt.addr dir.peerSide) &&
    (rule.ports.isEmpty || rule.ports.any (·.has pkt.transport))

section Link

variable {cfg : Config} {w : PolicyWorld} {family : IpFamily} {sets : SetView} {pkt : Packet}

theorem hits_peerMatches {dir : Direction} {pol : NetworkPolicy} {idx : Nat}
    {resolved : ResolvedPeers}
    (hsets : SetsOf (peerSets cfg family dir pol idx resolved) sets) :
    hits sets pkt (peerMatches cfg family dir pol idx resolved) =
      resolved.has (pkt.addr dir.peerSide) := by
  unfold peerMatches ResolvedPeers.has
  unfold peerSets at hsets
  cases hall : resolved.matchAll with
  | true => simp [hits]
  | false =>
    rw [hall, if_neg (by simp)] at hsets
    rw [if_neg (by simp), hits_append, Bool.false_or]
    congr 1
    · cases he : resolved.ipEntries with
      | nil => simp [hits]
      | cons ip ips =>
        have := hsets ⟨podSet cfg family dir pol idx, family, .hashIp resolved.ipEntries⟩
          (List.mem_append_left _ (by simp [he]))
        rw [if_neg (by simp)]
        simp only [hits, List.any_cons, List.any_nil, List.all_cons, List.all_nil, Bool.and_true,
          Bool.or_false, Cond.holds, Bool.bne_false]
        rw [this, he]
        rfl
    · cases he : resolved.netEntries with
      | nil => simp [hits, SetBody.mem, decidingNet]
      | cons e es =>
        have := hsets ⟨ipblockSet cfg family dir pol idx, family, .hashNet resolved.netEntries⟩
          (List.mem_append_right _ (by simp [he]))
        rw [if_neg (by simp)]
        simp only [hits, List.any_cons, List.any_nil, List.all_cons, List.all_nil, Bool.and_true,
          Bool.or_false, Cond.holds, Bool.bne_false]
        rw [this, he]

theorem hits_portMatches {dir : Direction} {pol : NetworkPolicy} {idx : Nat} {recv : List Pod}
    {peerMatch targetMatch : List Cond} {port : PortSpec} (hnamed : port.isNamed = false) :
    hits sets pkt (portMatches cfg family dir pol idx recv peerMatch targetMatch port) =
      ((peerMatch ++ targetMatch).all (Cond.holds sets pkt) && port.has pkt.transport) := by
  unfold portMatches PortSpec.has
  unfold PortSpec.isNamed at hnamed
  cases hp : port.port with
  | all => simp [hits, Cond.holds, Bool.and_assoc]
  | number n => simp [hits, Cond.holds, Bool.and_assoc]
  | name n => simp [hp] at hnamed

theorem hits_ruleMatches (pchain : String) {dir : Direction} {tset : String} {pol : NetworkPolicy}
    {idx : Nat} {rule : PolicyRule} (hnamed : ∀ port ∈ rule.ports, port.isNamed = false)
    (hsets : SetsOf (emitRule cfg w family pchain dir tset pol idx rule).ipsets sets) :
    hits sets pkt (ruleMatches cfg w family dir tset pol idx rule) =
      (sets tset (pkt.addr dir.targetSide) && ruleHas w family pol dir pkt rule) := by
  have hpeer : hits sets pkt (peerMatches cfg family dir pol idx
      (resolvePeers rule.peers w.pods w.namespaces pol.ns family)) = _ :=
    hits_peerMatches (hsets.mono fun s hs => List.mem_append_left _ hs)
  rw [ruleHas, ← hpeer, ruleMatches, hits, List.any_flatMap, hits]
  -- One peer match contributes its own truth, the target's and the ports'.
  have hone : ∀ peerMatch : List Cond,
      (if rule.ports.isEmpty then [peerMatch ++ [Cond.matchSet false tset dir.targetSide] ++ []]
        else rule.ports.flatMap (portMatches cfg family dir pol idx
          (receivers w family dir pol
            (resolvePeers rule.peers w.pods w.namespaces pol.ns family)) peerMatch
            [Cond.matchSet false tset dir.targetSide])).any (·.all (Cond.holds sets pkt)) =
      (peerMatch.all (Cond.holds sets pkt) && (sets tset (pkt.addr dir.targetSide) &&
        (rule.ports.isEmpty || rule.ports.any (·.has pkt.transport)))) := by
    intro peerMatch
    by_cases he : rule.ports.isEmpty
    · simp [he, Cond.holds]
    · rw [if_neg he, List.any_flatMap]
      have hport : ∀ port ∈ rule.ports, (portMatches cfg family dir pol idx
          (receivers w family dir pol
            (resolvePeers rule.peers w.pods w.namespaces pol.ns family)) peerMatch
            [Cond.matchSet false tset dir.targetSide] port).any (·.all (Cond.holds sets pkt)) =
          ((peerMatch.all (Cond.holds sets pkt) && sets tset (pkt.addr dir.targetSide)) &&
            port.has pkt.transport) := fun port hport => by
        rw [← hits, hits_portMatches (hnamed port hport)]
        simp [Cond.holds]
      have hcongr : rule.ports.any (fun port => (portMatches cfg family dir pol idx
          (receivers w family dir pol
            (resolvePeers rule.peers w.pods w.namespaces pol.ns family)) peerMatch
            [Cond.matchSet false tset dir.targetSide] port).any (·.all (Cond.holds sets pkt))) =
          rule.ports.any fun port => (peerMatch.all (Cond.holds sets pkt) &&
            sets tset (pkt.addr dir.targetSide)) && port.has pkt.transport := by
        rw [Bool.eq_iff_iff, List.any_eq_true, List.any_eq_true]
        exact exists_congr fun port => and_congr_right fun hm => by rw [hport port hm]
      rw [hcongr, Bool.eq_false_iff.mpr he, Bool.false_or]
      cases peerMatch.all (Cond.holds sets pkt) <;>
        cases sets tset (pkt.addr dir.targetSide) <;> simp
  simp only [hone]
  rw [Bool.and_left_comm]
  cases sets tset (pkt.addr dir.targetSide) &&
      (rule.ports.isEmpty || rule.ports.any (·.has pkt.transport)) <;> simp

theorem Direction.mem_rules {dir : Direction} {pol : NetworkPolicy} {r : PolicyRule}
    (h : r ∈ dir.rules pol) : r ∈ pol.ingress ++ pol.egress := by
  cases dir with
  | ingress => exact List.mem_append_left _ h
  | egress => exact List.mem_append_right _ h

/-- No rule of the policy names a port by name. -/
def NoNamedPorts (pol : NetworkPolicy) : Prop :=
  ∀ r ∈ pol.ingress ++ pol.egress, ∀ port ∈ r.ports, port.isNamed = false

instance : DecidablePred NoNamedPorts := fun pol =>
  inferInstanceAs (Decidable (∀ r ∈ pol.ingress ++ pol.egress, ∀ port ∈ r.ports, _))

theorem hits_directionMatches {dir : Direction} {pol : NetworkPolicy} (hnamed : NoNamedPorts pol)
    (hsets : SetsOf (directionPlan cfg w family dir pol).ipsets sets) :
    hits sets pkt (directionMatches cfg w family dir pol) = true ↔
      dir.covers pol = true ∧ pkt.addr dir.targetSide ∈ selectedIps w family pol ∧
        ∃ r ∈ dir.rules pol, ruleHas w family pol dir pkt r = true := by
  unfold directionMatches
  cases hcov : dir.covers pol with
  | false => simp [hits]
  | true =>
    rw [if_pos rfl, hits, List.any_flatMap]
    rw [directionPlan, if_pos hcov] at hsets
    have htarget : sets (targetSet cfg family dir pol) (pkt.addr dir.targetSide) =
        (selectedIps w family pol).contains (pkt.addr dir.targetSide) :=
      hsets ⟨targetSet cfg family dir pol, family, .hashIp (selectedIps w family pol)⟩
        (List.mem_append_left _ (List.mem_singleton_self _)) _
    have hrule : ∀ r ∈ (dir.rules pol).zipIdx,
        hits sets pkt (ruleMatches cfg w family dir (targetSet cfg family dir pol) pol r.2 r.1) =
          ((selectedIps w family pol).contains (pkt.addr dir.targetSide) &&
            ruleHas w family pol dir pkt r.1) := fun r hr => by
      rw [hits_ruleMatches (policyChain cfg family pol)
        (hnamed r.1 (Direction.mem_rules (List.fst_mem_of_mem_zipIdx hr)))
        (hsets.mono fun s hs =>
          List.mem_append_right _ (List.mem_flatMap.mpr ⟨r, hr, hs⟩)), htarget]
    rw [List.any_eq_true]
    constructor
    · rintro ⟨r, hr, hh⟩
      have := (hrule r hr).symm.trans hh
      rw [Bool.and_eq_true] at this
      exact ⟨rfl, by simpa using this.1, r.1, List.fst_mem_of_mem_zipIdx hr, this.2⟩
    · rintro ⟨-, hsel, r, hr, hh⟩
      obtain ⟨i, hi⟩ := List.mem_iff_getElem?.mp hr
      have hi' : (r, i) ∈ (dir.rules pol).zipIdx := List.mk_mem_zipIdx_iff_getElem?.mpr hi
      refine ⟨(r, i), hi', (hrule _ hi').trans ?_⟩
      rw [Bool.and_eq_true]
      exact ⟨by simpa using hsel, hh⟩

end Link

/-! ## The groups of a named port -/

/-- One of the pods has the address and a container port of that name, protocol and number. -/
def ExposedAt (family : IpFamily) (pods : List Pod) (protocol name : String) (n : UInt16)
    (d : IpAddr) : Prop :=
  ∃ pod ∈ pods, d ∈ podFamilyIps pod family ∧
    ∃ cp ∈ pod.containerPorts, cp.name = some name ∧ cp.protocol = protocol ∧ cp.port = n

/-- The numbers the pods give the name, in ascending order. -/
def portNumbers (pods : List Pod) (protocol name : String) : List UInt16 :=
  (pods.flatMap fun pod => (pod.containerPorts.filter fun cp =>
    cp.name == some name && cp.protocol == protocol).map (·.port)).dedup.insertionSort (· ≤ ·)

section Groups

variable {family : IpFamily} {recv : List Pod} {protocol name : String}

theorem groups_mem (hits : List (UInt16 × List IpAddr)) (m : Std.TreeMap UInt16 (List IpAddr))
    (k : UInt16) :
    k ∈ hits.foldl (fun g h => g.insert h.1 (g.getD h.1 [] ++ h.2)) m ↔
      k ∈ m ∨ ∃ h ∈ hits, h.1 = k := by
  induction hits generalizing m with
  | nil => simp
  | cons h hits ih =>
    rw [List.foldl_cons, ih, Std.TreeMap.mem_insert]
    simp only [Std.LawfulEqCmp.compare_eq_iff_eq, List.exists_mem_cons_iff]
    grind

/-- A group collects its hits in order. -/
theorem groups_getD (hits : List (UInt16 × List IpAddr)) (m : Std.TreeMap UInt16 (List IpAddr))
    (k : UInt16) :
    (hits.foldl (fun g h => g.insert h.1 (g.getD h.1 [] ++ h.2)) m).getD k [] =
      m.getD k [] ++ (hits.filter (·.1 == k)).flatMap (·.2) := by
  induction hits generalizing m with
  | nil => simp
  | cons h hits ih =>
    rw [List.foldl_cons, ih, Std.TreeMap.getD_insert, List.filter_cons]
    simp only [Std.LawfulEqCmp.compare_eq_iff_eq, beq_iff_eq]
    by_cases hk : h.1 = k
    · subst hk
      simp
    · simp [hk]

/-- The addresses behind a number of a port name, pod by pod. -/
def addressesAt (family : IpFamily) (pods : List Pod) (protocol name : String) (n : UInt16) :
    List IpAddr :=
  pods.flatMap fun pod => (pod.containerPorts.filter fun cp =>
    cp.name == some name && cp.protocol == protocol && cp.port == n).flatMap fun _ =>
      podFamilyIps pod family

theorem group_eq {g : UInt16 × List IpAddr} (hg : g ∈ namedPortGroups family recv protocol name) :
    g.2 = addressesAt family recv protocol name g.1 := by
  have hget := Std.TreeMap.mem_toList_iff_getElem?_eq_some.mp hg
  have hval := groups_getD (recv.flatMap fun pod => (pod.containerPorts.filter fun cp =>
    cp.name == some name && cp.protocol == protocol).map fun cp =>
      (cp.port, podFamilyIps pod family)) ∅ g.1
  rw [Std.TreeMap.getD_eq_getD_getElem?, hget, Option.getD_some, Std.TreeMap.getD_emptyc,
    List.nil_append, List.filter_flatMap, List.flatMap_assoc] at hval
  rw [hval, addressesAt]
  refine List.flatMap_congr fun pod _ => ?_
  rw [List.filter_map, List.flatMap_map, List.filter_filter]
  refine congrArg (List.flatMap _) (List.filter_congr fun cp _ => ?_)
  simp only [Function.comp_apply, Bool.and_comm]

theorem mem_group {g : UInt16 × List IpAddr} (hg : g ∈ namedPortGroups family recv protocol name)
    {d : IpAddr} : d ∈ g.2 ↔ ExposedAt family recv protocol name g.1 d := by
  rw [group_eq hg, ExposedAt]
  simp only [addressesAt, List.mem_flatMap, List.mem_filter, Bool.and_eq_true, beq_iff_eq]
  constructor
  · rintro ⟨pod, hpod, cp, ⟨hcp, ⟨hn, hp⟩, hk⟩, hd⟩
    exact ⟨pod, hpod, hd, cp, hcp, hn, hp, hk⟩
  · rintro ⟨pod, hpod, hd, cp, hcp, hn, hp, hk⟩
    exact ⟨pod, hpod, cp, ⟨hcp, ⟨hn, hp⟩, hk⟩, hd⟩

theorem mem_portNumbers {n : UInt16} : n ∈ portNumbers recv protocol name ↔
    ∃ pod ∈ recv, ∃ cp ∈ pod.containerPorts,
      cp.name = some name ∧ cp.protocol = protocol ∧ cp.port = n := by
  simp only [portNumbers, List.mem_insertionSort, List.mem_dedup, List.mem_flatMap, List.mem_map,
    List.mem_filter, Bool.and_eq_true, beq_iff_eq, and_assoc]

theorem groups_numbers (family : IpFamily) (recv : List Pod) (protocol name : String) :
    (namedPortGroups family recv protocol name).map Prod.fst = portNumbers recv protocol name := by
  -- Both lists ascend without repetition and hold the same numbers.
  have hlt : ((namedPortGroups family recv protocol name).map Prod.fst).Pairwise (· < ·) := by
    rw [List.pairwise_map]
    exact Std.TreeMap.ordered_keys_toList.imp fun h => by simpa [Std.compare_eq_lt] using h
  have hmem : ∀ n, n ∈ (namedPortGroups family recv protocol name).map Prod.fst ↔
      n ∈ portNumbers recv protocol name := by
    intro n
    rw [namedPortGroups, Std.TreeMap.map_fst_toList_eq_keys, Std.TreeMap.mem_keys, groups_mem,
      mem_portNumbers]
    simp only [Std.TreeMap.not_mem_emptyc, false_or, List.mem_flatMap, List.mem_map,
      List.mem_filter, Bool.and_eq_true, beq_iff_eq]
    constructor
    · rintro ⟨h, ⟨pod, hpod, cp, ⟨hcp, hn, hp⟩, rfl⟩, hk⟩
      exact ⟨pod, hpod, cp, hcp, hn, hp, hk⟩
    · rintro ⟨pod, hpod, cp, hcp, hn, hp, hk⟩
      exact ⟨_, ⟨pod, hpod, cp, ⟨hcp, hn, hp⟩, rfl⟩, hk⟩
  have hnodup : (portNumbers recv protocol name).Nodup :=
    (List.perm_insertionSort _ _).nodup_iff.mpr (List.nodup_dedup _)
  have hperm := (List.perm_ext_iff_of_nodup (hlt.imp fun h => UInt16.ne_of_lt h) hnodup).mpr hmem
  exact hperm.eq_of_pairwise (fun a b _ _ => UInt16.le_antisymm) (hlt.imp UInt16.le_of_lt)
    (List.pairwise_insertionSort _ _)

/-- One group per number, with the addresses behind it. -/
theorem namedPortGroups_eq : namedPortGroups family recv protocol name =
    (portNumbers recv protocol name).map fun n => (n, addressesAt family recv protocol name n) := by
  rw [← groups_numbers family, List.map_map]
  symm
  refine (List.map_congr_left fun g hg => ?_).trans (List.map_id _)
  rw [Function.comp_apply, ← group_eq hg]
  rfl

end Groups
/-! ## The entry that decides a `hash:net` lookup -/

/-- The deciding entry contains the address; no entry before it is longer and none behind it is
    as long. -/
theorem decidingNet_some {nets : List (IpNet × Bool)} {x : IpAddr} {e : IpNet × Bool}
    (h : decidingNet nets x = some e) :
    e.1.contains x = true ∧ ∃ pre post, nets = pre ++ e :: post ∧
      ∀ e' ∈ post, e'.1.contains x = true → e'.1.prefixLen < e.1.prefixLen := by
  induction nets using List.reverseRecOn generalizing e with
  | nil => cases h
  | append_singleton nets a ih =>
    unfold decidingNet at h ih
    rw [List.foldl_append, List.foldl_cons, List.foldl_nil] at h
    split at h
    · next ha =>
      obtain rfl : a = e := Option.some.inj h
      rw [Bool.and_eq_true] at ha
      exact ⟨ha.1, nets, [], rfl, fun _ h' => absurd h' List.not_mem_nil⟩
    · next ha =>
      obtain ⟨hx, pre, post, rfl, hpost⟩ := ih h
      refine ⟨hx, pre, post ++ [a], by simp, ?_⟩
      intro e' he' hc
      rcases List.mem_append.mp he' with he' | he'
      · exact hpost e' he' hc
      · rw [List.mem_singleton.mp he'] at hc ⊢
        rw [h, Bool.and_eq_true, not_and] at ha
        have := ha hc
        simp only [Option.all_some, decide_eq_true_eq] at this
        omega

/-- An element of a `flatMap` stands in the image of one element of the list. -/
theorem flatMap_eq_append_cons {α β : Type} {f : α → List β} {l : List α}
    {pre post : List β} {b : β}
    (h : l.flatMap f = pre ++ b :: post) :
    ∃ l₁ a l₂ u v, l = l₁ ++ a :: l₂ ∧ f a = u ++ b :: v ∧ pre = l₁.flatMap f ++ u ∧
      post = v ++ l₂.flatMap f := by
  induction l generalizing pre with
  | nil => simp at h
  | cons x l ih =>
    rw [List.flatMap_cons] at h
    have hrest : ∀ pre', l.flatMap f = pre' ++ b :: post → pre = f x ++ pre' →
        ∃ l₁ a l₂ u v, x :: l = l₁ ++ a :: l₂ ∧ f a = u ++ b :: v ∧ pre = l₁.flatMap f ++ u ∧
          post = v ++ l₂.flatMap f := by
      intro pre' hl hpre
      obtain ⟨l₁, a, l₂, u, v, hsplit, hfa, hpre', hpost⟩ := ih hl
      refine ⟨x :: l₁, a, l₂, u, v, by rw [hsplit, List.cons_append], hfa, ?_, hpost⟩
      rw [hpre, hpre', List.flatMap_cons, List.append_assoc]
    -- the element stands behind the first image, or in it
    rcases List.append_eq_append_iff.mp h with ⟨as, has, hbs⟩ | ⟨bs, hbs, has⟩
    · exact hrest as hbs has
    · cases bs with
      | nil => exact hrest [] has.symm (by rw [hbs]; simp)
      | cons c bs =>
        rw [List.cons_append, List.cons.injEq] at has
        obtain ⟨rfl, rfl⟩ := has
        exact ⟨[], x, l, pre, bs, rfl, hbs, rfl, rfl⟩

/-- An entry without `nomatch` is the CIDR of its block; the exceptions follow it. -/
theorem Peer.netEntries_open {peer : Peer} {family : IpFamily} {net : IpNet}
    {u v : List (IpNet × Bool)} (h : peer.netEntries family = u ++ (net, false) :: v) :
    ∃ except, peer = .ipBlock net except ∧ v = except.map (·, true) := by
  cases peer with
  | selector a b => simp [netEntries] at h
  | ipBlock cidr except =>
    simp only [netEntries] at h
    split at h
    · cases u with
      | nil =>
        rw [List.nil_append, List.cons.injEq, Prod.mk.injEq] at h
        obtain ⟨⟨rfl, -⟩, rfl⟩ := h
        exact ⟨except, rfl, rfl⟩
      | cons e u =>
        rw [List.cons_append, List.cons.injEq] at h
        have hmem : (net, false) ∈ except.map (·, true) := by rw [h.2]; simp
        simp at hmem
    · simp at h

/-- A net without `nomatch` opens a block, and the block's exceptions follow it. -/
theorem netEntries_block {peers : List Peer} {family : IpFamily} {net : IpNet}
    {pre post : List (IpNet × Bool)}
    (h : peers.flatMap (·.netEntries family) = pre ++ (net, false) :: post) :
    ∃ except, Peer.ipBlock net except ∈ peers ∧ ∀ ex ∈ except, (ex, true) ∈ post := by
  obtain ⟨l₁, peer, l₂, u, v, rfl, hentries, -, rfl⟩ := flatMap_eq_append_cons h
  obtain ⟨except, rfl, rfl⟩ := Peer.netEntries_open hentries
  exact ⟨except, by simp, fun ex hex =>
    List.mem_append_left _ (List.mem_map.mpr ⟨ex, hex, rfl⟩)⟩

/-- A block whose net decides a lookup admits the address. -/
theorem hashNet_admits {w : PolicyWorld} {ns : String} {peers : List Peer} {family : IpFamily}
    {x : IpAddr} (h : (SetBody.hashNet (peers.flatMap (·.netEntries family))).mem x = true) :
    ∃ peer ∈ peers, peer.Admits w ns x := by
  simp only [SetBody.mem, Option.any_eq_true] at h
  obtain ⟨⟨net, flag⟩, hd, hflag⟩ := h
  obtain rfl : flag = false := by simpa using hflag
  obtain ⟨hx, pre, post, hsplit, hpost⟩ := decidingNet_some hd
  obtain ⟨except, hm, hex⟩ := netEntries_block hsplit
  refine ⟨_, hm, hx, fun e he hle => ?_⟩
  by_contra hc
  have := hpost (e, true) (hex e he) (by simpa using hc)
  simp only at this
  omega

/-! ## Rules against the reference -/

section Admits

variable {w : PolicyWorld} {family : IpFamily} {pkt : Packet}

theorem mem_podFamilyIps {pod : Pod} {x : IpAddr} :
    x ∈ podFamilyIps pod family ↔ x ∈ pod.ips ∧ x.family = family := by
  simp [podFamilyIps]

theorem mem_matchedNamespaces {sel : Option LabelSelector} {ns : String} {pod : Pod} :
    pod.ns ∈ matchedNamespaces sel w.namespaces ns ↔ NamespaceOk w ns pod sel := by
  cases sel with
  | none => simp [matchedNamespaces, NamespaceOk]
  | some sel =>
    simp only [matchedNamespaces, NamespaceOk, List.mem_map, List.mem_filter]
    constructor
    · rintro ⟨n, ⟨hm, hs⟩, he⟩
      exact ⟨n, hm, he, hs⟩
    · rintro ⟨n, hm, he, hs⟩
      exact ⟨n, ⟨hm, hs⟩, he⟩

theorem mem_selector_ipEntries {nsSel podSel : Option LabelSelector} {ns : String} {x : IpAddr} :
    x ∈ (Peer.selector nsSel podSel).ipEntries w.pods w.namespaces ns family ↔
      x.family = family ∧ (Peer.selector nsSel podSel).Admits w ns x := by
  simp only [Peer.ipEntries, peerPods, List.mem_flatMap, List.mem_filter, mem_podFamilyIps,
    Peer.Admits, Bool.and_eq_true, List.contains_iff_mem, mem_matchedNamespaces, Bool.not_eq_true',
    Option.all_eq_true]
  constructor
  · rintro ⟨pod, ⟨hm, ⟨hns, hh⟩, hsel⟩, hx, hf⟩
    exact ⟨hf, pod, hm, hh, hns, hsel, hx⟩
  · rintro ⟨hf, pod, hm, hh, hns, hsel, hx⟩
    exact ⟨pod, ⟨hm, ⟨hns, hh⟩, hsel⟩, hx, hf⟩

def Peer.isIpBlock : Peer → Bool
  | ipBlock _ _ => true
  | selector _ _ => false

/-- What the resolved peers match, a peer admits. -/
theorem has_admits {peers : List Peer} {ns : String} {x : IpAddr}
    (h : (resolvePeers peers w.pods w.namespaces ns family).has x = true) :
    peers = [] ∨ ∃ peer ∈ peers, peer.Admits w ns x := by
  cases hp : peers with
  | nil => exact Or.inl rfl
  | cons p ps =>
    rw [← hp]
    refine Or.inr ?_
    have hne : peers.isEmpty = false := by rw [hp]; rfl
    simp only [ResolvedPeers.has, resolvePeers, hne, Bool.false_eq_true, if_false, Bool.false_or,
      Bool.or_eq_true, List.contains_iff_mem, List.mem_dedup, List.mem_flatMap] at h
    rcases h with ⟨peer, hm, hx⟩ | h
    · cases peer with
      | selector a b => exact ⟨_, hm, (mem_selector_ipEntries.mp hx).2⟩
      | ipBlock c e => exact absurd hx List.not_mem_nil
    · exact hashNet_admits h

/-- Conversely for selector peers and addresses of the family. -/
theorem has_of_admits {peers : List Peer} {ns : String} {x : IpAddr}
    (hblock : ∀ peer ∈ peers, peer.isIpBlock = false) (hf : x.family = family)
    (h : peers = [] ∨ ∃ peer ∈ peers, peer.Admits w ns x) :
    (resolvePeers peers w.pods w.namespaces ns family).has x = true := by
  rcases h with rfl | ⟨peer, hm, ha⟩
  · rfl
  · have hne : peers.isEmpty = false := by cases peers <;> simp_all
    simp only [ResolvedPeers.has, resolvePeers, hne, Bool.false_eq_true, if_false, Bool.false_or,
      Bool.or_eq_true, List.contains_iff_mem, List.mem_dedup, List.mem_flatMap]
    refine Or.inl ⟨peer, hm, ?_⟩
    cases peer with
    | selector a b => exact mem_selector_ipEntries.mpr ⟨hf, ha⟩
    | ipBlock c e => cases hblock _ hm

theorem portHas_iff {port : PortSpec} (h : port.isNamed = false) :
    port.has pkt.transport = true ↔ port.Admits w pkt := by
  unfold PortSpec.has PortSpec.Admits
  unfold PortSpec.isNamed at h
  cases hp : port.port with
  | all => simp
  | number n => simp
  | name n => simp [hp] at h

theorem portsHave_iff {ports : List PortSpec} (h : ∀ port ∈ ports, port.isNamed = false) :
    (ports.isEmpty || ports.any (·.has pkt.transport)) = true ↔
      (ports = [] ∨ ∃ port ∈ ports, port.Admits w pkt) := by
  rw [Bool.or_eq_true, List.isEmpty_iff, List.any_eq_true]
  exact or_congr_right (exists_congr fun port => and_congr_right fun hm => portHas_iff (h port hm))

theorem ruleHas_admits {pol : NetworkPolicy} {dir : Direction} {rule : PolicyRule}
    (hnamed : ∀ port ∈ rule.ports, port.isNamed = false)
    (h : ruleHas w family pol dir pkt rule = true) : rule.Admits w pol.ns dir pkt := by
  rw [ruleHas, Bool.and_eq_true] at h
  exact ⟨has_admits h.1, (portsHave_iff hnamed).mp h.2⟩

theorem ruleHas_iff_admits {pol : NetworkPolicy} {dir : Direction} {rule : PolicyRule}
    (hnamed : ∀ port ∈ rule.ports, port.isNamed = false)
    (hblock : ∀ peer ∈ rule.peers, peer.isIpBlock = false)
    (hf : (pkt.addr dir.peerSide).family = family) :
    ruleHas w family pol dir pkt rule = true ↔ rule.Admits w pol.ns dir pkt := by
  refine ⟨ruleHas_admits hnamed, fun h => ?_⟩
  rw [ruleHas, Bool.and_eq_true]
  exact ⟨has_of_admits hblock hf h.1, (portsHave_iff hnamed).mpr h.2⟩

end Admits

end KubeRouter.Netpol
