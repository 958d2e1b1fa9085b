/-
  Named ports (`emit_policy_rules`): the receivers a named port of a rule admits.

  A named port pushes one set per number its receivers give the name, called after the rule and
  the position of the number; the position starts at 0 again for every port of the rule and both
  are plain digits in the key. A later set of one name replaces an earlier one.

  Proved:
  * `setsAgree_iff`: sets of one name have the same entries exactly when `NamesAgree`: what two
    rules resolve to agrees wherever their names run together.
  * `namedPort_marks_iff`: with its own entries in every set, the pair of a named port marks a
    packet exactly when a receiver exposes the name at the packet's port and the other side of
    the rule matches.
  * `namedPorts_exact_iff`: both hold exactly when names agree and the pods that share an address
    with a selected egress peer expose the name at addresses of selected peers only.
-/
import KubeRouter.Netpol.Install

namespace KubeRouter.Netpol

/-! ## The receivers a port name is about -/

/-- The pods a peer picks; an ipBlock picks none. -/
def Peer.pods (w : PolicyWorld) (policyNs : String) : Peer → List Pod
  | selector nsSel podSel => peerPods nsSel podSel w.pods w.namespaces policyNs
  | ipBlock _ _ => []

/-- The policy's own pods for ingress; for egress the pods the peers pick, or every pod of the
    namespace when `to` is omitted. -/
def receivingPods (w : PolicyWorld) (dir : Direction) (pol : NetworkPolicy) (rule : PolicyRule) :
    List Pod :=
  match dir with
  | .ingress => w.pods.filter (policySelects pol ·)
  | .egress =>
    if rule.peers.isEmpty then w.pods.filter (·.ns == pol.ns)
    else rule.peers.flatMap (·.pods w pol.ns)

section Receivers

variable (w : PolicyWorld) (family : IpFamily)

/-- The pod has an address in common with one of the pods. -/
def SharesAddress (pod : Pod) (pods : List Pod) : Prop :=
  ∃ x ∈ podFamilyIps pod family, ∃ p ∈ pods, x ∈ podFamilyIps p family

variable {w family} {pol : NetworkPolicy} {rule : PolicyRule}

/-- The pod set of a rule holds the addresses of the pods its peers pick. -/
theorem mem_ipEntries {x : IpAddr} : x ∈ (rulePeers w family pol rule).ipEntries ↔
    ∃ p ∈ rule.peers.flatMap (·.pods w pol.ns), x ∈ podFamilyIps p family := by
  have hpeer : ∀ peer : Peer, x ∈ peer.ipEntries w.pods w.namespaces pol.ns family ↔
      ∃ p ∈ peer.pods w pol.ns, x ∈ podFamilyIps p family := by
    intro peer
    cases peer with
    | selector nsSel podSel => exact List.mem_flatMap
    | ipBlock cidr except => simp [Peer.ipEntries, Peer.pods]
  cases hp : rule.peers with
  | nil => simp [rulePeers, resolvePeers, hp]
  | cons first rest =>
    rw [rulePeers, hp, resolvePeers, if_neg (by simp)]
    simp only [List.mem_dedup, List.mem_flatMap, hpeer]
    constructor
    · rintro ⟨peer, hpeer, p, hp, hx⟩
      exact ⟨p, ⟨peer, hpeer, hp⟩, hx⟩
    · rintro ⟨p, ⟨peer, hpeer, hp⟩, hx⟩
      exact ⟨peer, hpeer, p, hp, hx⟩

theorem ruleReceivers_omitted (h : rule.peers = []) :
    ruleReceivers w family .egress pol rule = receivingPods w .egress pol rule := by
  simp [ruleReceivers, receivers, receivingPods, rulePeers_matchAll, h]

/-- Egress receivers are looked up by address. -/
theorem mem_ruleReceivers_egress (h : rule.peers ≠ []) {pod : Pod} :
    pod ∈ ruleReceivers w family .egress pol rule ↔
      pod ∈ w.pods ∧ SharesAddress family pod (receivingPods w .egress pol rule) := by
  have he : rule.peers.isEmpty = false := by simpa using h
  simp only [ruleReceivers, receivers, receivingPods, rulePeers_matchAll, he, Bool.false_eq_true,
    if_false, List.mem_filter, List.any_eq_true, List.contains_iff_mem, mem_ipEntries]
  rfl

theorem Peer.pods_subset {peer : Peer} {pod : Pod} {ns : String} (h : pod ∈ peer.pods w ns) :
    pod ∈ w.pods := by
  cases peer with
  | selector nsSel podSel => exact List.mem_of_mem_filter h
  | ipBlock cidr except => exact absurd h List.not_mem_nil

/-- What the receiving pods expose, the code's receivers expose. -/
theorem ExposedAt.of_receiving {dir : Direction} {protocol name : String} {n : UInt16} {d : IpAddr}
    (h : ExposedAt family (receivingPods w dir pol rule) protocol name n d) :
    ExposedAt family (ruleReceivers w family dir pol rule) protocol name n d := by
  cases dir with
  | ingress => exact h
  | egress =>
    by_cases hp : rule.peers = []
    · rwa [ruleReceivers_omitted hp]
    obtain ⟨pod, hpod, hd, hcp⟩ := h
    refine ⟨pod, (mem_ruleReceivers_egress hp).mpr ⟨?_, d, hd, pod, hpod, hd⟩, hd, hcp⟩
    rw [receivingPods, if_neg (by simpa using hp)] at hpod
    obtain ⟨peer, -, hpod⟩ := List.mem_flatMap.mp hpod
    exact Peer.pods_subset hpod

end Receivers

/-! ## Sets of one name -/

/-- The same entries; those of a `hash:ip` set have no order. -/
def SetBody.SameEntries : SetBody → SetBody → Prop
  | hashIp ips, hashIp ips' => ∀ x, x ∈ ips ↔ x ∈ ips'
  | hashNet nets, hashNet nets' => nets = nets'
  | _, _ => False

theorem SetBody.SameEntries.mem_eq {b b' : SetBody} (h : b.SameEntries b') (x : IpAddr) :
    b.mem x = b'.mem x := by
  cases b <;> cases b'
  · rw [Bool.eq_iff_iff]
    simpa only [SetBody.mem, List.contains_iff_mem] using h x
  · exact h.elim
  · exact h.elim
  · rw [show _ = _ from h]

/-- Any two sets of the plan with one name have the same entries. -/
def SetsAgree (cfg : Config) (w : PolicyWorld) (family : IpFamily) : Prop :=
  ∀ s ∈ (buildPlan cfg w family).ipsets, ∀ t ∈ (buildPlan cfg w family).ipsets,
    s.name = t.name → s.body.SameEntries t.body

/-- Two policies of one concatenation (a policy and itself, for one) that cover the direction. -/
structure ShareNames (w : PolicyWorld) (dir : Direction) (p q : NetworkPolicy) : Prop where
  left : p ∈ w.policies
  right : q ∈ w.policies
  stem : p.stem = q.stem
  covers_left : dir.covers p = true
  covers_right : dir.covers q = true

/-- Wherever the names of two sets run together, what goes into them agrees. For named ports:
    when the digits of rule and position do, the receivers of the one port at its number have
    the addresses of the receivers of the other port at its own. -/
structure NamesAgree (w : PolicyWorld) (family : IpFamily) : Prop where
  targets : ∀ dir p q, ShareNames w dir p q →
    ∀ x, x ∈ selectedIps w family p ↔ x ∈ selectedIps w family q
  pods : ∀ dir p q, ShareNames w dir p q → ∀ idx rule rule',
    (rule, idx) ∈ (dir.rules p).zipIdx → (rule', idx) ∈ (dir.rules q).zipIdx →
    (rulePeers w family p rule).ipEntries ≠ [] → (rulePeers w family q rule').ipEntries ≠ [] →
    ∀ x, x ∈ (rulePeers w family p rule).ipEntries ↔ x ∈ (rulePeers w family q rule').ipEntries
  blocks : ∀ dir p q, ShareNames w dir p q → ∀ idx rule rule',
    (rule, idx) ∈ (dir.rules p).zipIdx → (rule', idx) ∈ (dir.rules q).zipIdx →
    (rulePeers w family p rule).netEntries ≠ [] → (rulePeers w family q rule').netEntries ≠ [] →
    (rulePeers w family p rule).netEntries = (rulePeers w family q rule').netEntries
  named : ∀ dir p q, ShareNames w dir p q → ∀ idx rule port name idx' rule' port' name',
    NamedEntry w family dir p idx rule port name →
    NamedEntry w family dir q idx' rule' port' name' → ∀ (ep ep' : Nat) n n',
    (portNumbers (ruleReceivers w family dir p rule) port.protocol name)[ep]? = some n →
    (portNumbers (ruleReceivers w family dir q rule') port'.protocol name')[ep']? = some n' →
    toString idx ++ toString ep = toString idx' ++ toString ep' → ∀ d,
    ExposedAt family (ruleReceivers w family dir p rule) port.protocol name n d ↔
      ExposedAt family (ruleReceivers w family dir q rule') port'.protocol name' n' d

section Agree

variable {cfg : Config} {w : PolicyWorld} {family : IpFamily}

theorem SetKind.name_of_clash {p q : NetworkPolicy} {k k' : SetKind} (hs : p.stem = q.stem)
    (h : k.Clash k') : k.name cfg family p = k'.name cfg family q := by
  rw [k.name_eq, k'.name_eq, hs]
  rcases k with dir | ⟨dir, i⟩ | ⟨dir, i⟩ | ⟨dir, i, j⟩ <;>
    rcases k' with dir' | ⟨dir', i'⟩ | ⟨dir', i'⟩ | ⟨dir', i', j'⟩ <;> try exact h.elim
  · rw [show dir = dir' from h]
  · obtain ⟨rfl, rfl⟩ := h
    rfl
  · obtain ⟨rfl, rfl⟩ := h
    rfl
  · obtain ⟨rfl, hij⟩ := h
    simp only [key, middle, hij, suffix, side]

/-- The group behind a number of `portNumbers`. -/
theorem group_of_number (family : IpFamily) {recv : List Pod} {protocol name : String} {ep : Nat}
    {n : UInt16}
    (h : (portNumbers recv protocol name)[ep]? = some n) :
    ∃ ips, (namedPortGroups family recv protocol name)[ep]? = some (n, ips) := by
  rw [← groups_numbers family, List.getElem?_map, Option.map_eq_some_iff] at h
  obtain ⟨g, hg, rfl⟩ := h
  exact ⟨g.2, hg⟩

theorem number_of_group {recv : List Pod} {protocol name : String} {ep : Nat}
    {g : UInt16 × List IpAddr} (h : (namedPortGroups family recv protocol name)[ep]? = some g) :
    (portNumbers recv protocol name)[ep]? = some g.1 := by
  rw [← groups_numbers family, List.getElem?_map, h]
  rfl

/-- Pushed sets that clash have the same entries as soon as names agree. -/
theorem NamesAgree.sameEntries (h : NamesAgree w family) {dir dir' : Direction}
    {p q : NetworkPolicy} (hp : p ∈ w.policies) (hq : q ∈ w.policies) (hs : p.stem = q.stem)
    (hcp : dir.covers p = true) (hcq : dir'.covers q = true) {k k' : SetKind} {b b' : SetBody}
    (hk : Pushed w family dir p k b) (hk' : Pushed w family dir' q k' b') (hc : k.Clash k') :
    b.SameEntries b' := by
  cases hk with
  | target =>
    cases hk' with
    | target =>
      obtain rfl : dir = dir' := hc
      exact h.targets dir p q ⟨hp, hq, hs, hcp, hcq⟩
    | _ => exact hc.elim
  | pod rule idx hr he =>
    cases hk' with
    | pod rule' idx' hr' he' =>
      obtain ⟨rfl, rfl⟩ := hc
      exact h.pods dir p q ⟨hp, hq, hs, hcp, hcq⟩ idx rule rule' hr hr' he he'
    | _ => exact hc.elim
  | ipblock rule idx hr he =>
    cases hk' with
    | ipblock rule' idx' hr' he' =>
      obtain ⟨rfl, rfl⟩ := hc
      exact h.blocks dir p q ⟨hp, hq, hs, hcp, hcq⟩ idx rule rule' hr hr' he he'
    | _ => exact hc.elim
  | namedPort rule idx port name hn ep g hg =>
    cases hk' with
    | namedPort rule' idx' port' name' hn' ep' g' hg' =>
      obtain ⟨rfl, hij⟩ := hc
      intro x
      rw [List.mem_dedup, List.mem_dedup, mem_group (List.mem_of_getElem? hg),
        mem_group (List.mem_of_getElem? hg')]
      exact h.named dir p q ⟨hp, hq, hs, hcp, hcq⟩ idx rule port name idx' rule' port' name' hn hn'
        ep ep' g.1 g'.1 (number_of_group hg) (number_of_group hg') hij x
    | _ => exact hc.elim

/-- Sets that clash have one name. -/
theorem SetsAgree.sameEntries (h : SetsAgree cfg w family) {dir : Direction} {p q : NetworkPolicy}
    (hpq : ShareNames w dir p q) {k k' : SetKind} {b b' : SetBody} (hk : Pushed w family dir p k b)
    (hk' : Pushed w family dir q k' b') (hc : k.Clash k') : b.SameEntries b' :=
  h _ (pushed_mem hpq.left hpq.covers_left hk) _ (pushed_mem hpq.right hpq.covers_right hk')
    (SetKind.name_of_clash hpq.stem hc)

theorem setsAgree_iff (hinj : Function.Injective cfg.hash16) :
    SetsAgree cfg w family ↔ NamesAgree w family := by
  constructor
  · intro h
    refine ⟨fun dir p q hpq => ?_, fun dir p q hpq idx rule rule' hr hr' he he' => ?_,
      fun dir p q hpq idx rule rule' hr hr' he he' => ?_,
      fun dir p q hpq idx rule port name idx' rule' port' name' hn hn' ep ep' n n' hep hep' hij d =>
        ?_⟩
    · exact h.sameEntries hpq .target .target rfl
    · exact h.sameEntries hpq (.pod rule idx hr he) (.pod rule' idx hr' he') ⟨rfl, rfl⟩
    · exact h.sameEntries hpq (.ipblock rule idx hr he) (.ipblock rule' idx hr' he') ⟨rfl, rfl⟩
    · obtain ⟨ips, hg⟩ := group_of_number family hep
      obtain ⟨ips', hg'⟩ := group_of_number family hep'
      have hsame := h.sameEntries hpq (.namedPort rule idx port name hn ep _ hg)
        (.namedPort rule' idx' port' name' hn' ep' _ hg') ⟨rfl, hij⟩ d
      rw [List.mem_dedup, List.mem_dedup] at hsame
      exact (mem_group (List.mem_of_getElem? hg)).symm.trans
        (hsame.trans (mem_group (List.mem_of_getElem? hg')))
  · intro h s hs t ht hst
    rcases mem_buildPlan_ipsets.mp hs with ⟨p, hp, dir, hcp, k, b, hk, rfl⟩ | ⟨-, rfl⟩
    · rcases mem_buildPlan_ipsets.mp ht with ⟨q, hq, dir', hcq, k', b', hk', rfl⟩ | ⟨-, rfl⟩
      · obtain ⟨hstem, -, hclash⟩ := SetKind.name_clash hinj hst
        exact h.sameEntries hp hq hstem hcp hcq hk hk' hclash
      · exact absurd hst.symm (localPodsSet_ne_name k family family)
    · rcases mem_buildPlan_ipsets.mp ht with ⟨q, hq, dir', hcq, k', b', hk', rfl⟩ | ⟨-, rfl⟩
      · exact absurd hst (localPodsSet_ne_name k' family family)
      · exact fun x => Iff.rfl

end Agree

/-! ## What the pair of a named port marks -/

/-- The side of a rule that a named port leaves in place: the peers of an ingress rule, the
    policy's own pods for egress. -/
def OtherSide (w : PolicyWorld) (family : IpFamily) (dir : Direction) (pol : NetworkPolicy)
    (rule : PolicyRule) (pkt : Packet) : Prop :=
  match dir with
  | .ingress => (rulePeers w family pol rule).has pkt.src = true
  | .egress => pkt.src ∈ selectedIps w family pol

/-- The packet goes to an address and port at which one of the pods exposes the name. -/
def GoesTo (family : IpFamily) (pods : List Pod) (port : PortSpec) (name : String) (pkt : Packet) :
    Prop :=
  pkt.transport.protocol = port.protocol ∧
    ∃ n, pkt.transport.dport = some n ∧ ExposedAt family pods port.protocol name n pkt.dst

/-- The match a named port keeps. -/
def otherMatch (cfg : Config) (family : IpFamily) (dir : Direction) (pol : NetworkPolicy)
    (peerMatch : List Cond) : List Cond :=
  match dir with
  | .ingress => peerMatch
  | .egress => [.matchSet false (targetSet cfg family dir pol) dir.targetSide]

/-- A MARK rule pushed for the port matches the packet. -/
def PortMarks (cfg : Config) (w : PolicyWorld) (family : IpFamily) (sets : SetView)
    (dir : Direction)
    (pol : NetworkPolicy) (idx : Nat) (rule : PolicyRule) (port : PortSpec) (pkt : Packet) : Prop :=
  ∃ peerMatch ∈ peerMatches cfg family dir pol idx (rulePeers w family pol rule),
    ∃ r ∈ (emitPort cfg family (policyChain cfg family pol) dir pol idx
        (ruleReceivers w family dir pol rule) peerMatch
        [.matchSet false (targetSet cfg family dir pol) dir.targetSide] port).rules,
      r.target = .setXmark markMatched markMatched ∧ r.conds.all (Cond.holds sets pkt) = true

section Marks

variable {cfg : Config} {w : PolicyWorld} {family : IpFamily} {sets : SetView} {dir : Direction}
  {pol : NetworkPolicy} {idx : Nat} {rule : PolicyRule} {port : PortSpec} {name : String}
  {pkt : Packet}

/-- The conditions of a named port: one list per group. -/
theorem portMatches_named {recv : List Pod} {peerMatch : List Cond}
    (hname : port.port = .name name) :
    portMatches cfg family dir pol idx recv peerMatch
      [.matchSet false (targetSet cfg family dir pol) dir.targetSide] port =
      (namedPortGroups family recv port.protocol name).zipIdx.map
        fun g => otherMatch cfg family dir pol peerMatch ++
          [.matchSet false (namedPortSet cfg family dir pol idx g.2) .dst] ++
          [.proto port.protocol, .dport g.1.1] := by
  unfold portMatches
  rw [hname]
  cases dir <;> rfl

/-- The MARK rules of a named port: one per peer match and group. -/
theorem portMarks_iff (hname : port.port = .name name) :
    PortMarks cfg w family sets dir pol idx rule port pkt ↔
      ∃ peerMatch ∈ peerMatches cfg family dir pol idx (rulePeers w family pol rule),
        (otherMatch cfg family dir pol peerMatch).all (Cond.holds sets pkt) = true ∧
        ∃ ep g, (namedPortGroups family (ruleReceivers w family dir pol rule)
            port.protocol name)[ep]? = some g ∧
          sets (namedPortSet cfg family dir pol idx ep) pkt.dst = true ∧
          pkt.transport.protocol = port.protocol ∧ pkt.transport.dport = some g.1 := by
  unfold PortMarks
  refine exists_congr fun peerMatch => and_congr_right fun _ => ?_
  rw [emitPort_rules, portMatches_named hname]
  simp only [List.mem_flatMap, List.mem_map]
  constructor
  · rintro ⟨r, ⟨conds, ⟨⟨g, ep⟩, hg, rfl⟩, hr⟩, -, hall⟩
    rw [(verdictPair_spec hr).1, List.all_append, List.all_append] at hall
    simp only [List.all_cons, List.all_nil, Bool.and_true, Bool.and_eq_true, Cond.holds,
      beq_iff_eq, Bool.bne_false] at hall
    obtain ⟨⟨hother, hset⟩, hproto, hport⟩ := hall
    exact ⟨hother, ep, g, List.mk_mem_zipIdx_iff_getElem?.mp hg, hset, hproto, hport⟩
  · rintro ⟨hother, ep, g, hg, hset, hproto, hport⟩
    refine ⟨_, ⟨_, ⟨(g, ep), List.mk_mem_zipIdx_iff_getElem?.mpr hg, rfl⟩, List.mem_cons_self⟩,
      rfl, ?_⟩
    simp only [List.all_append, List.all_cons, List.all_nil, Bool.and_true, Bool.and_eq_true,
      Cond.holds, beq_iff_eq, Bool.bne_false]
    exact ⟨⟨hother, hset⟩, hproto, hport⟩

theorem matches_of_has {r : ResolvedPeers} {x : IpAddr} (h : r.has x = true) : r.Matches := by
  simp only [ResolvedPeers.has, Bool.or_eq_true, List.contains_iff_mem] at h
  rcases h with (h | h) | h
  · exact Or.inl h
  · exact Or.inr (Or.inl (List.ne_nil_of_mem h))
  · refine Or.inr (Or.inr fun hnil => ?_)
    simp [hnil, SetBody.mem, decidingNet] at h

/-- An egress rule with a receiver has a peer that resolves. -/
theorem matches_of_receiver {pod : Pod} (h : pod ∈ ruleReceivers w family .egress pol rule) :
    (rulePeers w family pol rule).Matches := by
  by_cases hp : rule.peers = []
  · refine Or.inl ?_
    rw [rulePeers_matchAll, hp]
    rfl
  · obtain ⟨-, x, -, p, hp', hx⟩ := (mem_ruleReceivers_egress hp).mp h
    rw [receivingPods, if_neg (by simpa using hp)] at hp'
    exact Or.inr (Or.inl (List.ne_nil_of_mem (mem_ipEntries.mpr ⟨p, hp', hx⟩)))

section Planned

variable (hp : pol ∈ w.policies) (hcov : dir.covers pol = true)
  (hr : (rule, idx) ∈ (dir.rules pol).zipIdx) (hsets : SetsOf (buildPlan cfg w family).ipsets sets)
include hp hcov hr hsets

/-- Some peer match leaves the other side matching. -/
theorem otherSide_iff :
    (∃ peerMatch ∈ peerMatches cfg family dir pol idx (rulePeers w family pol rule),
      (otherMatch cfg family dir pol peerMatch).all (Cond.holds sets pkt) = true) ↔
      (rulePeers w family pol rule).Matches ∧ OtherSide w family dir pol rule pkt := by
  cases dir with
  | ingress =>
    have hpeers : hits sets pkt
      (peerMatches cfg family .ingress pol idx (rulePeers w family pol rule)) =
        (rulePeers w family pol rule).has pkt.src := hits_peerMatches <| hsets.mono fun s hs => by
      rcases mem_peerSets.mp hs with ⟨he, rfl⟩ | ⟨he, rfl⟩
      · exact pushed_mem hp hcov (.pod rule idx hr he)
      · exact pushed_mem hp hcov (.ipblock rule idx hr he)
    have hany : (∃ peerMatch ∈ peerMatches cfg family .ingress pol idx
          (rulePeers w family pol rule),
        (otherMatch cfg family .ingress pol peerMatch).all (Cond.holds sets pkt) = true) ↔
        hits sets pkt (peerMatches cfg family .ingress pol idx (rulePeers w family pol rule)) =
          true :=
      List.any_eq_true.symm
    rw [hany, hpeers]
    exact (and_iff_right_of_imp matches_of_has).symm
  | egress =>
    have htarget : sets (targetSet cfg family .egress pol) pkt.src =
        (selectedIps w family pol).contains pkt.src :=
      hsets _ (pushed_mem hp hcov .target) pkt.src
    simp only [otherMatch, List.all_cons, List.all_nil, Bool.and_true, Cond.holds, Bool.bne_false,
      Direction.targetSide, Packet.addr, htarget, List.contains_iff_mem, OtherSide]
    constructor
    · rintro ⟨peerMatch, hpm, h⟩
      exact ⟨peerMatches_ne_nil.mp (List.ne_nil_of_mem hpm), h⟩
    · rintro ⟨hm, h⟩
      have hne : peerMatches cfg family .egress pol idx (rulePeers w family pol rule) ≠ [] :=
        peerMatches_ne_nil.mpr hm
      obtain ⟨peerMatch, hpm⟩ := List.exists_mem_of_ne_nil _ hne
      exact ⟨peerMatch, hpm, h⟩

/-- With its own entries in every set, a named port marks what goes to one of the code's
    receivers. -/
theorem namedPort_marks_iff (hport : port ∈ rule.ports) (hname : port.port = .name name) :
    PortMarks cfg w family sets dir pol idx rule port pkt ↔
      OtherSide w family dir pol rule pkt ∧
        GoesTo family (ruleReceivers w family dir pol rule) port name pkt := by
  -- The set of a group holds the addresses that expose the name at its number.
  have hgroup : (rulePeers w family pol rule).Matches → ∀ ep g,
      (namedPortGroups family (ruleReceivers w family dir pol rule) port.protocol name)[ep]? =
        some g →
      (sets (namedPortSet cfg family dir pol idx ep) pkt.dst = true ↔
        ExposedAt family (ruleReceivers w family dir pol rule) port.protocol name g.1 pkt.dst) := by
    intro hm ep g hg
    have hset : sets (namedPortSet cfg family dir pol idx ep) pkt.dst =
      g.2.dedup.contains pkt.dst :=
      hsets _ (pushed_mem hp hcov (.namedPort rule idx port name ⟨hr, hport, hname, hm⟩ ep g hg)) _
    rw [hset, List.contains_iff_mem, List.mem_dedup, mem_group (List.mem_of_getElem? hg)]
  rw [portMarks_iff hname]
  constructor
  · rintro ⟨peerMatch, hpm, hother, ep, g, hg, hset, hproto, hdport⟩
    obtain ⟨hm, hside⟩ := (otherSide_iff hp hcov hr hsets).mp ⟨peerMatch, hpm, hother⟩
    exact ⟨hside, hproto, g.1, hdport, (hgroup hm ep g hg).mp hset⟩
  · rintro ⟨hside, hproto, n, hdport, hexp⟩
    have hm : (rulePeers w family pol rule).Matches := by
      cases dir with
      | ingress => exact matches_of_has hside
      | egress =>
        obtain ⟨pod, hpod, -⟩ := hexp
        exact matches_of_receiver hpod
    obtain ⟨peerMatch, hpm, hother⟩ := (otherSide_iff hp hcov hr hsets).mpr ⟨hm, hside⟩
    have hn : n ∈ portNumbers (ruleReceivers w family dir pol rule) port.protocol name := by
      obtain ⟨pod, hpod, -, hcp⟩ := hexp
      exact mem_portNumbers.mpr ⟨pod, hpod, hcp⟩
    obtain ⟨ep, hep⟩ := List.mem_iff_getElem?.mp hn
    obtain ⟨ips, hg⟩ := group_of_number family hep
    exact ⟨peerMatch, hpm, hother, ep, (n, ips), hg, (hgroup hm ep _ hg).mpr hexp, hproto, hdport⟩

end Planned

/-- Sets that agree are all seen with their own entries once they are applied in order. -/
theorem SetsAgree.setsOf (h : SetsAgree cfg w family) {k k' : Kernel}
    (happly : k'.sets = applySets (buildPlan cfg w family).ipsets k.sets) :
    SetsOf (buildPlan cfg w family).ipsets k'.setView := by
  intro s hs x
  obtain ⟨u, hu, hfind, hname⟩ := exists_find_planned hs
  rw [Kernel.setView, happly, applySets_planned k.sets hs, hfind]
  exact (h u hu s hs hname).mem_eq x

end Marks

/-! ## When named ports are exact -/

/-- Once the sets are applied in order, whatever was there before, the named ports of a rule
    mark exactly the packets that go to a receiving pod at a port it exposes under the name. -/
def NamedPortsExact (cfg : Config) (w : PolicyWorld) (family : IpFamily) : Prop :=
  ∀ k k' : Kernel, k'.sets = applySets (buildPlan cfg w family).ipsets k.sets →
    ∀ pol ∈ w.policies, ∀ dir : Direction, dir.covers pol = true →
    ∀ rule idx, (rule, idx) ∈ (dir.rules pol).zipIdx →
    ∀ port ∈ rule.ports, ∀ name, port.port = .name name → ∀ pkt : Packet, pkt.family = family →
      (PortMarks cfg w family k'.setView dir pol idx rule port pkt ↔
        OtherSide w family dir pol rule pkt ∧
          GoesTo family (receivingPods w dir pol rule) port name pkt)

/-- The pods that share an address with the selected peers of an egress rule expose its named
    ports at no other addresses than these peers do. A policy without pods, or a protocol
    without ports, matches nothing and does not count. -/
def PeersOwnAddresses (w : PolicyWorld) (family : IpFamily) : Prop :=
  ∀ pol ∈ w.policies, Direction.egress.covers pol = true → selectedIps w family pol ≠ [] →
    ∀ rule ∈ pol.egress, rule.peers ≠ [] → ∀ port ∈ rule.ports, ∀ name, port.port = .name name →
    ∀ pod ∈ w.pods, SharesAddress family pod (receivingPods w .egress pol rule) →
    ∀ cp ∈ pod.containerPorts, cp.name = some name → cp.protocol = port.protocol →
    (∃ t : Transport, t.protocol = port.protocol ∧ t.dport = some cp.port) →
    ∀ d ∈ podFamilyIps pod family,
      ExposedAt family (receivingPods w .egress pol rule) port.protocol name cp.port d

section Exactness

variable {cfg : Config} {w : PolicyWorld} {family : IpFamily}

/-- Whatever the code's receivers expose to a packet of the policy, the receiving pods do. -/
theorem PeersOwnAddresses.goesTo (h : PeersOwnAddresses w family) {dir : Direction}
    {pol : NetworkPolicy} (hp : pol ∈ w.policies) (hcov : dir.covers pol = true)
    {rule : PolicyRule} (hr : rule ∈ dir.rules pol) {port : PortSpec} (hport : port ∈ rule.ports)
    {name : String} (hname : port.port = .name name) {pkt : Packet}
    (hside : OtherSide w family dir pol rule pkt)
    (hgo : GoesTo family (ruleReceivers w family dir pol rule) port name pkt) :
    GoesTo family (receivingPods w dir pol rule) port name pkt := by
  cases dir with
  | ingress => exact hgo
  | egress =>
    by_cases hpeers : rule.peers = []
    · rwa [ruleReceivers_omitted hpeers] at hgo
    obtain ⟨hproto, n, hdport, pod, hpod, hd, cp, hcp, hcn, hcproto, rfl⟩ := hgo
    obtain ⟨hpod, hshare⟩ := (mem_ruleReceivers_egress hpeers).mp hpod
    exact ⟨hproto, cp.port, hdport, h pol hp hcov (List.ne_nil_of_mem hside) rule hr hpeers port
      hport name hname pod hpod hshare cp hcp hcn hcproto ⟨pkt.transport, hproto, hdport⟩ _ hd⟩

theorem namedPortsExact_iff_of_agree (hagree : SetsAgree cfg w family) :
    NamedPortsExact cfg w family ↔ PeersOwnAddresses w family := by
  constructor
  · intro h pol hp hcov hsel rule hr hpeers port hport name hname pod hpod hshare cp hcp hcn hcproto
      ht d hd
    obtain ⟨t, htproto, htport⟩ := ht
    obtain ⟨src, hsrc⟩ := List.exists_mem_of_ne_nil _ hsel
    obtain ⟨idx, hidx⟩ := List.mem_iff_getElem?.mp hr
    have hr' : (rule, idx) ∈ (Direction.egress.rules pol).zipIdx :=
      List.mk_mem_zipIdx_iff_getElem?.mpr hidx
    have hfsrc : src.family = family := by
      obtain ⟨q, -, hq⟩ := List.mem_flatMap.mp hsrc
      exact (mem_podFamilyIps.mp hq).2
    have hfd : d.family = family := (mem_podFamilyIps.mp hd).2
    -- The packet from one of the policy's pods to the address in question.
    let pkt : Packet := { src := src, dst := d, transport := t, sameFamily := hfsrc.trans hfd.symm }
    let k' : Kernel := { Kernel.clean with
      sets := applySets (buildPlan cfg w family).ipsets Kernel.clean.sets }
    have hmark : PortMarks cfg w family k'.setView .egress pol idx rule port pkt := by
      refine (namedPort_marks_iff hp hcov hr' (hagree.setsOf rfl) hport hname).mpr ⟨hsrc, htproto,
        cp.port, htport, pod, ?_, hd, cp, hcp, hcn, hcproto, rfl⟩
      exact (mem_ruleReceivers_egress hpeers).mpr ⟨hpod, hshare⟩
    obtain ⟨-, -, n, hn, hexp⟩ :=
      (h Kernel.clean k' rfl pol hp .egress hcov rule idx hr' port hport name hname pkt
        hfsrc).mp hmark
    obtain rfl : cp.port = n := Option.some.inj (htport.symm.trans hn)
    exact hexp
  · intro h k k' happly pol hp dir hcov rule idx hr port hport name hname pkt hfam
    rw [namedPort_marks_iff hp hcov hr (hagree.setsOf happly) hport hname]
    constructor
    · rintro ⟨hside, hgo⟩
      exact ⟨hside, h.goesTo hp hcov (List.fst_mem_of_mem_zipIdx hr) hport hname hside hgo⟩
    · rintro ⟨hside, hproto, n, hn, hexp⟩
      exact ⟨hside, hproto, n, hn, hexp.of_receiving⟩

/-- Sets of one name agree and named ports are exact, exactly when names agree and no foreign pod
    answers for a selected peer. -/
theorem namedPorts_exact_iff (hinj : Function.Injective cfg.hash16) (w : PolicyWorld)
    (family : IpFamily) :
    (SetsAgree cfg w family ∧ NamedPortsExact cfg w family) ↔
      NamesAgree w family ∧ PeersOwnAddresses w family := by
  constructor
  · rintro ⟨hagree, hexact⟩
    exact ⟨(setsAgree_iff hinj).mp hagree, (namedPortsExact_iff_of_agree hagree).mp hexact⟩
  · rintro ⟨hnames, hown⟩
    have hagree : SetsAgree cfg w family := (setsAgree_iff hinj).mpr hnames
    exact ⟨hagree, (namedPortsExact_iff_of_agree hagree).mpr hown⟩

end Exactness

/-- `front` with named TCP ports in place of port 80. -/
def frontNamed (names : List String) : NetworkPolicy :=
  { front with ingress := [⟨[.selector none (some ⟨[("app", "cart")], []⟩)],
      names.map fun name => ⟨"tcp", .name name⟩⟩] }

/-- `pay`, serving on 8080. -/
def payServing : Pod := { pay with containerPorts := [⟨some "serve", "tcp", 8080⟩] }

/-- `pay`, serving on 8080 and with metrics on 9090. -/
def payBoth : Pod :=
  { pay with containerPorts := [⟨some "serve", "tcp", 8080⟩, ⟨some "metrics", "tcp", 9090⟩] }

/-- `cart` may reach the ports of `pay` by their names. -/
def fetch : NetworkPolicy where
  ns := "shop"
  name := "fetch"
  podSelector := ⟨[("app", "cart")], []⟩
  policyTypes := ⟨false, true⟩
  ingress := []
  egress := [⟨[.selector none (some ⟨[("app", "pay")], []⟩)],
    [⟨"tcp", .name "serve"⟩, ⟨"tcp", .name "metrics"⟩]⟩]

def servingWorld : PolicyWorld :=
  { policies := [frontNamed ["serve", "metrics"], fetch], pods := [cart, payBoth] }

/-- Its named ports are received by `pay`. -/
theorem servingWorld_entry {pol : NetworkPolicy} (hp : pol ∈ servingWorld.policies)
    {dir : Direction} (hcov : dir.covers pol = true) {idx : Nat} {rule : PolicyRule}
    {port : PortSpec} {name : String}
    (h : NamedEntry servingWorld .V4 dir pol idx rule port name) :
    ruleReceivers servingWorld .V4 dir pol rule = [payBoth] ∧ port.protocol = "tcp" ∧
      (name = "serve" ∨ name = "metrics") := by
  have hrule : rule ∈ dir.rules pol := List.fst_mem_of_mem_zipIdx h.rule_mem
  have hport := h.port_mem
  have hname := h.port_name
  have hports : ∀ port ∈ [(⟨"tcp", .name "serve"⟩ : PortSpec), ⟨"tcp", .name "metrics"⟩],
      port.port = .name name → port.protocol = "tcp" ∧ (name = "serve" ∨ name = "metrics") := by
    simp only [List.forall_mem_cons, PortRef.name.injEq, true_and, List.not_mem_nil,
      false_imp_iff, implies_true, and_true]
    exact ⟨fun h => .inl h.symm, fun h => .inr h.symm⟩
  have hpol : pol = frontNamed ["serve", "metrics"] ∨ pol = fetch := by
    simpa [servingWorld] using hp
  obtain rfl | rfl := hpol
  · obtain rfl : dir = .ingress := by
      cases dir with
      | ingress => rfl
      | egress => exact absurd hcov (by decide)
    obtain rfl := List.mem_singleton.mp hrule
    exact ⟨by decide, hports port hport hname⟩
  · obtain rfl : dir = .egress := by
      cases dir with
      | ingress => exact absurd hcov (by decide)
      | egress => rfl
    obtain rfl := List.mem_singleton.mp hrule
    exact ⟨by decide, hports port hport hname⟩

/-- Both names are exposed at the addresses of `pay`. -/
theorem payBoth_exposes {name : String} (hname : name = "serve" ∨ name = "metrics") {ep : Nat}
    {n : UInt16} (hep : (portNumbers [payBoth] "tcp" name)[ep]? = some n) (d : IpAddr) :
    ExposedAt .V4 [payBoth] "tcp" name n d ↔ d ∈ podFamilyIps payBoth .V4 := by
  constructor
  · intro ⟨pod, hpod, hd, _⟩
    obtain rfl := List.mem_singleton.mp hpod
    exact hd
  · intro hd
    obtain rfl | rfl := hname
    · have hn : n = 8080 := List.mem_singleton.mp (List.mem_of_getElem? hep)
      exact ⟨payBoth, List.mem_cons_self, hd, _, List.mem_cons_self, rfl, rfl, hn.symm⟩
    · have hn : n = 9090 := List.mem_singleton.mp (List.mem_of_getElem? hep)
      exact ⟨payBoth, List.mem_cons_self, hd, _, List.mem_cons_of_mem _ List.mem_cons_self, rfl,
        rfl, hn.symm⟩

theorem servingWorld_same {dir : Direction} {p q : NetworkPolicy}
    (h : ShareNames servingWorld dir p q) : p = q := by
  have hstem := h.stem
  have hcases : ∀ pol ∈ servingWorld.policies,
      pol = frontNamed ["serve", "metrics"] ∨ pol = fetch := by
    intro pol hp
    simpa [servingWorld] using hp
  obtain rfl | rfl := hcases p h.left <;> obtain rfl | rfl := hcases q h.right
  · rfl
  · exact absurd hstem (by decide)
  · exact absurd hstem (by decide)
  · rfl

theorem servingWorld_agree : NamesAgree servingWorld .V4 where
  targets dir p q hpq x := by rw [servingWorld_same hpq]
  pods dir p q hpq idx rule rule' hr hr' _ _ x := by
    obtain rfl := servingWorld_same hpq
    rw [List.mk_mem_zipIdx_iff_getElem?] at hr hr'
    rw [Option.some.inj (hr.symm.trans hr')]
  blocks dir p q hpq idx rule rule' hr hr' _ _ := by
    obtain rfl := servingWorld_same hpq
    rw [List.mk_mem_zipIdx_iff_getElem?] at hr hr'
    rw [Option.some.inj (hr.symm.trans hr')]
  named dir p q hpq idx rule port name idx' rule' port' name' hn hn' ep ep' n n' hep hep' _ d := by
    obtain ⟨hrecv, hport, hname⟩ := servingWorld_entry hpq.left hpq.covers_left hn
    obtain ⟨hrecv', hport', hname'⟩ := servingWorld_entry hpq.right hpq.covers_right hn'
    rw [hrecv, hport] at hep ⊢
    rw [hrecv', hport'] at hep' ⊢
    rw [payBoth_exposes hname hep, payBoth_exposes hname' hep']

theorem servingWorld_own : PeersOwnAddresses servingWorld .V4 := by
  intro pol hp hcov _ rule hrule _ port _ name _ pod hpod _ cp hcp hname hproto _ d hd
  have hpol : pol = frontNamed ["serve", "metrics"] ∨ pol = fetch := by
    simpa [servingWorld] using hp
  obtain rfl | rfl := hpol
  · exact absurd hcov (by decide)
  · obtain rfl := List.mem_singleton.mp hrule
    have hpeers : payBoth ∈ receivingPods servingWorld .egress fetch
        ⟨[.selector none (some ⟨[("app", "pay")], []⟩)],
          [⟨"tcp", .name "serve"⟩, ⟨"tcp", .name "metrics"⟩]⟩ := by decide
    obtain rfl | hpod := List.mem_cons.mp hpod
    · cases hcp
    · obtain rfl := List.mem_singleton.mp hpod
      exact ⟨payBoth, hpeers, hd, cp, hcp, hname, hproto, rfl⟩

/-- The named ports of `servingWorld` admit exactly what goes to `pay` on 8080 and 9090. -/
theorem servingWorld_exact :
    SetsAgree tenantConfig servingWorld .V4 ∧ NamedPortsExact tenantConfig servingWorld .V4 :=
  (namedPorts_exact_iff injectiveHash_injective servingWorld .V4).mpr
    ⟨servingWorld_agree, servingWorld_own⟩

def metricsIp : IpAddr := .ofOctets 10 0 0 3

/-- A second pod behind `front`, with metrics on 9090. -/
def payMetrics : Pod :=
  { pay with
    name := "pay-metrics"
    ips := [metricsIp]
    containerPorts := [⟨some "metrics", "tcp", 9090⟩] }

def metricsWorld : PolicyWorld :=
  { policies := [frontNamed ["serve", "metrics"]], pods := [cart, payServing, payMetrics] }

/-- The kernel after the sets of `metricsWorld` were applied to a clean one. -/
def metricsKernel : Kernel :=
  { Kernel.clean with
    sets := applySets (buildPlan tenantConfig metricsWorld .V4).ipsets Kernel.clean.sets }

/-- Two named ports of one rule share the set of group 0: the second overwrites the first, and
    `pay` is closed on the port it serves under the first name. -/
theorem second_name_overwrites :
    Function.Injective tenantConfig.hash16 ∧ ¬SetsAgree tenantConfig metricsWorld .V4 ∧
      ¬NamedPortsExact tenantConfig metricsWorld .V4 := by
  have hset : ∀ ip ∈ [payIp, metricsIp],
      (⟨namedPortSet tenantConfig .V4 .ingress front 0 0, .V4, .hashIp [ip]⟩ : IpsetPlan) ∈
        (buildPlan tenantConfig metricsWorld .V4).ipsets := by decide +kernel
  refine ⟨injectiveHash_injective, fun h => ?_, fun h => ?_⟩
  · have hsame := h _ (hset payIp (by decide)) _ (hset metricsIp (by decide)) rfl payIp
    exact absurd (hsame.mp (by decide)) (by decide)
  · have hmark := h Kernel.clean metricsKernel rfl (frontNamed ["serve", "metrics"]) (by decide)
      .ingress rfl _ 0 (List.mem_singleton_self _)
        ⟨"tcp", .name "serve"⟩ List.mem_cons_self "serve" rfl
      (cartToPay 8080) rfl
    have hgo : GoesTo .V4 [payServing, payMetrics] ⟨"tcp", .name "serve"⟩ "serve"
      (cartToPay 8080) :=
      ⟨rfl, 8080, rfl, payServing, List.mem_cons_self, by decide, _, List.mem_cons_self,
        rfl, rfl, rfl⟩
    have hside : (rulePeers metricsWorld .V4 (frontNamed ["serve", "metrics"])
        ⟨[.selector none (some ⟨[("app", "cart")], []⟩)], []⟩).has cartIp = true := by decide
    exact absurd (hmark.mpr ⟨hside, hgo⟩) (by unfold PortMarks; decide +kernel)

end KubeRouter.Netpol
