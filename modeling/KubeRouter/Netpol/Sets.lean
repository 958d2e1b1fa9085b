/-
  The sets of a plan, exactly: which set every direction of every policy pushes, under which name
  and with which entries.

  Proved:
  * `mem_directionPlan_ipsets`, `mem_buildPlan_ipsets`: a plan holds the pushed sets and the
    local-pods set, and no other.
-/
import KubeRouter.Netpol.Isolation

namespace KubeRouter.Netpol

/-! ## What a rule resolves to -/

section Resolved

variable (w : PolicyWorld) (family : IpFamily)

/-- `resolve_peers` of a rule of the policy. -/
def rulePeers (pol : NetworkPolicy) (rule : PolicyRule) : ResolvedPeers :=
  resolvePeers rule.peers w.pods w.namespaces pol.ns family

/-- The receivers the code resolves the ports of a rule against. -/
def ruleReceivers (dir : Direction) (pol : NetworkPolicy) (rule : PolicyRule) : List Pod :=
  receivers w family dir pol (rulePeers w family pol rule)

variable {w family} {pol : NetworkPolicy} {rule : PolicyRule}

theorem rulePeers_matchAll : (rulePeers w family pol rule).matchAll = rule.peers.isEmpty := by
  unfold rulePeers resolvePeers
  split
  · next h => exact h.symm
  · next h => exact (Bool.eq_false_iff.mpr h).symm

/-- A rule without peers resolves to no entry at all. -/
theorem rulePeers_entries (h : (rulePeers w family pol rule).matchAll = true) :
    (rulePeers w family pol rule).ipEntries = [] ∧
      (rulePeers w family pol rule).netEntries = [] := by
  rw [rulePeers_matchAll] at h
  simp [rulePeers, resolvePeers, h]

end Resolved

/-! ## What a direction pushes -/

/-- Some peer of the rule resolves to something, or there is none to resolve. -/
def ResolvedPeers.Matches (r : ResolvedPeers) : Prop :=
  r.matchAll = true ∨ r.ipEntries ≠ [] ∨ r.netEntries ≠ []

/-- A port called `name` of a rule that can match. -/
structure NamedEntry (w : PolicyWorld) (family : IpFamily) (dir : Direction) (pol : NetworkPolicy)
    (idx : Nat) (rule : PolicyRule) (port : PortSpec) (name : String) : Prop where
  rule_mem : (rule, idx) ∈ (dir.rules pol).zipIdx
  port_mem : port ∈ rule.ports
  port_name : port.port = .name name
  matchable : (rulePeers w family pol rule).Matches

/-- The sets a direction of a policy pushes, with their entries. -/
inductive Pushed (w : PolicyWorld) (family : IpFamily) (dir : Direction) (pol : NetworkPolicy) :
    SetKind → SetBody → Prop
  | target : Pushed w family dir pol (.target dir) (.hashIp (selectedIps w family pol))
  | pod (rule : PolicyRule) (idx : Nat) (hr : (rule, idx) ∈ (dir.rules pol).zipIdx)
      (he : (rulePeers w family pol rule).ipEntries ≠ []) :
      Pushed w family dir pol (.pod dir idx) (.hashIp (rulePeers w family pol rule).ipEntries)
  | ipblock (rule : PolicyRule) (idx : Nat) (hr : (rule, idx) ∈ (dir.rules pol).zipIdx)
      (he : (rulePeers w family pol rule).netEntries ≠ []) :
      Pushed w family dir pol (.ipblock dir idx) (.hashNet (rulePeers w family pol rule).netEntries)
  | namedPort (rule : PolicyRule) (idx : Nat) (port : PortSpec) (name : String)
      (h : NamedEntry w family dir pol idx rule port name) (ep : Nat) (g : UInt16 × List IpAddr)
      (hg : (namedPortGroups family (ruleReceivers w family dir pol rule) port.protocol name)[ep]? =
        some g) :
      Pushed w family dir pol (.namedPort dir idx ep) (.hashIp g.2.dedup)

section Exact

variable {cfg : Config} {w : PolicyWorld} {family : IpFamily} {dir : Direction}
  {pol : NetworkPolicy} {idx : Nat} {rule : PolicyRule}

theorem peerMatches_ne_nil {r : ResolvedPeers} :
    peerMatches cfg family dir pol idx r ≠ [] ↔ r.Matches := by
  unfold peerMatches ResolvedPeers.Matches
  cases r.matchAll <;> cases r.ipEntries <;> cases r.netEntries <;> simp

theorem mem_peerSets {s : IpsetPlan} :
    s ∈ peerSets cfg family dir pol idx (rulePeers w family pol rule) ↔
      ((rulePeers w family pol rule).ipEntries ≠ [] ∧ s = ⟨podSet cfg family dir pol idx, family,
        .hashIp (rulePeers w family pol rule).ipEntries⟩) ∨
      ((rulePeers w family pol rule).netEntries ≠ [] ∧
        s = ⟨ipblockSet cfg family dir pol idx, family,
        .hashNet (rulePeers w family pol rule).netEntries⟩) := by
  unfold peerSets
  cases hall : (rulePeers w family pol rule).matchAll with
  | true =>
    obtain ⟨hip, hnet⟩ := rulePeers_entries hall
    simp [hip, hnet]
  | false =>
    cases hip : (rulePeers w family pol rule).ipEntries <;>
      cases hnet : (rulePeers w family pol rule).netEntries <;> simp

theorem mem_emitPort_ipsets {pchain : String} {recv : List Pod} {peerMatch targetMatch : List Cond}
    {port : PortSpec} {s : IpsetPlan} :
    s ∈ (emitPort cfg family pchain dir pol idx recv peerMatch targetMatch port).ipsets ↔
      ∃ name, port.port = .name name ∧ ∃ ep g,
        (namedPortGroups family recv port.protocol name)[ep]? = some g ∧
        s = ⟨namedPortSet cfg family dir pol idx ep, family, .hashIp g.2.dedup⟩ := by
  unfold emitPort
  cases hp : port.port with
  | all => simp [pushPolicyVerdict]
  | number n => simp [pushPolicyVerdict]
  | name name =>
    simp only [FirewallPlan.collect, FirewallPlan.append_ipsets, pushPolicyVerdict, List.append_nil,
      List.mem_flatMap, List.mem_singleton, PortRef.name.injEq, exists_eq_left']
    constructor
    · rintro ⟨⟨g, ep⟩, hg, rfl⟩
      exact ⟨ep, g, List.mk_mem_zipIdx_iff_getElem?.mp hg, rfl⟩
    · rintro ⟨ep, g, hg, rfl⟩
      exact ⟨(g, ep), List.mk_mem_zipIdx_iff_getElem?.mpr hg, rfl⟩

theorem mem_emitRule_ipsets {pchain tset : String} {s : IpsetPlan} :
    s ∈ (emitRule cfg w family pchain dir tset pol idx rule).ipsets ↔
      s ∈ peerSets cfg family dir pol idx (rulePeers w family pol rule) ∨
      ((rulePeers w family pol rule).Matches ∧ ∃ port ∈ rule.ports, ∃ name,
        port.port = .name name ∧ ∃ ep g,
          (namedPortGroups family (ruleReceivers w family dir pol rule) port.protocol name)[ep]? =
            some g ∧
          s = ⟨namedPortSet cfg family dir pol idx ep, family, .hashIp g.2.dedup⟩) := by
  simp only [emitRule, FirewallPlan.append_ipsets, FirewallPlan.collect, List.mem_append,
    List.mem_flatMap]
  refine or_congr Iff.rfl ?_
  constructor
  · rintro ⟨peerMatch, hpm, h⟩
    split at h
    · exact absurd h List.not_mem_nil
    · obtain ⟨port, hport, h⟩ := List.mem_flatMap.mp h
      exact ⟨peerMatches_ne_nil.mp (List.ne_nil_of_mem hpm), port, hport, mem_emitPort_ipsets.mp h⟩
  · rintro ⟨hm, port, hport, h⟩
    obtain ⟨peerMatch, hpm⟩ := List.exists_mem_of_ne_nil _ (peerMatches_ne_nil.mpr hm)
    refine ⟨peerMatch, hpm, ?_⟩
    rw [if_neg (by simpa using List.ne_nil_of_mem hport)]
    exact List.mem_flatMap.mpr ⟨port, hport, mem_emitPort_ipsets.mpr h⟩

theorem mem_directionPlan_ipsets {s : IpsetPlan} :
    s ∈ (directionPlan cfg w family dir pol).ipsets ↔ dir.covers pol = true ∧
      ∃ k body, Pushed w family dir pol k body ∧ s = ⟨k.name cfg family pol, family, body⟩ := by
  unfold directionPlan
  by_cases hcov : dir.covers pol = true
  · rw [if_pos hcov]
    simp only [FirewallPlan.append_ipsets, emitPolicyRules, FirewallPlan.collect, List.mem_append,
      List.mem_singleton, List.mem_flatMap, mem_emitRule_ipsets, mem_peerSets, hcov, true_and]
    constructor
    · rintro (rfl | ⟨⟨rule, idx⟩, hr,
        (⟨he, rfl⟩ | ⟨he, rfl⟩) | ⟨hm, port, hport, name, hn, ep, g, hg, rfl⟩⟩)
      · exact ⟨_, _, .target, rfl⟩
      · exact ⟨_, _, .pod rule idx hr he, rfl⟩
      · exact ⟨_, _, .ipblock rule idx hr he, rfl⟩
      · exact ⟨_, _, .namedPort rule idx port name ⟨hr, hport, hn, hm⟩ ep g hg, rfl⟩
    · rintro ⟨k, body, h, rfl⟩
      cases h with
      | target => exact Or.inl rfl
      | pod rule idx hr he => exact Or.inr ⟨(rule, idx), hr, Or.inl (Or.inl ⟨he, rfl⟩)⟩
      | ipblock rule idx hr he => exact Or.inr ⟨(rule, idx), hr, Or.inl (Or.inr ⟨he, rfl⟩)⟩
      | namedPort rule idx port name h ep g hg =>
        exact Or.inr ⟨(rule, idx), h.rule_mem,
          Or.inr ⟨h.matchable, port, h.port_mem, name, h.port_name, ep, g, hg, rfl⟩⟩
  · simp [hcov]

theorem mem_buildPlan_ipsets {s : IpsetPlan} : s ∈ (buildPlan cfg w family).ipsets ↔
    (∃ pol ∈ w.policies, ∃ dir : Direction, dir.covers pol = true ∧
      ∃ k body, Pushed w family dir pol k body ∧ s = ⟨k.name cfg family pol, family, body⟩) ∨
    (cfg.defaultDeny = true ∧
      s = ⟨localPodsSet family, family, .hashIp (programmedIps cfg w family)⟩) := by
  constructor
  · intro h
    rcases mem_ipsets h with ⟨pol, hp, -, dir, h⟩ | h
    · exact Or.inl ⟨pol, hp, dir, mem_directionPlan_ipsets.mp h⟩
    · exact Or.inr h
  · rintro (⟨pol, hp, dir, hcov, h⟩ | ⟨hd, rfl⟩)
    · refine policy_ipset_mem hp (active_of_covers hcov) ?_
      have hs := mem_directionPlan_ipsets.mpr ⟨hcov, h⟩
      cases dir with
      | ingress => exact List.mem_append_left _ (List.mem_append_right _ hs)
      | egress => exact List.mem_append_right _ hs
    · exact localPods_planned hd

theorem pushed_mem (hp : pol ∈ w.policies) (hcov : dir.covers pol = true) {k : SetKind}
    {body : SetBody} (h : Pushed w family dir pol k body) :
    (⟨k.name cfg family pol, family, body⟩ : IpsetPlan) ∈ (buildPlan cfg w family).ipsets :=
  mem_buildPlan_ipsets.mpr (Or.inl ⟨pol, hp, dir, hcov, k, body, h, rfl⟩)

end Exact

end KubeRouter.Netpol
