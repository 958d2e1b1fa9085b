/-
  Pods a plan does not depend on.

  A pod matters to a plan by its addresses (target sets, peer sets, a chain of its own) and by
  the numbers it gives a named port. The number alone matters too: a receiver without addresses
  adds an empty set to a named port and moves the sets of the higher numbers one position on,
  which shows as soon as the names of the sets run together.

  Proved:
  * `traverse_congr`: two plans with the same pod chains whose policy chains match alike decide
    alike.
  * `idle_traverse`: leaving out idle pods changes no verdict, unless they move a named port
    whose names do not agree.
-/
import KubeRouter.Lib.Thins
import KubeRouter.Netpol.NamedPort

namespace KubeRouter.Netpol

open Filter (Mark evalRules evalChain)

/-- The world with other pods. -/
def withPods (w : PolicyWorld) (pods : List Pod) : PolicyWorld := { w with pods := pods }

/-- The chain of a pod does not depend on other pods. -/
theorem podChainRules_withPods (cfg : Config) (w : PolicyWorld) (live : List Pod)
    (family : IpFamily) (pod : Pod) :
    podChainRules cfg (withPods w live) family pod = podChainRules cfg w family pod := by
  rfl

/-! ## Plans that differ in their policy chains only -/

section Traversal

variable {cfg : Config} {w : PolicyWorld} {live : List Pod} {family : IpFamily}
  {sets sets' : SetView} {pkt : Packet}

/-- A view of a set reads the sets of its name. -/
theorem planView_eq_head (ipsets : List IpsetPlan) (N : String) (x : IpAddr) :
    planView ipsets N x = ((ipsets.filter (·.name == N)).reverse.head?).any (·.body.mem x) := by
  rw [planView, ← List.filter_reverse, List.head?_filter]

theorem holds_congr {k : Cond} (h : ∀ name, k.setName = some name → sets' name = sets name) :
    Cond.holds sets' pkt k = Cond.holds sets pkt k := by
  cases k with
  | matchSet neg set side => simp only [Cond.holds, h set rfl]
  | _ => exact holds_of_noSet rfl _ _

theorem all_congr {α : Type} {p q : α → Bool} {xs : List α} (h : ∀ x ∈ xs, p x = q x) :
    xs.all p = xs.all q := by
  rw [Bool.eq_iff_iff, List.all_eq_true, List.all_eq_true]
  exact forall₂_congr fun x hx => by rw [h x hx]

theorem any_congr {α : Type} {p q : α → Bool} {xs : List α} (h : ∀ x ∈ xs, p x = q x) :
    xs.any p = xs.any q := by
  rw [Bool.eq_iff_iff, List.any_eq_true, List.any_eq_true]
  exact exists_congr fun x => and_congr_right fun hx => by rw [h x hx]

theorem hits_congr {ms : List (List Cond)}
    (h : ∀ conds ∈ ms, ∀ k ∈ conds, Cond.holds sets' pkt k = Cond.holds sets pkt k) :
    hits sets' pkt ms = hits sets pkt ms :=
  any_congr fun conds hc => all_congr (h conds hc)

/-- Rules that read no set but that of the local pods. -/
theorem evalRules_rest (hlocal : sets' (localPodsSet family) = sets (localPodsSet family))
    {rs : List Rule}
    (hrs : ∀ r ∈ rs, (∀ k ∈ r.conds, k.setName = none) ∨ r ∈ tailRules cfg family)
    (call : String → Mark → Filter.Flow) (m : Mark) :
    evalRules (Cond.holds sets' pkt) call rs m = evalRules (Cond.holds sets pkt) call rs m := by
  refine Filter.evalRules_congr rs (fun r hr k hk => ?_) (fun _ _ _ _ _ => rfl) m
  refine holds_congr fun name hn => ?_
  rcases hrs r hr with h | h
  · rw [h k hk] at hn
    cases hn
  · rw [(tailRules_set h hk hn).2, hlocal]

theorem fixed_noSet {c : String} {r : Rule} (hr : r ∈ chainOf (commonRules family) c ++
    chainOf defaultRules c ++ chainOf (serviceReturns cfg family) c) :
    ∀ k ∈ r.conds, k.setName = none := by
  simp only [List.mem_append, chainOf, List.mem_filter] at hr
  rcases hr with (h | h) | h
  · exact @fixed_rule_noSet cfg family r (Or.inl h.1)
  · exact @fixed_rule_noSet cfg family r (Or.inr (Or.inl h.1))
  · exact fixed_rule_noSet (Or.inr (Or.inr h.1))

theorem pods_noSet {c : String} {pods : List Pod} {r : Rule} (hr : r ∈ pods.flatMap (fun pod =>
    chainOf (podChainRules cfg w family pod) c ++
      (podFamilyIps pod family).flatMap fun ip => chainOf (interceptRules cfg pod ip) c)) :
    ∀ k ∈ r.conds, k.setName = none := by
  obtain ⟨pod, -, h⟩ := List.mem_flatMap.mp hr
  rcases List.mem_append.mp h with h | h
  · exact podChainRules_noSet (List.mem_filter.mp h).1
  · obtain ⟨ip, -, h⟩ := List.mem_flatMap.mp h
    exact interceptRules_noSet (List.mem_filter.mp h).1

theorem tailJumps_noSet {r : Rule} (h : r ∈ tailJumps) : ∀ k ∈ r.conds, k.setName = none := by
  rcases mem_tailJumps.mp h with h | h | h <;> subst h <;> simp [tailJump]

theorem tail_noSet {c : String} {r : Rule}
    (hr : r ∈ chainOf (tailRules cfg family) c ++ chainOf tailJumps c) :
    (∀ k ∈ r.conds, k.setName = none) ∨ r ∈ tailRules cfg family := by
  rw [chainOf, chainOf] at hr
  rcases List.mem_append.mp hr with h | h
  · exact Or.inr (List.mem_filter.mp h).1
  · exact Or.inl (tailJumps_noSet (List.mem_filter.mp h).1)

theorem traverse_congr (hpods : chainPods cfg (withPods w live) family = chainPods cfg w family)
    (hhit : ∀ c, chainHit cfg (withPods w live) family sets' pkt c =
      chainHit cfg w family sets pkt c)
    (hlocal : sets' (localPodsSet family) = sets (localPodsSet family)) (n : Nat) (c : String) :
    traverse (buildPlan cfg (withPods w live) family).rules sets' n c pkt =
      traverse (buildPlan cfg w family).rules sets n c pkt := by
  unfold traverse
  generalize pkt.mark = m
  induction n generalizing c m with
  | zero => rw [evalChain, evalChain]
  | succ n ih =>
    have hcall : evalChain (Cond.holds sets' pkt)
        (chainOf (buildPlan cfg (withPods w live) family).rules) n =
        evalChain (Cond.holds sets pkt) (chainOf (buildPlan cfg w family).rules) n :=
      funext fun c => funext fun m => ih c m
    rw [evalChain, evalChain, hcall, chainOf_buildPlan, chainOf_buildPlan, hpods]
    simp only [podChainRules_withPods]
    generalize evalChain (Cond.holds sets pkt) (chainOf (buildPlan cfg w family).rules) n = call
    refine congrArg Filter.Flow.leave ?_
    refine Filter.evalRules_append_congr (fun m => ?_) (fun m => ?_) m
    · refine Filter.evalRules_append_congr (fun m => ?_) (fun m => ?_) m
      · refine Filter.evalRules_append_congr (fun m => ?_) (fun m => ?_) m
        · exact @evalRules_rest cfg family sets sets' pkt hlocal _
            (fun r hr => Or.inl (fixed_noSet hr)) call m
        · rw [evalRules_policyChain, evalRules_policyChain, hhit]
      · exact @evalRules_rest cfg family sets sets' pkt hlocal _
          (fun r hr => Or.inl (pods_noSet hr)) call m
    · exact evalRules_rest hlocal (fun r hr => tail_noSet hr) call m

end Traversal

/-! ## Idle pods -/

/-- The pod alone among the receivers of a rule. -/
def Receives (w : PolicyWorld) (family : IpFamily) (dir : Direction) (pol : NetworkPolicy)
    (rule : PolicyRule) (pod : Pod) : Prop :=
  pod ∈ receivers (withPods w [pod]) family dir pol (rulePeers w family pol rule)

/-- The pod adds no address to a set and has no chain: it has no address of the family where an
    active policy selects it, where a selector peer of a rule picks it, and where it exposes a
    named port of a rule that can match. -/
structure Idle (w : PolicyWorld) (family : IpFamily) (pod : Pod) : Prop where
  target : ∀ pol ∈ w.policies, pol.active = true → policySelects pol pod = true →
    podFamilyIps pod family = []
  peer : ∀ pol ∈ w.policies, ∀ dir : Direction, dir.covers pol = true → ∀ r ∈ dir.rules pol,
    ∀ nsSel podSel, .selector nsSel podSel ∈ r.peers →
      pod ∈ peerPods nsSel podSel [pod] w.namespaces pol.ns → podFamilyIps pod family = []
  named : ∀ pol ∈ w.policies, ∀ dir : Direction, dir.covers pol = true → ∀ idx rule port name,
    NamedEntry w family dir pol idx rule port name → Receives w family dir pol rule pod →
    ∀ cp ∈ pod.containerPorts, cp.name = some name → cp.protocol = port.protocol →
      podFamilyIps pod family = []

/-- Without the other pods a named port of the policy's direction has fewer numbers. -/
def Renumbers (w : PolicyWorld) (live : List Pod) (family : IpFamily) (dir : Direction)
    (pol : NetworkPolicy) : Prop :=
  ∃ idx rule port name, NamedEntry w family dir pol idx rule port name ∧
    portNumbers (ruleReceivers (withPods w live) family dir pol rule) port.protocol name ≠
      portNumbers (ruleReceivers w family dir pol rule) port.protocol name

/-- The conditions a rule pushes, by what it resolves to. -/
theorem ruleMatches_eq (cfg : Config) (w : PolicyWorld) (family : IpFamily) (dir : Direction)
    (tset : String) (pol : NetworkPolicy) (idx : Nat) (rule : PolicyRule) :
    ruleMatches cfg w family dir tset pol idx rule =
      (peerMatches cfg family dir pol idx (rulePeers w family pol rule)).flatMap fun peerMatch =>
        if rule.ports.isEmpty then [peerMatch ++ [.matchSet false tset dir.targetSide] ++ []]
        else rule.ports.flatMap (portMatches cfg family dir pol idx
          (ruleReceivers w family dir pol rule) peerMatch
          [.matchSet false tset dir.targetSide]) := rfl

/-- `NamesAgree.named` for the policies of one concatenation. -/
def PortsAgree (w : PolicyWorld) (family : IpFamily) (dir : Direction) (stem : String) : Prop :=
  ∀ p q, ShareNames w dir p q → p.stem = stem → ∀ idx rule port name idx' rule' port' name',
    NamedEntry w family dir p idx rule port name →
    NamedEntry w family dir q idx' rule' port' name' → ∀ (ep ep' : Nat) n n',
    (portNumbers (ruleReceivers w family dir p rule) port.protocol name)[ep]? = some n →
    (portNumbers (ruleReceivers w family dir q rule') port'.protocol name')[ep']? = some n' →
    toString idx ++ toString ep = toString idx' ++ toString ep' → ∀ d,
    ExposedAt family (ruleReceivers w family dir p rule) port.protocol name n d ↔
      ExposedAt family (ruleReceivers w family dir q rule') port'.protocol name' n' d

/-- A single named port that can match has no name in common with another. -/
theorem portsAgree_of_one {w : PolicyWorld} {family : IpFamily} {dir : Direction} {stem : String}
    {e : NetworkPolicy × Nat × PolicyRule × PortSpec × String}
    (h : ∀ p ∈ w.policies, ∀ idx rule port name, NamedEntry w family dir p idx rule port name →
      (p, idx, rule, port, name) = e) : PortsAgree w family dir stem := by
  intro p q hpq _ idx rule port name idx' rule' port' name' hn hn' ep ep' n n' hep hep' hij d
  have hsame := (h p hpq.left idx rule port name hn).trans
    (h q hpq.right idx' rule' port' name' hn').symm
  simp only [Prod.mk.injEq] at hsame
  obtain ⟨rfl, rfl, rfl, rfl, rfl⟩ := hsame
  have hlist := congrArg String.toList hij
  rw [String.toList_append, String.toList_append] at hlist
  obtain rfl : ep = ep' :=
    Nat.repr_injective (String.toList_inj.mp (List.append_cancel_left hlist))
  rw [Option.some.inj (hep.symm.trans hep')]

/-- Where leaving pods out moves the sets of a named port, the names of these sets agree with
    the pods and without them. -/
def MovesAgree (cfg : Config) (w : PolicyWorld) (live : List Pod) (family : IpFamily) : Prop :=
  ∀ pol ∈ w.policies, ∀ dir : Direction, dir.covers pol = true → Renumbers w live family dir pol →
    Function.Injective cfg.hash16 ∧ PortsAgree w family dir pol.stem ∧
      PortsAgree (withPods w live) family dir pol.stem

/-- No named port that moves has a set of this name. -/
def Fixed (cfg : Config) (w : PolicyWorld) (live : List Pod) (family : IpFamily) (N : String) :
    Prop :=
  ∀ pol ∈ w.policies, ∀ dir : Direction, dir.covers pol = true → Renumbers w live family dir pol →
    ∀ idx ep, namedPortSet cfg family dir pol idx ep ≠ N

section Plan

variable {cfg : Config} {w : PolicyWorld} {family : IpFamily} {live : List Pod}

theorem receivers_filter (dir : Direction) (pol : NetworkPolicy) (resolved : ResolvedPeers) :
    ∃ p : Pod → Bool, ∀ pods, receivers (withPods w pods) family dir pol resolved =
      pods.filter p := by
  cases dir with
  | ingress => exact ⟨_, fun pods => rfl⟩
  | egress =>
    by_cases hall : resolved.matchAll = true
    · exact ⟨_, fun pods => if_pos hall⟩
    · exact ⟨_, fun pods => if_neg hall⟩

variable (hthin : Thins (Idle w family) w.pods live)
include hthin

theorem idle_rulePeers {pol : NetworkPolicy} (hpol : pol ∈ w.policies) {dir : Direction}
    (hcov : dir.covers pol = true) {r : PolicyRule} (hr : r ∈ dir.rules pol) :
    rulePeers (withPods w live) family pol r = rulePeers w family pol r := by
  have hpeer : ∀ peer ∈ r.peers, peer.ipEntries live w.namespaces pol.ns family =
      peer.ipEntries w.pods w.namespaces pol.ns family := by
    intro peer hp
    cases peer with
    | ipBlock cidr except => rfl
    | selector nsSel podSel =>
      refine (hthin.filter_flatMap_eq ?_).symm
      intro pod hidle hsel
      refine hidle.peer pol hpol dir hcov r hr nsSel podSel hp ?_
      exact List.mem_filter.mpr ⟨List.mem_singleton_self pod, hsel⟩
  show resolvePeers r.peers live w.namespaces pol.ns family =
    resolvePeers r.peers w.pods w.namespaces pol.ns family
  unfold resolvePeers
  rw [List.flatMap_congr hpeer]

theorem idle_selectedIps {pol : NetworkPolicy} (hpol : pol ∈ w.policies)
    (hactive : pol.active = true) :
    selectedIps (withPods w live) family pol = selectedIps w family pol :=
  (hthin.filter_flatMap_eq fun _ hidle hsel => hidle.target pol hpol hactive hsel).symm

theorem idle_chainPods : chainPods cfg (withPods w live) family = chainPods cfg w family := by
  refine (hthin.filter_eq ?_).symm
  intro pod hidle
  rw [Bool.eq_false_iff]
  intro hchain
  simp only [Bool.and_eq_true, Bool.not_eq_true'] at hchain
  obtain ⟨⟨-, hips⟩, hsel⟩ := hchain
  obtain ⟨pol, hpol⟩ := List.exists_mem_of_ne_nil (selecting (withPods w live) pod)
    (by simpa using hsel)
  obtain ⟨hm, ha, hs⟩ := selecting_spec hpol
  rw [hidle.target pol hm ha hs] at hips
  cases hips

section Direction

variable {pol : NetworkPolicy} (hpol : pol ∈ w.policies) {dir : Direction}
  (hcov : dir.covers pol = true)
include hpol hcov

theorem idle_namedEntry {idx : Nat} {rule : PolicyRule} {port : PortSpec} {name : String} :
    NamedEntry (withPods w live) family dir pol idx rule port name ↔
      NamedEntry w family dir pol idx rule port name := by
  constructor
  · rintro ⟨hr, hport, hname, hm⟩
    rw [idle_rulePeers hthin hpol hcov (List.fst_mem_of_mem_zipIdx hr)] at hm
    exact ⟨hr, hport, hname, hm⟩
  · rintro ⟨hr, hport, hname, hm⟩
    refine ⟨hr, hport, hname, ?_⟩
    rwa [idle_rulePeers hthin hpol hcov (List.fst_mem_of_mem_zipIdx hr)]

/-- The receivers with and without the idle pods, as one filter; an idle one that exposes the
    name has no address. -/
theorem idle_receivers {idx : Nat} {rule : PolicyRule} {port : PortSpec} {name : String}
    (he : NamedEntry w family dir pol idx rule port name) :
    ∃ p : Pod → Bool, ruleReceivers (withPods w live) family dir pol rule = live.filter p ∧
      ruleReceivers w family dir pol rule = w.pods.filter p ∧
      ∀ pod, Idle w family pod → p pod = true → ∀ cp ∈ pod.containerPorts, cp.name = some name →
        cp.protocol = port.protocol → podFamilyIps pod family = [] := by
  obtain ⟨p, hp⟩ := @receivers_filter w family dir pol (rulePeers w family pol rule)
  refine ⟨p, ?_, hp w.pods, ?_⟩
  · rw [ruleReceivers, idle_rulePeers hthin hpol hcov (List.fst_mem_of_mem_zipIdx he.rule_mem)]
    exact hp live
  · intro pod hidle hsel
    refine hidle.named pol hpol dir hcov idx rule port name he ?_
    rw [Receives, hp [pod], List.filter_cons_of_pos hsel]
    exact List.mem_cons_self

theorem idle_exposed {idx : Nat} {rule : PolicyRule} {port : PortSpec} {name : String}
    (he : NamedEntry w family dir pol idx rule port name) {n : UInt16} {d : IpAddr} :
    ExposedAt family (ruleReceivers (withPods w live) family dir pol rule) port.protocol name n d ↔
      ExposedAt family (ruleReceivers w family dir pol rule) port.protocol name n d := by
  obtain ⟨p, hlive, hall, hidle⟩ := idle_receivers hthin hpol hcov he
  rw [hlive, hall]
  constructor
  · rintro ⟨pod, hpod, hd, hcp⟩
    obtain ⟨hpod, hsel⟩ := List.mem_filter.mp hpod
    exact ⟨pod, List.mem_filter.mpr ⟨hthin.mem hpod, hsel⟩, hd, hcp⟩
  · rintro ⟨pod, hpod, hd, cp, hcp, hname, hproto, hn⟩
    obtain ⟨hpod, hsel⟩ := List.mem_filter.mp hpod
    rcases hthin.mem_or hpod with hpod | hpod
    · exact ⟨pod, List.mem_filter.mpr ⟨hpod, hsel⟩, hd, cp, hcp, hname, hproto, hn⟩
    · rw [hidle pod hpod hsel cp hcp hname hproto] at hd
      cases hd

/-- With the same numbers, a named port has the same groups. -/
theorem idle_groups {idx : Nat} {rule : PolicyRule} {port : PortSpec} {name : String}
    (he : NamedEntry w family dir pol idx rule port name)
    (hno : ¬Renumbers w live family dir pol) :
    namedPortGroups family
      (ruleReceivers (withPods w live) family dir pol rule) port.protocol name =
      namedPortGroups family (ruleReceivers w family dir pol rule) port.protocol name := by
  have hnum : portNumbers (ruleReceivers (withPods w live) family dir pol rule) port.protocol name =
      portNumbers (ruleReceivers w family dir pol rule) port.protocol name := by
    by_contra hne
    exact hno ⟨idx, rule, port, name, he, hne⟩
  obtain ⟨p, hlive, hall, hidle⟩ := idle_receivers hthin hpol hcov he
  rw [namedPortGroups_eq, namedPortGroups_eq, hnum]
  refine List.map_congr_left fun n _ => congrArg (Prod.mk n) ?_
  rw [hlive, hall, addressesAt, addressesAt]
  refine (hthin.filter_flatMap_eq fun pod hpod hsel => ?_).symm
  rw [List.flatMap_eq_nil_iff]
  intro cp hcp
  simp only [List.mem_filter, Bool.and_eq_true, beq_iff_eq] at hcp
  exact hidle pod hpod hsel cp hcp.1 hcp.2.1.1 hcp.2.1.2

theorem idle_emitRule (hno : ¬Renumbers w live family dir pol) {idx : Nat} {rule : PolicyRule}
    (hr : (rule, idx) ∈ (dir.rules pol).zipIdx) (pchain tset : String) :
    emitRule cfg (withPods w live) family pchain dir tset pol idx rule =
      emitRule cfg w family pchain dir tset pol idx rule := by
  have hpeers := idle_rulePeers hthin hpol hcov (List.fst_mem_of_mem_zipIdx hr)
  show
    { ipsets := peerSets cfg family dir pol idx (rulePeers (withPods w live) family pol rule) } ++
      FirewallPlan.collect
        (peerMatches cfg family dir pol idx (rulePeers (withPods w live) family pol rule)) _ =
    { ipsets := peerSets cfg family dir pol idx (rulePeers w family pol rule) } ++
      FirewallPlan.collect (peerMatches cfg family dir pol idx (rulePeers w family pol rule)) _
  rw [hpeers]
  refine congrArg _ (FirewallPlan.collect_congr fun peerMatch hpm => ?_)
  split
  · rfl
  refine FirewallPlan.collect_congr fun port hport => ?_
  unfold emitPort
  cases hname : port.port with
  | all => rfl
  | number n => rfl
  | name name =>
    have hgroups := idle_groups hthin hpol hcov
      ⟨hr, hport, hname, peerMatches_ne_nil.mp (List.ne_nil_of_mem hpm)⟩ hno
    rw [ruleReceivers, hpeers] at hgroups
    simp only
    rw [show receivers (withPods w live) family dir pol (resolvePeers rule.peers
      (withPods w live).pods (withPods w live).namespaces pol.ns family) =
      receivers (withPods w live) family dir pol (rulePeers w family pol rule) from
        congrArg _ hpeers, hgroups]
    rfl

theorem idle_directionPlan (hno : ¬Renumbers w live family dir pol) :
    directionPlan cfg (withPods w live) family dir pol = directionPlan cfg w family dir pol := by
  have hcollect : emitPolicyRules cfg (withPods w live) family (policyChain cfg family pol)
      (dir.rules pol) dir (targetSet cfg family dir pol) pol =
      emitPolicyRules cfg w family (policyChain cfg family pol)
        (dir.rules pol) dir (targetSet cfg family dir pol) pol :=
    FirewallPlan.collect_congr fun r hr => idle_emitRule hthin hpol hcov hno hr _ _
  unfold directionPlan
  rw [idle_selectedIps hthin hpol (active_of_covers hcov), hcollect]

/-- Under every other name a direction pushes the same sets. -/
theorem idle_directionPlan_filter {N : String}
    (hN : ∀ idx ep, namedPortSet cfg family dir pol idx ep ≠ N) :
    (directionPlan cfg (withPods w live) family dir pol).ipsets.filter (·.name == N) =
      (directionPlan cfg w family dir pol).ipsets.filter (·.name == N) := by
  have hrule : ∀ (v : PolicyWorld) (r : PolicyRule × Nat) (pchain tset : String),
      (emitRule cfg v family pchain dir tset pol r.2 r.1).ipsets.filter (·.name == N) =
        (peerSets cfg family dir pol r.2 (rulePeers v family pol r.1)).filter (·.name == N) := by
    intro v r pchain tset
    rw [emitRule, FirewallPlan.append_ipsets, List.filter_append]
    refine (congrArg _ (List.filter_eq_nil_iff.mpr fun s hs => ?_)).trans (List.append_nil _)
    obtain ⟨peerMatch, -, hs⟩ := List.mem_flatMap.mp hs
    split at hs
    · exact absurd hs List.not_mem_nil
    · obtain ⟨port, -, hs⟩ := List.mem_flatMap.mp hs
      obtain ⟨name, -, ep, g, -, rfl⟩ := mem_emitPort_ipsets.mp hs
      simpa using hN r.2 ep
  have hdir : ∀ v : PolicyWorld,
      (directionPlan cfg v family dir pol).ipsets.filter (·.name == N) =
        [(⟨targetSet cfg family dir pol, family, .hashIp (selectedIps v family pol)⟩ :
          IpsetPlan)].filter (·.name == N) ++
        (dir.rules pol).zipIdx.flatMap fun r =>
          (peerSets cfg family dir pol r.2 (rulePeers v family pol r.1)).filter (·.name == N) := by
    intro v
    rw [directionPlan, if_pos hcov, FirewallPlan.append_ipsets, List.filter_append]
    refine congrArg _ ?_
    rw [emitPolicyRules, FirewallPlan.collect, List.filter_flatMap]
    exact List.flatMap_congr fun r _ => hrule v r _ _
  rw [hdir, hdir, idle_selectedIps hthin hpol (active_of_covers hcov)]
  refine congrArg _ (List.flatMap_congr fun r hr => ?_)
  rw [idle_rulePeers hthin hpol hcov (List.fst_mem_of_mem_zipIdx hr)]

end Direction

theorem idle_policyPlan {pol : NetworkPolicy} (hpol : pol ∈ w.policies)
    (hno : ∀ dir : Direction, dir.covers pol = true → ¬Renumbers w live family dir pol) :
    policyPlan cfg (withPods w live) family pol = policyPlan cfg w family pol := by
  have hdir : ∀ dir : Direction, directionPlan cfg (withPods w live) family dir pol =
      directionPlan cfg w family dir pol := by
    intro dir
    by_cases hcov : dir.covers pol = true
    · exact idle_directionPlan hthin hpol hcov (hno dir hcov)
    · rw [directionPlan, directionPlan, if_neg hcov, if_neg hcov]
  rw [policyPlan, policyPlan, hdir, hdir]

theorem idle_programmedIps : programmedIps cfg (withPods w live) family =
    programmedIps cfg w family := by
  rw [programmedIps, programmedIps, idle_chainPods hthin]

/-- Idle pods that move no set leave no trace in the plan. -/
theorem idle_buildPlan (hno : ∀ pol ∈ w.policies, ∀ dir : Direction, dir.covers pol = true →
    ¬Renumbers w live family dir pol) :
    buildPlan cfg (withPods w live) family = buildPlan cfg w family := by
  have hpolicies : FirewallPlan.collect ((withPods w live).policies.filter (·.active))
      (policyPlan cfg (withPods w live) family) =
      FirewallPlan.collect (w.policies.filter (·.active)) (policyPlan cfg w family) :=
    FirewallPlan.collect_congr fun pol hpol =>
      idle_policyPlan hthin (List.mem_filter.mp hpol).1 (hno pol (List.mem_filter.mp hpol).1)
  unfold buildPlan
  rw [hpolicies, idle_chainPods hthin, idle_programmedIps hthin]
  rfl

/-! ## Sets under names that do not move -/

theorem idle_planView {N : String} (hN : Fixed cfg w live family N) :
    planView (buildPlan cfg (withPods w live) family).ipsets N =
      planView (buildPlan cfg w family).ipsets N := by
  have hdir : ∀ pol ∈ w.policies, ∀ dir : Direction,
      (directionPlan cfg (withPods w live) family dir pol).ipsets.filter (·.name == N) =
        (directionPlan cfg w family dir pol).ipsets.filter (·.name == N) := by
    intro pol hpol dir
    by_cases hcov : dir.covers pol = true
    · by_cases hren : Renumbers w live family dir pol
      · exact idle_directionPlan_filter hthin hpol hcov (hN pol hpol dir hcov hren)
      · rw [idle_directionPlan hthin hpol hcov hren]
    · rw [directionPlan, directionPlan, if_neg hcov, if_neg hcov]
  have hfilter : (buildPlan cfg (withPods w live) family).ipsets.filter (·.name == N) =
      (buildPlan cfg w family).ipsets.filter (·.name == N) := by
    simp only [buildPlan, FirewallPlan.append_ipsets, FirewallPlan.collect, List.filter_append,
      List.filter_flatMap, policyPlan, podPlan]
    rw [idle_programmedIps hthin, idle_chainPods hthin]
    refine congrArg (fun l => _ ++ l ++ _ ++ _) (List.flatMap_congr fun pol hpol => ?_)
    have hmem := (List.mem_filter.mp hpol).1
    rw [hdir pol hmem, hdir pol hmem]
  funext x
  rw [planView_eq_head, planView_eq_head, hfilter]

/-! ## Sets of named ports that move -/

omit hthin in
/-- Where names agree, a set of a named port is seen with its own entries. -/
theorem namedPort_view (hinj : Function.Injective cfg.hash16) {dir : Direction}
    {pol : NetworkPolicy} (hagree : PortsAgree w family dir pol.stem) (hpol : pol ∈ w.policies)
    (hcov : dir.covers pol = true) {idx : Nat} {rule : PolicyRule} {port : PortSpec} {name : String}
    (he : NamedEntry w family dir pol idx rule port name) {ep : Nat} {g : UInt16 × List IpAddr}
    (hg : (namedPortGroups family (ruleReceivers w family dir pol rule) port.protocol name)[ep]? =
      some g) (x : IpAddr) :
    planView (buildPlan cfg w family).ipsets (namedPortSet cfg family dir pol idx ep) x = true ↔
      ExposedAt family (ruleReceivers w family dir pol rule) port.protocol name g.1 x := by
  have hmem := @pushed_mem cfg w family dir pol hpol hcov _ _
    (.namedPort rule idx port name he ep g hg)
  obtain ⟨u, hu, hfind, hname⟩ := exists_find_planned hmem
  have hview : planView (buildPlan cfg w family).ipsets (namedPortSet cfg family dir pol idx ep) x =
      u.body.mem x := by
    show ((buildPlan cfg w family).ipsets.reverse.find?
      (·.name == (SetKind.namedPort dir idx ep).name cfg family pol)).any (·.body.mem x) = _
    rw [hfind]
    rfl
  rw [hview]
  rcases mem_buildPlan_ipsets.mp hu with ⟨q, hq, dir', hcovq, k, body, hk, rfl⟩ | ⟨-, rfl⟩
  · have hname' : k.name cfg family q = (SetKind.namedPort dir idx ep).name cfg family pol := hname
    obtain ⟨hstem, -, hclash⟩ := SetKind.name_clash hinj hname'
    cases hk with
    | namedPort rule' idx' port' name' he' ep' g' hg' =>
      obtain ⟨rfl, hij⟩ := hclash
      have hiff := hagree q pol ⟨hq, hpol, hstem, hcovq, hcov⟩ hstem idx' rule' port' name' idx rule
        port name he' he ep' ep g'.1 g.1 (number_of_group hg') (number_of_group hg) hij x
      rw [← hiff, ← mem_group (List.mem_of_getElem? hg'), SetBody.mem, List.contains_iff_mem,
        List.mem_dedup]
    | _ => exact hclash.elim
  · exact absurd hname (localPodsSet_ne_name (.namedPort dir idx ep) family family)

omit hthin in
/-- Where names agree, the pairs of a named port match what goes to a receiver. -/
theorem hits_namedPort (hinj : Function.Injective cfg.hash16) {dir : Direction}
    {pol : NetworkPolicy} (hagree : PortsAgree w family dir pol.stem) (hpol : pol ∈ w.policies)
    (hcov : dir.covers pol = true) {idx : Nat} {rule : PolicyRule} {port : PortSpec} {name : String}
    (he : NamedEntry w family dir pol idx rule port name) (peerMatch : List Cond) (pkt : Packet) :
    hits (planView (buildPlan cfg w family).ipsets) pkt (portMatches cfg family dir pol idx
        (ruleReceivers w family dir pol rule) peerMatch
        [.matchSet false (targetSet cfg family dir pol) dir.targetSide] port) = true ↔
      (otherMatch cfg family dir pol peerMatch).all
          (Cond.holds (planView (buildPlan cfg w family).ipsets) pkt) = true ∧
        GoesTo family (ruleReceivers w family dir pol rule) port name pkt := by
  rw [hits, portMatches_named he.port_name, List.any_map, List.any_eq_true]
  simp only [Function.comp_apply, List.all_append, List.all_cons, List.all_nil, Bool.and_true,
    Bool.and_eq_true, Cond.holds, beq_iff_eq, Bool.bne_false]
  constructor
  · rintro ⟨⟨g, ep⟩, hg, ⟨hother, hset⟩, hproto, hport⟩
    have hg' := List.mk_mem_zipIdx_iff_getElem?.mp hg
    exact ⟨hother, hproto, g.1, hport, (namedPort_view hinj hagree hpol hcov he hg' _).mp hset⟩
  · rintro ⟨hother, hproto, n, hport, hexp⟩
    have hn : n ∈ portNumbers (ruleReceivers w family dir pol rule) port.protocol name := by
      obtain ⟨pod, hpod, -, hcp⟩ := hexp
      exact mem_portNumbers.mpr ⟨pod, hpod, hcp⟩
    obtain ⟨ep, hep⟩ := List.mem_iff_getElem?.mp hn
    obtain ⟨ips, hg⟩ := group_of_number family hep
    exact ⟨((n, ips), ep), List.mk_mem_zipIdx_iff_getElem?.mpr hg,
      ⟨hother, (namedPort_view hinj hagree hpol hcov he hg _).mpr hexp⟩, hproto, hport⟩

/-! ## What the policy chains match -/

omit hthin in
/-- A set that is no named port's keeps its name to itself. -/
theorem fixed_of_kind (hinj : Function.Injective cfg.hash16) {pol : NetworkPolicy} {k : SetKind}
    (hk : ∀ dir idx ep, ¬(SetKind.namedPort dir idx ep).Clash k) :
    Fixed cfg w live family (k.name cfg family pol) := by
  intro q _ dir _ _ idx ep hname
  have hname' : (SetKind.namedPort dir idx ep).name cfg family q = k.name cfg family pol := hname
  exact hk dir idx ep (SetKind.name_clash hinj hname').2.2

theorem idle_holds (pkt : Packet) {k : Cond}
    (hk : ∀ name, k.setName = some name → Fixed cfg w live family name) :
    Cond.holds (planView (buildPlan cfg (withPods w live) family).ipsets) pkt k =
      Cond.holds (planView (buildPlan cfg w family).ipsets) pkt k :=
  holds_congr fun name hn => idle_planView hthin (hk name hn)

section Matches

variable (hinj : Function.Injective cfg.hash16) (pkt : Packet) {pol : NetworkPolicy}
  {dir : Direction}
include hinj

theorem idle_target : ∀ k ∈ [Cond.matchSet false (targetSet cfg family dir pol) dir.targetSide],
    Cond.holds (planView (buildPlan cfg (withPods w live) family).ipsets) pkt k =
      Cond.holds (planView (buildPlan cfg w family).ipsets) pkt k := by
  intro k hk
  obtain rfl := List.mem_singleton.mp hk
  refine idle_holds hthin pkt fun name hn => ?_
  obtain rfl := Option.some.inj hn
  exact fixed_of_kind (k := .target dir) hinj fun _ _ _ h => h

theorem idle_peerMatch {idx : Nat} {rule : PolicyRule} {peerMatch : List Cond}
    (hpm : peerMatch ∈ peerMatches cfg family dir pol idx (rulePeers w family pol rule)) :
    ∀ k ∈ peerMatch, Cond.holds (planView (buildPlan cfg (withPods w live) family).ipsets) pkt k =
      Cond.holds (planView (buildPlan cfg w family).ipsets) pkt k := by
  intro k hk
  refine idle_holds hthin pkt fun name hn => ?_
  obtain ⟨s, hs, rfl, -⟩ := peerMatches_planned hpm hk hn
  rcases mem_peerSets.mp hs with ⟨-, rfl⟩ | ⟨-, rfl⟩
  · exact fixed_of_kind (k := .pod dir idx) hinj fun _ _ _ h => h
  · exact fixed_of_kind (k := .ipblock dir idx) hinj fun _ _ _ h => h

/-- Conditions behind the peers and the policy's own pods that read no set. -/
theorem idle_plain {idx : Nat} {rule : PolicyRule} {peerMatch conds : List Cond}
    (hpm : peerMatch ∈ peerMatches cfg family dir pol idx (rulePeers w family pol rule))
    (hnone : ∀ k ∈ conds, k.setName = none) :
    hits (planView (buildPlan cfg (withPods w live) family).ipsets) pkt
      [peerMatch ++ [.matchSet false (targetSet cfg family dir pol) dir.targetSide] ++ conds] =
    hits (planView (buildPlan cfg w family).ipsets) pkt
      [peerMatch ++ [.matchSet false (targetSet cfg family dir pol) dir.targetSide] ++ conds] := by
  refine hits_congr fun c hc k hk => ?_
  obtain rfl := List.mem_singleton.mp hc
  rcases List.mem_append.mp hk with hk | hk
  · rcases List.mem_append.mp hk with hk | hk
    · exact idle_peerMatch hthin hinj pkt hpm k hk
    · exact idle_target hthin hinj pkt k hk
  · exact holds_of_noSet (hnone k hk) _ _

variable (hmoves : MovesAgree cfg w live family) (hpol : pol ∈ w.policies)
  (hcov : dir.covers pol = true)
include hmoves hpol hcov

/-- A named port matches alike: its sets keep their names and entries, or they move and are
    seen with their own entries on both sides. -/
theorem idle_namedPort {idx : Nat} {rule : PolicyRule} {port : PortSpec} {name : String}
    (he : NamedEntry w family dir pol idx rule port name) {peerMatch : List Cond}
    (hpm : peerMatch ∈ peerMatches cfg family dir pol idx (rulePeers w family pol rule)) :
    hits (planView (buildPlan cfg (withPods w live) family).ipsets) pkt
      (portMatches cfg family dir pol idx (ruleReceivers (withPods w live) family dir pol rule)
        peerMatch [.matchSet false (targetSet cfg family dir pol) dir.targetSide] port) =
    hits (planView (buildPlan cfg w family).ipsets) pkt
      (portMatches cfg family dir pol idx (ruleReceivers w family dir pol rule)
        peerMatch [.matchSet false (targetSet cfg family dir pol) dir.targetSide] port) := by
  have hother : ∀ k ∈ otherMatch cfg family dir pol peerMatch,
      Cond.holds (planView (buildPlan cfg (withPods w live) family).ipsets) pkt k =
        Cond.holds (planView (buildPlan cfg w family).ipsets) pkt k := by
    cases dir with
    | ingress => exact idle_peerMatch hthin hinj pkt hpm
    | egress => exact idle_target hthin hinj pkt
  by_cases hclass : ∃ q, ShareNames w dir pol q ∧ Renumbers w live family dir q
  · obtain ⟨q, hshare, hren⟩ := hclass
    obtain ⟨-, hall, hlive⟩ := hmoves q hshare.right dir hshare.covers_right hren
    rw [← hshare.stem] at hall hlive
    rw [Bool.eq_iff_iff, hits_namedPort hinj hlive hpol hcov
      ((idle_namedEntry hthin hpol hcov).mpr he), hits_namedPort hinj hall hpol hcov he,
      all_congr hother]
    refine and_congr_right fun _ => and_congr_right fun _ => exists_congr fun n => ?_
    exact and_congr_right fun _ => idle_exposed hthin hpol hcov he
  · have hno : ¬Renumbers w live family dir pol :=
      fun hren => hclass ⟨pol, ⟨hpol, hpol, rfl, hcov, hcov⟩, hren⟩
    rw [portMatches_named he.port_name, portMatches_named he.port_name,
      idle_groups hthin hpol hcov he hno]
    refine hits_congr fun conds hc k hk => ?_
    obtain ⟨g, -, rfl⟩ := List.mem_map.mp hc
    simp only [List.mem_append, List.mem_cons, List.not_mem_nil, or_false] at hk
    rcases hk with (hk | rfl) | rfl | rfl
    · exact hother k hk
    · refine idle_holds hthin pkt fun N hN q hq dir' hcovq hren idx' ep' hname => hclass ⟨q, ?_, ?_⟩
      all_goals
        obtain rfl := Option.some.inj hN
        have hname' : (SetKind.namedPort dir' idx' ep').name cfg family q =
          (SetKind.namedPort dir idx g.2).name cfg family pol := hname
        obtain ⟨hstem, -, rfl, -⟩ := SetKind.name_clash hinj hname'
      · exact ⟨hpol, hq, hstem.symm, hcov, hcovq⟩
      · exact hren
    · exact holds_of_noSet rfl _ _
    · exact holds_of_noSet rfl _ _

theorem idle_port {idx : Nat} {rule : PolicyRule} (hr : (rule, idx) ∈ (dir.rules pol).zipIdx)
    {port : PortSpec} (hport : port ∈ rule.ports) {peerMatch : List Cond}
    (hpm : peerMatch ∈ peerMatches cfg family dir pol idx (rulePeers w family pol rule)) :
    hits (planView (buildPlan cfg (withPods w live) family).ipsets) pkt
      (portMatches cfg family dir pol idx (ruleReceivers (withPods w live) family dir pol rule)
        peerMatch [.matchSet false (targetSet cfg family dir pol) dir.targetSide] port) =
    hits (planView (buildPlan cfg w family).ipsets) pkt
      (portMatches cfg family dir pol idx (ruleReceivers w family dir pol rule)
        peerMatch [.matchSet false (targetSet cfg family dir pol) dir.targetSide] port) := by
  cases hname : port.port with
  | all =>
    simp only [portMatches, hname]
    exact idle_plain hthin hinj pkt hpm (by simp [Cond.setName])
  | number n =>
    simp only [portMatches, hname]
    exact idle_plain hthin hinj pkt hpm (by simp [Cond.setName])
  | name name =>
    exact idle_namedPort hthin hinj pkt hmoves hpol hcov
      ⟨hr, hport, hname, peerMatches_ne_nil.mp (List.ne_nil_of_mem hpm)⟩ hpm

theorem idle_ruleHits {idx : Nat} {rule : PolicyRule}
    (hr : (rule, idx) ∈ (dir.rules pol).zipIdx) :
    hits (planView (buildPlan cfg (withPods w live) family).ipsets) pkt
      (ruleMatches cfg (withPods w live) family dir (targetSet cfg family dir pol) pol idx rule) =
    hits (planView (buildPlan cfg w family).ipsets) pkt
      (ruleMatches cfg w family dir (targetSet cfg family dir pol) pol idx rule) := by
  rw [ruleMatches_eq, ruleMatches_eq,
    idle_rulePeers hthin hpol hcov (List.fst_mem_of_mem_zipIdx hr), hits, hits, List.any_flatMap,
    List.any_flatMap]
  refine any_congr fun peerMatch hpm => ?_
  split
  · exact idle_plain hthin hinj pkt hpm (fun _ h => absurd h List.not_mem_nil)
  · rw [List.any_flatMap, List.any_flatMap]
    exact any_congr fun port hport => idle_port hthin hinj pkt hmoves hpol hcov hr hport hpm

theorem idle_directionHits :
    hits (planView (buildPlan cfg (withPods w live) family).ipsets) pkt
      (directionMatches cfg (withPods w live) family dir pol) =
    hits (planView (buildPlan cfg w family).ipsets) pkt
      (directionMatches cfg w family dir pol) := by
  rw [directionMatches, directionMatches, if_pos hcov, if_pos hcov, hits, hits, List.any_flatMap,
    List.any_flatMap]
  exact any_congr fun r hr => idle_ruleHits hthin hinj pkt hmoves hpol hcov hr

end Matches

theorem idle_chainHit (hinj : Function.Injective cfg.hash16) (pkt : Packet)
    (hmoves : MovesAgree cfg w live family) (c : String) :
    chainHit cfg (withPods w live) family
        (planView (buildPlan cfg (withPods w live) family).ipsets) pkt c =
      chainHit cfg w family (planView (buildPlan cfg w family).ipsets) pkt c := by
  have hdir : ∀ pol ∈ w.policies, ∀ dir : Direction,
      hits (planView (buildPlan cfg (withPods w live) family).ipsets) pkt
        (directionMatches cfg (withPods w live) family dir pol) =
      hits (planView (buildPlan cfg w family).ipsets) pkt
        (directionMatches cfg w family dir pol) := by
    intro pol hpol dir
    by_cases hcov : dir.covers pol = true
    · exact idle_directionHits hthin hinj pkt hmoves hpol hcov
    · rw [directionMatches, directionMatches, if_neg hcov, if_neg hcov, hits, hits, List.any_nil,
        List.any_nil]
  rw [chainHit, chainHit]
  refine any_congr fun pol hpol => ?_
  have hmem : pol ∈ w.policies := (List.mem_filter.mp (List.mem_filter.mp hpol).1).1
  rw [policyMatches, policyMatches, hits_append, hits_append, hdir pol hmem, hdir pol hmem]

/-- Leaving idle pods out changes no verdict, unless it moves the sets of a named port whose
    names do not agree. -/
theorem idle_traverse (hmoves : MovesAgree cfg w live family) (pkt : Packet) (n : Nat)
    (c : String) :
    traverse (buildPlan cfg (withPods w live) family).rules
        (planView (buildPlan cfg (withPods w live) family).ipsets) n c pkt =
      traverse (buildPlan cfg w family).rules
        (planView (buildPlan cfg w family).ipsets) n c pkt := by
  by_cases hren : ∃ pol ∈ w.policies, ∃ dir : Direction, dir.covers pol = true ∧
      Renumbers w live family dir pol
  · obtain ⟨pol, hpol, dir, hcov, hren⟩ := hren
    have hinj := (hmoves pol hpol dir hcov hren).1
    refine traverse_congr (idle_chainPods hthin) (idle_chainHit hthin hinj pkt hmoves)
      (idle_planView hthin ?_) n c
    intro q _ dir' _ _ idx ep hname
    exact localPodsSet_ne_name (.namedPort dir' idx ep) family family hname.symm
  · rw [idle_buildPlan hthin fun pol hpol dir hcov h => hren ⟨pol, hpol, dir, hcov, h⟩]

end Plan

end KubeRouter.Netpol
