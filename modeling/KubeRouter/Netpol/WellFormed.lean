/-
  Well-formedness of firewall plans: what `iptables-restore` and the order of evaluation need
  of every plan `buildPlan` returns.

  A plan is walked from the three top-level chains to pod chains and from there to policy
  chains; COMMON, DEFAULT, TAIL and the policy chains jump nowhere. `jump_cases` is that
  statement, one case for each place of the source that writes a `-j <chain>`.

  Two pods whose namespace and name concatenate to one text share a pod chain, and the chain
  then holds both bodies. So "COMMON comes first" is stated of the chain: its first rule is the
  unconditional jump to COMMON, whatever the bodies behind it are.

  The hash is a parameter; that it is cut to 16 characters keeps a policy's chain apart from
  COMMON, DEFAULT and TAIL, which have the same beginning.

  Proved:
  * `jump_cases`: every jump of a plan, by the chain it stands in.
  * `buildPlan_acyclic`: the jump graph has no cycle.
  * `buildPlan_wellFormed`: all of `WellFormed`, and that the document is accepted behind the
    plan's own restores on any kernel.
-/
import KubeRouter.Netpol.Install

namespace KubeRouter.Netpol

section Plans

variable {cfg : Config} {w : PolicyWorld} {family : IpFamily}

def topChains : List String := [routerInput, routerForward, routerOutput]

/-! ## Jumps -/

/-- Every jump of a plan: from a top-level chain to a pod chain or to TAIL, from a pod chain to
    COMMON, to DEFAULT or to the chain of a policy. -/
theorem jump_cases {r : Rule} {c : String} (h : r ∈ (buildPlan cfg w family).rules)
    (hj : r.target = .jump c) :
    (r.chain ∈ topChains ∧
      (c = nwplcyTail ∨ ∃ pod ∈ chainPods cfg w family, c = podChain cfg pod)) ∨
    (∃ pod ∈ chainPods cfg w family, r.chain = podChain cfg pod) ∧
      (c = nwplcyCommon ∨ c = nwplcyDefault ∨
        ∃ pol ∈ w.policies, pol.active = true ∧ c = policyChain cfg family pol) := by
  rcases mem_rules h with (h | h | h) | ⟨pol, -, -, h⟩ | ⟨pod, hp, h | ⟨ip, h⟩⟩ | h | h
  · exact absurd hj (commonRules_noJump h c)
  · rw [List.mem_singleton.mp h] at hj
    cases hj
  · rw [(serviceReturns_spec h).2.1] at hj
    cases hj
  · rw [policyPlan_rules] at h
    obtain ⟨conds, -, hr⟩ := List.mem_flatMap.mp h
    rcases (verdictPair_spec hr).2 with ht | ht <;> rw [ht] at hj <;> cases hj
  · exact Or.inr ⟨⟨pod, hp, podChainRules_chain h⟩, podChainRules_jump h hj⟩
  · have htop : r.chain ∈ topChains := by
      simpa [topChains] using interceptRules_chain h
    rw [interceptRules_jump h] at hj
    cases hj
    exact Or.inl ⟨htop, Or.inr ⟨pod, hp, rfl⟩⟩
  · exact absurd hj (tailRules_noJump h c)
  · have htop : r.chain ∈ topChains ∧ r.target = .jump nwplcyTail := by
      rcases mem_tailJumps.mp h with rfl | rfl | rfl <;> simp [topChains, tailJump]
    rw [htop.2] at hj
    cases hj
    exact Or.inl ⟨htop.1, Or.inl rfl⟩

/-- Top-level chains stand above pod chains, pod chains above everything else. -/
def chainRank (cfg : Config) (w : PolicyWorld) (family : IpFamily) (c : String) : Nat :=
  if c ∈ topChains then 2
  else if c ∈ (chainPods cfg w family).map (podChain cfg) then 1
  else 0

theorem podChain_not_top (pod : Pod) : podChain cfg pod ∉ topChains := by
  obtain ⟨hi, hf, ho⟩ : podChain cfg pod ≠ routerInput ∧ podChain cfg pod ≠ routerForward ∧
    podChain cfg pod ≠ routerOutput := podFirewallChain_ne_router
  simp [topChains, hi, hf, ho]

theorem chainRank_pod {pod : Pod} (h : pod ∈ chainPods cfg w family) :
    chainRank cfg w family (podChain cfg pod) = 1 := by
  rw [chainRank, if_neg (podChain_not_top pod), if_pos (List.mem_map_of_mem h)]

/-- COMMON, DEFAULT, TAIL and the policy chains all begin with `KUBE-NWPLCY-`. -/
theorem chainRank_nwplcy (s : String) : chainRank cfg w family (nwplcyPrefix ++ s) = 0 := by
  have htop : nwplcyPrefix ++ s ∉ topChains := by
    intro h
    simp only [topChains, List.mem_cons, List.not_mem_nil, or_false] at h
    rcases h with h | h | h <;>
      simpa [nwplcyPrefix, routerInput, routerForward, routerOutput] using congrArg String.toList h
  have hpod : nwplcyPrefix ++ s ∉ (chainPods cfg w family).map (podChain cfg) := by
    intro h
    obtain ⟨pod, -, hp⟩ := List.mem_map.mp h
    exact podFirewallChain_ne_nwplcy s hp
  rw [chainRank, if_neg htop, if_neg hpod]

theorem buildPlan_acyclic : Filter.Acyclic (buildPlan cfg w family).rules := by
  refine Filter.acyclic_of_rank (chainRank cfg w family) ?_
  intro r hr c hj
  rcases jump_cases hr hj with ⟨htop, hc⟩ | ⟨⟨pod, hp, hchain⟩, hc⟩
  · have h2 : chainRank cfg w family r.chain = 2 := if_pos htop
    rcases hc with rfl | ⟨pod, hp, rfl⟩
    · have h0 : chainRank cfg w family nwplcyTail = 0 := chainRank_nwplcy "TAIL"
      omega
    · have h1 := chainRank_pod hp
      omega
  · have h1 := chainRank_pod hp
    have h0 : chainRank cfg w family c = 0 := by
      rcases hc with rfl | rfl | ⟨pol, -, -, rfl⟩
      · exact chainRank_nwplcy "COMMON"
      · exact chainRank_nwplcy "DEFAULT"
      · exact chainRank_nwplcy _
    rw [hchain]
    omega

/-! ## Order within a chain -/

def JumpsToPod (cfg : Config) (r : Rule) : Prop := ∃ pod, r.target = .jump (podChain cfg pod)

/-- The jump every pod chain begins with. -/
def commonJump (c : String) : Rule := { chain := c, conds := [], target := .jump nwplcyCommon }

theorem input_returns_first :
    Filter.Precedes (·.target = .ret) (JumpsToPod cfg)
      (chainOf (buildPlan cfg w family).rules routerInput) := by
  rw [chainOf_input, List.append_assoc]
  refine Filter.precedes_append ?_ ?_
  · rintro r hr ⟨pod, hj⟩
    rw [(serviceReturns_spec hr).2.1] at hj
    cases hj
  · intro r hr hret
    rcases List.mem_append.mp hr with hr | hr
    · obtain ⟨pod, -, hr⟩ := List.mem_flatMap.mp hr
      obtain ⟨ip, -, hr⟩ := List.mem_flatMap.mp hr
      rw [List.mem_singleton.mp hr] at hret
      cases hret
    · rw [List.mem_singleton.mp hr] at hret
      cases hret

theorem pod_common_first {pod : Pod} (h : pod ∈ chainPods cfg w family) :
    ∃ rest, chainOf (buildPlan cfg w family).rules (podChain cfg pod) =
      commonJump (podChain cfg pod) :: rest := by
  rw [chainOf_pod]
  -- The pod itself is among the pods of its chain, so there is a first one.
  have hmem : pod ∈ (chainPods cfg w family).filter (podChain cfg · == podChain cfg pod) :=
    List.mem_filter.mpr ⟨h, by simp⟩
  cases hpods : (chainPods cfg w family).filter (podChain cfg · == podChain cfg pod) with
  | nil =>
    rw [hpods] at hmem
    exact absurd hmem List.not_mem_nil
  | cons first others =>
    have hfirst : podChain cfg first = podChain cfg pod := by
      have hm : first ∈ (chainPods cfg w family).filter (podChain cfg · == podChain cfg pod) := by
        rw [hpods]
        exact List.mem_cons_self
      simpa using (List.mem_filter.mp hm).2
    rw [List.flatMap_cons, podChainRules, hfirst]
    exact ⟨_, rfl⟩

theorem top_tail_last {c : String} (h : c ∈ topChains) :
    (chainOf (buildPlan cfg w family).rules c).getLast? = some (tailJump c) := by
  simp only [topChains, List.mem_cons, List.not_mem_nil, or_false] at h
  rcases h with rfl | rfl | rfl
  · rw [chainOf_input, List.getLast?_concat]
  · rw [chainOf_forward, List.getLast?_concat]
  · rw [chainOf_output, List.getLast?_concat]

theorem policy_never_accepts (hlen : ∀ s, (cfg.hash16 s).length = hashLen) {pol : NetworkPolicy}
    {r : Rule} (h : r ∈ chainOf (buildPlan cfg w family).rules (policyChain cfg family pol)) :
    r.target ≠ .accept := by
  rw [chainOf_policy hlen] at h
  obtain ⟨p, -, h⟩ := List.mem_flatMap.mp h
  rw [policyPlan_rules] at h
  obtain ⟨conds, -, hr⟩ := List.mem_flatMap.mp h
  rcases (verdictPair_spec hr).2 with ht | ht <;> rw [ht] <;> simp

/-! ## Well-formed plans -/

/-- What the firewall tools and the order of evaluation need of the plan of a family. -/
structure WellFormed (cfg : Config) (w : PolicyWorld) (family : IpFamily) (plan : FirewallPlan) :
    Prop where
  chains : ∀ r ∈ plan.rules, r.chain ∈ plan.chainDecls
  jumps : ∀ r ∈ plan.rules, ∀ c, r.target = .jump c → c ∈ plan.chainDecls
  sets : ∀ r ∈ plan.rules, ∀ k ∈ r.conds, ∀ name, k.setName = some name →
    Planned family plan.ipsets name
  families : ∀ s ∈ plan.ipsets, s.family = family
  acyclic : Filter.Acyclic plan.rules
  returns : Filter.Precedes (·.target = .ret) (JumpsToPod cfg) (chainOf plan.rules routerInput)
  common : ∀ pod ∈ chainPods cfg w family, ∃ rest,
    chainOf plan.rules (podChain cfg pod) = commonJump (podChain cfg pod) :: rest
  policies : ∀ pol, ∀ r ∈ chainOf plan.rules (policyChain cfg family pol), r.target ≠ .accept
  tail : ∀ c ∈ topChains, (chainOf plan.rules c).getLast? = some (tailJump c)

/-- Every plan is well formed, and behind the restores of its sets the document and the builtin
    jumps go through, whatever the kernel held before. -/
theorem buildPlan_wellFormed (cfg : Config) (hlen : ∀ s, (cfg.hash16 s).length = hashLen)
    (w : PolicyWorld) (family : IpFamily) :
    WellFormed cfg w family (buildPlan cfg w family) ∧
      ∀ k k', Ran (setCalls (buildPlan cfg w family).ipsets) k k' →
        ∃ m, Ran (docCalls cfg w family) k' m := by
  refine ⟨?_, fun k k' h => docCalls_ok (sets_in_place h)⟩
  exact {
    chains := fun r hr => (buildPlan_declares hr).chain
    jumps := fun r hr => (buildPlan_declares hr).jump
    sets := fun r hr => (buildPlan_declares hr).set
    families := fun s hs => ipsets_family hs
    acyclic := buildPlan_acyclic
    returns := input_returns_first
    common := fun pod hp => pod_common_first hp
    policies := fun pol r hr => policy_never_accepts hlen hr
    tail := fun c hc => top_tail_last hc }

/-- The plan of the sample shop, with the NodePorts exempted. -/
theorem frontWorld_wellFormed :
    WellFormed { sampleConfig with nodePortRange := some (30000, 32767) } frontWorld .V4
      (buildPlan { sampleConfig with nodePortRange := some (30000, 32767) } frontWorld .V4) :=
  (buildPlan_wellFormed { sampleConfig with nodePortRange := some (30000, 32767) }
    sampleHash_length frontWorld .V4).1

end Plans

end KubeRouter.Netpol
