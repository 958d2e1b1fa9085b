/-
  The shape of a firewall plan: which rules end up in which chain, and that a plan refers to
  nothing it does not itself declare.

  `policyMatches` lists the match conditions of the MARK + RETURN pairs a policy's chain holds,
  both directions, in order; `policyPlan_rules` says the chain is exactly those pairs. From it:
  * `chainOf_policy`, `chainOf_pod`, `chainOf_common`, …: the rules of each chain of
    `buildPlan`. Chains that derive the same name share one rule list, so the policy and pod
    cases range over every object with that chain name; no distinctness is assumed here.
  * `buildPlan_declares`: every jump target and every rule's own chain is declared, every set a
    rule matches is among the plan's sets.
-/
import KubeRouter.Netpol.Synth

namespace KubeRouter.Netpol

open Filter (Mark)

/-! ## Chains as filtered rule lists -/

theorem chainOf_append (a b : List Rule) (c : String) :
    chainOf (a ++ b) c = chainOf a c ++ chainOf b c := List.filter_append ..

theorem chainOf_eq_self {rs : List Rule} {c : String} (h : ∀ r ∈ rs, r.chain = c) :
    chainOf rs c = rs :=
  List.filter_eq_self.mpr fun r hr => by simp [h r hr]

theorem chainOf_eq_nil {rs : List Rule} {c : String} (h : ∀ r ∈ rs, r.chain ≠ c) :
    chainOf rs c = [] :=
  List.filter_eq_nil_iff.mpr fun r hr => by simp [h r hr]

theorem chainOf_flatMap {α : Type} (xs : List α) (f : α → List Rule) (c : String) :
    chainOf (xs.flatMap f) c = xs.flatMap fun x => chainOf (f x) c := List.filter_flatMap ..

/-- When each fragment belongs to one chain, a chain is the fragments that name it. -/
theorem chainOf_flatMap_of_chain {α : Type} (xs : List α) (f : α → List Rule) (g : α → String)
    (h : ∀ x ∈ xs, ∀ r ∈ f x, r.chain = g x) (c : String) :
    chainOf (xs.flatMap f) c = (xs.filter (g · == c)).flatMap f := by
  induction xs with
  | nil => rfl
  | cons x xs ih =>
    have ih' := ih fun y hy => h y (List.mem_cons_of_mem x hy)
    have hx := h x List.mem_cons_self
    rw [List.flatMap_cons, chainOf_append, ih', List.filter_cons]
    by_cases hc : g x = c
    · rw [chainOf_eq_self (fun r hr => (hx r hr).trans hc), if_pos (by simp [hc]),
        List.flatMap_cons]
    · rw [chainOf_eq_nil (fun r hr => by rw [hx r hr]; exact hc), if_neg (by simp [hc]),
        List.nil_append]

/-! ## A policy chain is a list of MARK + RETURN pairs -/

/-- The pair `pushPolicyVerdict` emits for the conditions `conds`. -/
def verdictPair (pchain : String) (conds : List Cond) : List Rule :=
  [{ chain := pchain, conds := conds, target := .setXmark markMatched markMatched },
   { chain := pchain, conds := conds, markTest := some (hasMark markMatched), target := .ret }]

section Matches

variable (cfg : Config) (w : PolicyWorld) (family : IpFamily)

def portMatches (dir : Direction) (pol : NetworkPolicy) (idx : Nat) (recv : List Pod)
    (peerMatch targetMatch : List Cond) (port : PortSpec) : List (List Cond) :=
  match port.port with
  | .all => [peerMatch ++ targetMatch ++ [.proto port.protocol]]
  | .number n => [peerMatch ++ targetMatch ++ [.proto port.protocol, .dport n]]
  | .name name =>
    (namedPortGroups family recv port.protocol name).zipIdx.map fun g =>
      (match dir with | .ingress => peerMatch | .egress => targetMatch) ++
        [.matchSet false (namedPortSet cfg family dir pol idx g.2) .dst] ++
        [.proto port.protocol, .dport g.1.1]

def ruleMatches (dir : Direction) (targetSet : String) (pol : NetworkPolicy) (idx : Nat)
    (rule : PolicyRule) : List (List Cond) :=
  let targetMatch : List Cond := [.matchSet false targetSet dir.targetSide]
  let resolved := resolvePeers rule.peers w.pods w.namespaces pol.ns family
  (peerMatches cfg family dir pol idx resolved).flatMap fun peerMatch =>
    if rule.ports.isEmpty then [peerMatch ++ targetMatch ++ []]
    else rule.ports.flatMap
      (portMatches cfg family dir pol idx
        (receivers w family dir pol resolved) peerMatch targetMatch)

def directionMatches (dir : Direction) (pol : NetworkPolicy) : List (List Cond) :=
  if dir.covers pol then
    (dir.rules pol).zipIdx.flatMap fun r =>
      ruleMatches cfg w family dir (targetSet cfg family dir pol) pol r.2 r.1
  else []

/-- Every match condition of a policy's chain, in order. -/
def policyMatches (pol : NetworkPolicy) : List (List Cond) :=
  directionMatches cfg w family .ingress pol ++ directionMatches cfg w family .egress pol

variable {cfg w family}

theorem emitPort_rules (pchain : String) (dir : Direction) (pol : NetworkPolicy) (idx : Nat)
    (recv : List Pod) (peerMatch targetMatch : List Cond) (port : PortSpec) :
    (emitPort cfg family pchain dir pol idx recv peerMatch targetMatch port).rules =
      (portMatches cfg family dir pol idx recv peerMatch targetMatch port).flatMap
        (verdictPair pchain) := by
  unfold emitPort portMatches
  cases port.port with
  | all => rfl
  | number n => rfl
  | name name =>
    simp only [FirewallPlan.collect, FirewallPlan.append_rules, List.nil_append, List.flatMap_map]
    rfl

theorem emitRule_rules (pchain : String) (dir : Direction) (tset : String) (pol : NetworkPolicy)
    (idx : Nat) (rule : PolicyRule) :
    (emitRule cfg w family pchain dir tset pol idx rule).rules =
      (ruleMatches cfg w family dir tset pol idx rule).flatMap (verdictPair pchain) := by
  unfold emitRule ruleMatches
  simp only [FirewallPlan.append_rules, FirewallPlan.collect, List.nil_append, List.flatMap_assoc]
  congr 1
  funext peerMatch
  by_cases h : rule.ports.isEmpty
  · simp only [if_pos h]
    rfl
  · simp only [if_neg h, List.flatMap_assoc, emitPort_rules]

theorem directionPlan_rules (dir : Direction) (pol : NetworkPolicy) :
    (directionPlan cfg w family dir pol).rules =
      (directionMatches cfg w family dir pol).flatMap
        (verdictPair (policyChain cfg family pol)) := by
  unfold directionPlan directionMatches
  by_cases h : dir.covers pol
  · simp only [if_pos h, FirewallPlan.append_rules, List.nil_append, emitPolicyRules,
      FirewallPlan.collect, emitRule_rules, List.flatMap_assoc]
  · simp only [if_neg h, List.flatMap_nil]

theorem policyPlan_rules (pol : NetworkPolicy) :
    (policyPlan cfg w family pol).rules =
      (policyMatches cfg w family pol).flatMap (verdictPair (policyChain cfg family pol)) := by
  simp only [policyPlan, policyMatches, FirewallPlan.append_rules, List.nil_append,
    directionPlan_rules, List.flatMap_append]

theorem verdictPair_chain {pchain : String} {conds : List Cond} {r : Rule}
    (h : r ∈ verdictPair pchain conds) : r.chain = pchain := by
  simp only [verdictPair, List.mem_cons, List.not_mem_nil, or_false] at h
  rcases h with rfl | rfl <;> rfl

/-- A pair marks and returns; it never accepts and never jumps. -/
theorem verdictPair_spec {pchain : String} {conds : List Cond} {r : Rule}
    (h : r ∈ verdictPair pchain conds) :
    r.conds = conds ∧ (r.target = .setXmark markMatched markMatched ∨ r.target = .ret) := by
  simp only [verdictPair, List.mem_cons, List.not_mem_nil, or_false] at h
  rcases h with rfl | rfl
  · exact ⟨rfl, Or.inl rfl⟩
  · exact ⟨rfl, Or.inr rfl⟩

theorem policyPlan_chain {pol : NetworkPolicy} {r : Rule}
    (h : r ∈ (policyPlan cfg w family pol).rules) : r.chain = policyChain cfg family pol := by
  rw [policyPlan_rules] at h
  obtain ⟨conds, -, hr⟩ := List.mem_flatMap.mp h
  exact verdictPair_chain hr

end Matches

/-! ## Pod chains and intercepts -/

section Pods

variable {cfg : Config} {w : PolicyWorld} {family : IpFamily}

theorem dispatchRules_chain {pod : Pod} {ip : IpAddr} {r : Rule}
    (h : r ∈ dispatchRules cfg w family pod ip) : r.chain = podChain cfg pod := by
  simp only [dispatchRules, List.mem_append, List.mem_map] at h
  rcases h with (⟨pol, -, rfl⟩ | h) | h
  · rfl
  · split at h <;> simp_all [defaultJump]
  · split at h <;> simp_all [defaultJump]

theorem podChainRules_chain {pod : Pod} {r : Rule}
    (h : r ∈ podChainRules cfg w family pod) : r.chain = podChain cfg pod := by
  simp only [podChainRules, List.mem_append, List.mem_map, List.mem_flatMap, List.mem_cons,
    List.not_mem_nil, or_false] at h
  rcases h with ((rfl | ⟨ip, -, rfl⟩) | ⟨ip, -, h⟩) | rfl | rfl | rfl | rfl
  any_goals rfl
  exact dispatchRules_chain h

theorem interceptRules_chain {pod : Pod} {ip : IpAddr} {r : Rule}
    (h : r ∈ interceptRules cfg pod ip) :
    r.chain = routerInput ∨ r.chain = routerForward ∨ r.chain = routerOutput := by
  simp only [interceptRules, List.mem_cons, List.not_mem_nil, or_false] at h
  rcases h with rfl | rfl | rfl | rfl | rfl | rfl | rfl <;> simp

theorem interceptRules_jump {pod : Pod} {ip : IpAddr} {r : Rule}
    (h : r ∈ interceptRules cfg pod ip) : r.target = .jump (podChain cfg pod) := by
  simp only [interceptRules, List.mem_cons, List.not_mem_nil, or_false] at h
  rcases h with rfl | rfl | rfl | rfl | rfl | rfl | rfl <;> rfl

end Pods

/-! ## The rules of each chain -/

section Chains

variable {cfg : Config} {w : PolicyWorld} {family : IpFamily}

theorem commonRules_chain {r : Rule} (h : r ∈ commonRules family) : r.chain = nwplcyCommon := by
  simp only [commonRules, List.mem_append, List.mem_cons, List.mem_map, List.not_mem_nil,
    or_false] at h
  rcases h with (rfl | rfl) | ⟨_, -, rfl⟩ <;> rfl

theorem defaultRules_chain {r : Rule} (h : r ∈ defaultRules) : r.chain = nwplcyDefault := by
  rw [List.mem_singleton.mp h]

theorem serviceReturns_spec {r : Rule} (h : r ∈ serviceReturns cfg family) :
    r.chain = routerInput ∧ r.target = .ret ∧ r.markTest = none := by
  simp only [serviceReturns, List.mem_append, List.mem_map] at h
  rcases h with ⟨_, -, rfl⟩ | h
  · exact ⟨rfl, rfl, rfl⟩
  · split at h
    · obtain ⟨_, -, rfl⟩ := List.mem_map.mp h
      exact ⟨rfl, rfl, rfl⟩
    · exact absurd h List.not_mem_nil

theorem tailRules_chain {r : Rule} (h : r ∈ tailRules cfg family) : r.chain = nwplcyTail := by
  simp only [tailRules, List.mem_append] at h
  rcases h with (h | h) | h
  · split at h
    · obtain ⟨_, -, h⟩ := List.mem_flatMap.mp h
      simp only [List.mem_cons, List.not_mem_nil, or_false] at h
      rcases h with rfl | rfl <;> rfl
    · exact absurd h List.not_mem_nil
  · rw [List.mem_singleton.mp h]
  · split at h
    · obtain ⟨_, -, h⟩ := List.mem_flatMap.mp h
      simp only [List.mem_cons, List.not_mem_nil, or_false] at h
      rcases h with rfl | rfl <;> rfl
    · exact absurd h List.not_mem_nil

theorem tailRules_noJump {r : Rule} (h : r ∈ tailRules cfg family) (c : String) :
    r.target ≠ .jump c := by
  simp only [tailRules, List.mem_append, List.mem_singleton] at h
  rcases h with (h | rfl) | h
  · split at h <;> simp_all [List.mem_flatMap]
    rcases h with ⟨_, -, rfl | rfl⟩ <;> cases family <;> simp [rejectTarget]
  · simp
  · split at h <;> simp_all [List.mem_flatMap]
    rcases h with ⟨_, -, rfl | rfl⟩ <;> cases family <;> simp [rejectTarget]

theorem commonRules_noJump {r : Rule} (h : r ∈ commonRules family) (c : String) :
    r.target ≠ .jump c := by
  simp only [commonRules, List.mem_append, List.mem_cons, List.mem_map, List.not_mem_nil,
    or_false] at h
  rcases h with (rfl | rfl) | ⟨_, -, rfl⟩ <;> simp

/-- The jump every top-level chain ends with. -/
def tailJump (c : String) : Rule := { chain := c, conds := [], target := .jump nwplcyTail }

theorem mem_tailJumps {r : Rule} : r ∈ tailJumps ↔
    r = tailJump routerInput ∨ r = tailJump routerForward ∨ r = tailJump routerOutput := by
  simp [tailJumps, tailJump]

/-- Each chain takes its rules from the parts of the plan, in order. -/
theorem chainOf_buildPlan (c : String) :
    chainOf (buildPlan cfg w family).rules c =
      chainOf (commonRules family) c ++ chainOf defaultRules c ++
      chainOf (serviceReturns cfg family) c ++
      ((w.policies.filter (·.active)).filter (policyChain cfg family · == c)).flatMap
        (fun pol => (policyPlan cfg w family pol).rules) ++
      (chainPods cfg w family).flatMap (fun pod =>
        chainOf (podChainRules cfg w family pod) c ++
          (podFamilyIps pod family).flatMap fun ip => chainOf (interceptRules cfg pod ip) c) ++
      (chainOf (tailRules cfg family) c ++ chainOf tailJumps c) := by
  simp only [buildPlan, FirewallPlan.append_rules, FirewallPlan.collect, chainOf_append,
    chainOf_flatMap, podPlan]
  rw [← chainOf_flatMap, chainOf_flatMap_of_chain _ _ (policyChain cfg family)
    (fun pol _ r hr => policyPlan_chain hr)]

theorem flatMap_eq_nil {α β : Type} {xs : List α} {f : α → List β} (h : ∀ x ∈ xs, f x = []) :
    xs.flatMap f = [] :=
  List.flatMap_eq_nil_iff.mpr h

theorem filter_beq_eq_nil {α : Type} {xs : List α} {g : α → String} {c : String}
    (h : ∀ x ∈ xs, g x ≠ c) : xs.filter (g · == c) = [] :=
  List.filter_eq_nil_iff.mpr fun x hx => by simp [h x hx]

/-- The intercepts stay out of every chain but the three top-level ones. -/
theorem chainOf_interceptRules_ne {pod : Pod} {ip : IpAddr} {c : String}
    (hi : c ≠ routerInput) (hf : c ≠ routerForward) (ho : c ≠ routerOutput) :
    chainOf (interceptRules cfg pod ip) c = [] :=
  chainOf_eq_nil fun r hr h => by
    rcases interceptRules_chain hr with h' | h' | h'
    · exact hi (h.symm.trans h')
    · exact hf (h.symm.trans h')
    · exact ho (h.symm.trans h')

theorem chainOf_tailJumps_ne {c : String} (hi : c ≠ routerInput) (hf : c ≠ routerForward)
    (ho : c ≠ routerOutput) : chainOf tailJumps c = [] :=
  chainOf_eq_nil fun r hr h => by
    rcases mem_tailJumps.mp hr with rfl | rfl | rfl
    · exact hi h.symm
    · exact hf h.symm
    · exact ho h.symm

/-- Below the top-level chains every rule comes from a fixed list, from a policy or from the
    body of a pod chain. -/
theorem chainOf_inner {c : String} (hi : c ≠ routerInput) (hf : c ≠ routerForward)
    (ho : c ≠ routerOutput) :
    chainOf (buildPlan cfg w family).rules c =
      chainOf (commonRules family) c ++ chainOf defaultRules c ++
      ((w.policies.filter (·.active)).filter (policyChain cfg family · == c)).flatMap
        (fun pol => (policyPlan cfg w family pol).rules) ++
      ((chainPods cfg w family).filter (podChain cfg · == c)).flatMap
        (podChainRules cfg w family) ++
      chainOf (tailRules cfg family) c := by
  have hsvc : chainOf (serviceReturns cfg family) c = [] :=
    chainOf_eq_nil fun r hr => by rw [(serviceReturns_spec hr).1]; exact hi.symm
  have hint : ∀ pod, (podFamilyIps pod family).flatMap
      (fun ip => chainOf (interceptRules cfg pod ip) c) = [] := fun pod =>
    flatMap_eq_nil fun ip _ => chainOf_interceptRules_ne hi hf ho
  rw [chainOf_buildPlan, hsvc, chainOf_tailJumps_ne hi hf ho]
  simp only [hint, List.append_nil]
  rw [← chainOf_flatMap, chainOf_flatMap_of_chain _ _ (podChain cfg)
    (fun pod _ r hr => podChainRules_chain hr)]

theorem chainOf_commonRules_ne {c : String} (h : nwplcyCommon ≠ c) :
    chainOf (commonRules family) c = [] :=
  chainOf_eq_nil fun r hr => by rw [commonRules_chain hr]; exact h

theorem chainOf_defaultRules_ne {c : String} (h : nwplcyDefault ≠ c) :
    chainOf defaultRules c = [] :=
  chainOf_eq_nil fun r hr => by rw [defaultRules_chain hr]; exact h

theorem chainOf_tailRules_ne {c : String} (h : nwplcyTail ≠ c) :
    chainOf (tailRules cfg family) c = [] :=
  chainOf_eq_nil fun r hr => by rw [tailRules_chain hr]; exact h

/-- A pod chain: the bodies of every pod with a chain that derives its name. -/
theorem chainOf_pod (pod : Pod) :
    chainOf (buildPlan cfg w family).rules (podChain cfg pod) =
      ((chainPods cfg w family).filter (podChain cfg · == podChain cfg pod)).flatMap
        (podChainRules cfg w family) := by
  obtain ⟨hi, hf, ho⟩ : podChain cfg pod ≠ routerInput ∧ podChain cfg pod ≠ routerForward ∧
    podChain cfg pod ≠ routerOutput := podFirewallChain_ne_router
  obtain ⟨hc, hd, ht⟩ : podChain cfg pod ≠ nwplcyCommon ∧ podChain cfg pod ≠ nwplcyDefault ∧
    podChain cfg pod ≠ nwplcyTail := podFirewallChain_ne_fixed
  have hpol : ∀ pol ∈ w.policies.filter (·.active), policyChain cfg family pol ≠ podChain cfg pod :=
    fun pol _ => (podFirewallChain_ne_nwplcy _).symm
  rw [chainOf_inner hi hf ho, chainOf_commonRules_ne hc.symm, chainOf_defaultRules_ne hd.symm,
    chainOf_tailRules_ne ht.symm, filter_beq_eq_nil hpol]
  simp

section HashLength

variable (hlen : ∀ s, (cfg.hash16 s).length = hashLen)
include hlen

/-- A policy chain: the pairs of every active policy that derives its name. -/
theorem chainOf_policy (pol : NetworkPolicy) :
    chainOf (buildPlan cfg w family).rules (policyChain cfg family pol) =
      ((w.policies.filter (·.active)).filter
        (policyChain cfg family · == policyChain cfg family pol)).flatMap
          fun p => (policyPlan cfg w family p).rules := by
  obtain ⟨hi, hf, ho⟩ : policyChain cfg family pol ≠ routerInput ∧
    policyChain cfg family pol ≠ routerForward ∧ policyChain cfg family pol ≠ routerOutput :=
    networkPolicyChain_ne_router
  obtain ⟨hc, hd, ht⟩ : policyChain cfg family pol ≠ nwplcyCommon ∧
    policyChain cfg family pol ≠ nwplcyDefault ∧ policyChain cfg family pol ≠ nwplcyTail :=
    networkPolicyChain_ne_fixed hlen
  have hpod : ∀ pod ∈ chainPods cfg w family, podChain cfg pod ≠ policyChain cfg family pol :=
    fun pod _ => podFirewallChain_ne_nwplcy _
  rw [chainOf_inner hi hf ho, chainOf_commonRules_ne hc.symm, chainOf_defaultRules_ne hd.symm,
    chainOf_tailRules_ne ht.symm, filter_beq_eq_nil hpod]
  simp

theorem chainOf_common :
    chainOf (buildPlan cfg w family).rules nwplcyCommon = commonRules family := by
  have hpol : ∀ pol ∈ w.policies.filter (·.active), policyChain cfg family pol ≠ nwplcyCommon :=
    fun pol _ => (networkPolicyChain_ne_fixed hlen).1
  have hpod : ∀ pod ∈ chainPods cfg w family, podChain cfg pod ≠ nwplcyCommon :=
    fun pod _ => podFirewallChain_ne_fixed.1
  rw [chainOf_inner (by decide) (by decide) (by decide), filter_beq_eq_nil hpol,
    filter_beq_eq_nil hpod, chainOf_defaultRules_ne (by decide), chainOf_tailRules_ne (by decide),
    chainOf_eq_self fun r hr => commonRules_chain hr]
  simp

theorem chainOf_default : chainOf (buildPlan cfg w family).rules nwplcyDefault = defaultRules := by
  have hpol : ∀ pol ∈ w.policies.filter (·.active), policyChain cfg family pol ≠ nwplcyDefault :=
    fun pol _ => (networkPolicyChain_ne_fixed hlen).2.1
  have hpod : ∀ pod ∈ chainPods cfg w family, podChain cfg pod ≠ nwplcyDefault :=
    fun pod _ => podFirewallChain_ne_fixed.2.1
  rw [chainOf_inner (by decide) (by decide) (by decide), filter_beq_eq_nil hpol,
    filter_beq_eq_nil hpod, chainOf_commonRules_ne (by decide), chainOf_tailRules_ne (by decide),
    chainOf_eq_self fun r hr => defaultRules_chain hr]
  simp

theorem chainOf_tail :
    chainOf (buildPlan cfg w family).rules nwplcyTail = tailRules cfg family := by
  have hpol : ∀ pol ∈ w.policies.filter (·.active), policyChain cfg family pol ≠ nwplcyTail :=
    fun pol _ => (networkPolicyChain_ne_fixed hlen).2.2
  have hpod : ∀ pod ∈ chainPods cfg w family, podChain cfg pod ≠ nwplcyTail :=
    fun pod _ => podFirewallChain_ne_fixed.2.2
  rw [chainOf_inner (by decide) (by decide) (by decide), filter_beq_eq_nil hpol,
    filter_beq_eq_nil hpod, chainOf_commonRules_ne (by decide), chainOf_defaultRules_ne (by decide),
    chainOf_eq_self fun r hr => tailRules_chain hr]
  simp

end HashLength

/-! ## The top-level chains -/

/-- The jumps one address contributes to KUBE-ROUTER-FORWARD. -/
def forwardJumps (cfg : Config) (pod : Pod) (ip : IpAddr) : List Rule :=
  [{ chain := routerForward, conds := [.addr .dst ip], target := .jump (podChain cfg pod) },
   { chain := routerForward, conds := [.physdevIsBridged, .addr .dst ip],
     target := .jump (podChain cfg pod) },
   { chain := routerForward, conds := [.addr .src ip], target := .jump (podChain cfg pod) },
   { chain := routerForward, conds := [.physdevIsBridged, .addr .src ip],
     target := .jump (podChain cfg pod) }]

def outputJumps (cfg : Config) (pod : Pod) (ip : IpAddr) : List Rule :=
  [{ chain := routerOutput, conds := [.addr .dst ip], target := .jump (podChain cfg pod) },
   { chain := routerOutput, conds := [.addr .src ip], target := .jump (podChain cfg pod) }]

def inputJumps (cfg : Config) (pod : Pod) (ip : IpAddr) : List Rule :=
  [{ chain := routerInput, conds := [.addr .src ip], target := .jump (podChain cfg pod) }]

/-- A top-level chain: its service exemptions, its jumps into pod chains, the tail jump. -/
theorem chainOf_router {c : String} (hc : nwplcyCommon ≠ c) (hd : nwplcyDefault ≠ c)
    (ht : nwplcyTail ≠ c) (hpol : ∀ pol, policyChain cfg family pol ≠ c)
    (hpod : ∀ pod, podChain cfg pod ≠ c) (jumps : Pod → IpAddr → List Rule)
    (hj : ∀ pod ip, chainOf (interceptRules cfg pod ip) c = jumps pod ip)
    (htail : chainOf tailJumps c = [tailJump c]) :
    chainOf (buildPlan cfg w family).rules c =
      chainOf (serviceReturns cfg family) c ++
      (chainPods cfg w family).flatMap (fun pod => (podFamilyIps pod family).flatMap (jumps pod)) ++
      [tailJump c] := by
  have hbody : ∀ pod, chainOf (podChainRules cfg w family pod) c = [] := fun pod =>
    chainOf_eq_nil fun r hr => by rw [podChainRules_chain hr]; exact hpod pod
  rw [chainOf_buildPlan, chainOf_commonRules_ne hc, chainOf_defaultRules_ne hd,
    chainOf_tailRules_ne ht, filter_beq_eq_nil fun pol _ => hpol pol, htail]
  simp only [hbody, hj, List.nil_append, List.append_nil, List.flatMap_nil]

theorem chainOf_forward :
    chainOf (buildPlan cfg w family).rules routerForward =
      (chainPods cfg w family).flatMap
        (fun pod => (podFamilyIps pod family).flatMap (forwardJumps cfg pod)) ++
      [tailJump routerForward] := by
  have hsvc : chainOf (serviceReturns cfg family) routerForward = [] :=
    chainOf_eq_nil fun r hr => by rw [(serviceReturns_spec hr).1]; decide
  rw [chainOf_router (by decide) (by decide) (by decide)
    (fun _ => networkPolicyChain_ne_router.2.1) (fun _ => podFirewallChain_ne_router.2.1)
    (forwardJumps cfg) (fun _ _ => rfl) (by decide), hsvc, List.nil_append]

theorem chainOf_output :
    chainOf (buildPlan cfg w family).rules routerOutput =
      (chainPods cfg w family).flatMap
        (fun pod => (podFamilyIps pod family).flatMap (outputJumps cfg pod)) ++
      [tailJump routerOutput] := by
  have hsvc : chainOf (serviceReturns cfg family) routerOutput = [] :=
    chainOf_eq_nil fun r hr => by rw [(serviceReturns_spec hr).1]; decide
  rw [chainOf_router (by decide) (by decide) (by decide)
    (fun _ => networkPolicyChain_ne_router.2.2) (fun _ => podFirewallChain_ne_router.2.2)
    (outputJumps cfg) (fun _ _ => rfl) (by decide), hsvc, List.nil_append]

theorem chainOf_input :
    chainOf (buildPlan cfg w family).rules routerInput =
      serviceReturns cfg family ++
      (chainPods cfg w family).flatMap
        (fun pod => (podFamilyIps pod family).flatMap (inputJumps cfg pod)) ++
      [tailJump routerInput] := by
  rw [chainOf_router (by decide) (by decide) (by decide)
    (fun _ => networkPolicyChain_ne_router.1) (fun _ => podFirewallChain_ne_router.1)
    (inputJumps cfg) (fun _ _ => rfl) (by decide),
    chainOf_eq_self fun r hr => (serviceReturns_spec hr).1]

end Chains

/-! ## A plan declares what it refers to -/

section Closed

variable {cfg : Config} {w : PolicyWorld} {family : IpFamily}

/-- Some set of `sets` is called `name`, and it has the plan's family. -/
def Planned (family : IpFamily) (sets : List IpsetPlan) (name : String) : Prop :=
  ∃ s ∈ sets, s.name = name ∧ s.family = family

theorem Planned.mono {l l' : List IpsetPlan} {name : String} (h : Planned family l name)
    (hs : ∀ s ∈ l, s ∈ l') : Planned family l' name := by
  obtain ⟨s, hm, hn⟩ := h
  exact ⟨s, hs s hm, hn⟩

theorem peerMatches_planned {dir : Direction} {pol : NetworkPolicy} {idx : Nat}
    {resolved : ResolvedPeers} {conds : List Cond} {k : Cond} {name : String}
    (hc : conds ∈ peerMatches cfg family dir pol idx resolved) (hk : k ∈ conds)
    (hn : k.setName = some name) :
    Planned family (peerSets cfg family dir pol idx resolved) name := by
  unfold peerMatches at hc
  unfold peerSets
  cases hall : resolved.matchAll with
  | true =>
    rw [hall, if_pos rfl, List.mem_singleton] at hc
    rw [hc] at hk
    exact absurd hk List.not_mem_nil
  | false =>
    rw [hall, if_neg (by simp), List.mem_append] at hc
    rw [if_neg (by simp)]
    rcases hc with hc | hc
    · split at hc
      · exact absurd hc List.not_mem_nil
      · next he =>
        rw [List.mem_singleton.mp hc, List.mem_singleton] at hk
        subst hk
        rw [if_neg he]
        exact ⟨_, List.mem_append_left _ (List.mem_singleton_self _), Option.some.inj hn, rfl⟩
    · split at hc
      · exact absurd hc List.not_mem_nil
      · next he =>
        rw [List.mem_singleton.mp hc, List.mem_singleton] at hk
        subst hk
        rw [if_neg he]
        exact ⟨_, List.mem_append_right _ (List.mem_singleton_self _), Option.some.inj hn, rfl⟩

/-- A set read by a port's pair is read by its peer match or its target match, or is the
    named-port set pushed beside the pair. -/
theorem portMatches_planned (pchain : String) {dir : Direction} {pol : NetworkPolicy} {idx : Nat}
    {recv : List Pod} {peerMatch targetMatch : List Cond} {port : PortSpec} {conds : List Cond}
    {k : Cond} {name : String}
    (hc : conds ∈ portMatches cfg family dir pol idx recv peerMatch targetMatch port)
    (hk : k ∈ conds) (hn : k.setName = some name) :
    k ∈ peerMatch ∨ k ∈ targetMatch ∨ Planned family
      (emitPort cfg family pchain dir pol idx recv peerMatch targetMatch port).ipsets name := by
  unfold portMatches at hc
  unfold emitPort
  cases hp : port.port with
  | all =>
    simp only [hp, List.mem_singleton] at hc
    subst hc
    simp only [List.mem_append, List.mem_singleton] at hk
    rcases hk with (hk | hk) | rfl
    · exact Or.inl hk
    · exact Or.inr (Or.inl hk)
    · simp [Cond.setName] at hn
  | number n =>
    simp only [hp, List.mem_singleton] at hc
    subst hc
    simp only [List.mem_append, List.mem_cons, List.not_mem_nil, or_false] at hk
    rcases hk with (hk | hk) | rfl | rfl
    · exact Or.inl hk
    · exact Or.inr (Or.inl hk)
    · simp [Cond.setName] at hn
    · simp [Cond.setName] at hn
  | name port =>
    simp only [hp, List.mem_map] at hc
    obtain ⟨g, hg, rfl⟩ := hc
    simp only [List.mem_append, List.mem_cons, List.not_mem_nil, or_false] at hk
    rcases hk with (hk | rfl) | rfl | rfl
    · cases dir with
      | ingress => exact Or.inl hk
      | egress => exact Or.inr (Or.inl hk)
    · obtain rfl : namedPortSet cfg family dir pol idx g.2 = name := Option.some.inj hn
      exact Or.inr (Or.inr ⟨⟨_, family, .hashIp g.1.2.dedup⟩, List.mem_flatMap.mpr
        ⟨g, hg, List.mem_append_left _ (List.mem_singleton_self _)⟩, rfl, rfl⟩)
    · simp [Cond.setName] at hn
    · simp [Cond.setName] at hn

theorem ruleMatches_planned (pchain : String) {dir : Direction} {tset : String}
    {pol : NetworkPolicy} {idx : Nat} {rule : PolicyRule} {conds : List Cond} {k : Cond}
    {name : String} (hc : conds ∈ ruleMatches cfg w family dir tset pol idx rule)
    (hk : k ∈ conds) (hn : k.setName = some name) :
    name = tset ∨
      Planned family (emitRule cfg w family pchain dir tset pol idx rule).ipsets name := by
  unfold ruleMatches at hc
  obtain ⟨peerMatch, hpm, hc⟩ := List.mem_flatMap.mp hc
  -- Either side of the pair was announced: the peers by `peerSets`, the target by its name.
  have hpeer : k ∈ peerMatch → Planned family
      (emitRule cfg w family pchain dir tset pol idx rule).ipsets name := fun hk =>
    (peerMatches_planned hpm hk hn).mono fun s hs => List.mem_append_left _ hs
  have htarget : k ∈ [Cond.matchSet false tset dir.targetSide] → name = tset := fun hk => by
    rw [List.mem_singleton.mp hk] at hn
    exact (Option.some.inj hn).symm
  by_cases hports : rule.ports.isEmpty
  · rw [if_pos hports, List.mem_singleton] at hc
    subst hc
    simp only [List.append_nil, List.mem_append] at hk
    rcases hk with hk | hk
    · exact Or.inr (hpeer hk)
    · exact Or.inl (htarget hk)
  · rw [if_neg hports] at hc
    obtain ⟨port, hport, hc⟩ := List.mem_flatMap.mp hc
    rcases portMatches_planned pchain hc hk hn with hk | hk | hk
    · exact Or.inr (hpeer hk)
    · exact Or.inl (htarget hk)
    · refine Or.inr (hk.mono fun s hs => List.mem_append_right _ ?_)
      refine List.mem_flatMap.mpr ⟨peerMatch, hpm, ?_⟩
      simp only [if_neg hports]
      exact List.mem_flatMap.mpr ⟨port, hport, hs⟩

theorem directionMatches_planned {dir : Direction} {pol : NetworkPolicy} {conds : List Cond}
    {k : Cond} {name : String} (hc : conds ∈ directionMatches cfg w family dir pol)
    (hk : k ∈ conds) (hn : k.setName = some name) :
    Planned family (directionPlan cfg w family dir pol).ipsets name := by
  unfold directionMatches at hc
  unfold directionPlan
  by_cases hcov : dir.covers pol
  · rw [if_pos hcov] at hc ⊢
    obtain ⟨r, hr, hc⟩ := List.mem_flatMap.mp hc
    rcases ruleMatches_planned (policyChain cfg family pol) hc hk hn with rfl | h
    · exact ⟨_, List.mem_append_left _ (List.mem_singleton_self _), rfl, rfl⟩
    · exact h.mono fun s hs => List.mem_append_right _ (List.mem_flatMap.mpr ⟨r, hr, hs⟩)
  · rw [if_neg hcov] at hc
    exact absurd hc List.not_mem_nil

theorem policyMatches_planned {pol : NetworkPolicy} {conds : List Cond} {k : Cond} {name : String}
    (hc : conds ∈ policyMatches cfg w family pol) (hk : k ∈ conds) (hn : k.setName = some name) :
    Planned family (policyPlan cfg w family pol).ipsets name := by
  rcases List.mem_append.mp hc with hc | hc
  · exact (directionMatches_planned hc hk hn).mono fun s hs =>
      List.mem_append_left _ (List.mem_append_right _ hs)
  · exact (directionMatches_planned hc hk hn).mono fun s hs => List.mem_append_right _ hs

/-! ## Where the rules and the sets of a plan come from -/

theorem mem_rules {r : Rule} (h : r ∈ (buildPlan cfg w family).rules) :
    (r ∈ commonRules family ∨ r ∈ defaultRules ∨ r ∈ serviceReturns cfg family) ∨
    (∃ pol ∈ w.policies, pol.active ∧ r ∈ (policyPlan cfg w family pol).rules) ∨
    (∃ pod ∈ chainPods cfg w family, r ∈ podChainRules cfg w family pod ∨
      ∃ ip, r ∈ interceptRules cfg pod ip) ∨
    r ∈ tailRules cfg family ∨ r ∈ tailJumps := by
  simp only [buildPlan, FirewallPlan.append_rules, FirewallPlan.collect, podPlan, List.mem_append,
    List.mem_flatMap, List.mem_filter] at h
  rcases h with ((((h | h) | h) | ⟨pol, ⟨hp, ha⟩, h⟩) | ⟨pod, hpod, h | ⟨ip, -, h⟩⟩) | h | h
  · exact Or.inl (Or.inl h)
  · exact Or.inl (Or.inr (Or.inl h))
  · exact Or.inl (Or.inr (Or.inr h))
  · exact Or.inr (Or.inl ⟨pol, hp, ha, h⟩)
  · exact Or.inr (Or.inr (Or.inl ⟨pod, hpod, Or.inl h⟩))
  · exact Or.inr (Or.inr (Or.inl ⟨pod, hpod, Or.inr ⟨ip, h⟩⟩))
  · exact Or.inr (Or.inr (Or.inr (Or.inl h)))
  · exact Or.inr (Or.inr (Or.inr (Or.inr h)))

def fixedChains : List String :=
  [routerInput, routerForward, routerOutput, nwplcyCommon, nwplcyDefault, nwplcyTail]

theorem fixed_declared {c : String} (h : c ∈ fixedChains) :
    c ∈ (buildPlan cfg w family).chainDecls :=
  List.mem_append_left _ (List.mem_append_left _ (List.mem_append_left _ h))

theorem policyChain_declared {pol : NetworkPolicy} (hp : pol ∈ w.policies)
    (ha : pol.active = true) :
    policyChain cfg family pol ∈ (buildPlan cfg w family).chainDecls :=
  List.mem_append_left _ (List.mem_append_left _ (List.mem_append_right _
    (List.mem_flatMap.mpr ⟨pol, List.mem_filter.mpr ⟨hp, ha⟩,
      List.mem_append_left _ (List.mem_append_left _ (List.mem_singleton_self _))⟩)))

theorem podChain_declared {pod : Pod} (hp : pod ∈ chainPods cfg w family) :
    podChain cfg pod ∈ (buildPlan cfg w family).chainDecls :=
  List.mem_append_left _ (List.mem_append_right _
    (List.mem_flatMap.mpr ⟨pod, hp, List.mem_singleton_self _⟩))

theorem policy_ipset_mem {pol : NetworkPolicy} (hp : pol ∈ w.policies) (ha : pol.active = true)
    {s : IpsetPlan} (hs : s ∈ (policyPlan cfg w family pol).ipsets) :
    s ∈ (buildPlan cfg w family).ipsets :=
  List.mem_append_left _ (List.mem_append_left _ (List.mem_append_right _
    (List.mem_flatMap.mpr ⟨pol, List.mem_filter.mpr ⟨hp, ha⟩, hs⟩)))

/-- The sets a direction of a policy can push: its own pods; per rule the peer pods, the
    ipBlock peers, and one set per number a port name resolves to. -/
inductive PolicySet (cfg : Config) (w : PolicyWorld) (family : IpFamily) (dir : Direction)
    (pol : NetworkPolicy) : IpsetPlan → Prop
  | target : PolicySet cfg w family dir pol
      ⟨targetSet cfg family dir pol, family, .hashIp (selectedIps w family pol)⟩
  | pod (rule : PolicyRule) (idx : Nat) (hr : (rule, idx) ∈ (dir.rules pol).zipIdx) :
      PolicySet cfg w family dir pol ⟨podSet cfg family dir pol idx, family,
        .hashIp (resolvePeers rule.peers w.pods w.namespaces pol.ns family).ipEntries⟩
  | ipblock (rule : PolicyRule) (idx : Nat) (hr : (rule, idx) ∈ (dir.rules pol).zipIdx) :
      PolicySet cfg w family dir pol ⟨ipblockSet cfg family dir pol idx, family,
        .hashNet (resolvePeers rule.peers w.pods w.namespaces pol.ns family).netEntries⟩
  | namedPort (idx : Nat) (recv : List Pod) (protocol name : String)
      (g : (UInt16 × List IpAddr) × Nat)
      (hg : g ∈ (namedPortGroups family recv protocol name).zipIdx) :
      PolicySet cfg w family dir pol
        ⟨namedPortSet cfg family dir pol idx g.2, family, .hashIp g.1.2.dedup⟩

theorem emitPort_set {pchain : String} {dir : Direction} {pol : NetworkPolicy} {idx : Nat}
    {recv : List Pod} {peerMatch targetMatch : List Cond} {port : PortSpec} {s : IpsetPlan}
    (h : s ∈ (emitPort cfg family pchain dir pol idx recv peerMatch targetMatch port).ipsets) :
    PolicySet cfg w family dir pol s := by
  unfold emitPort at h
  cases hp : port.port with
  | all => simp [hp, pushPolicyVerdict] at h
  | number n => simp [hp, pushPolicyVerdict] at h
  | name n =>
    simp only [hp, FirewallPlan.collect, FirewallPlan.append_ipsets, pushPolicyVerdict,
      List.append_nil, List.mem_flatMap, List.mem_singleton] at h
    obtain ⟨g, hg, rfl⟩ := h
    exact .namedPort idx recv port.protocol n g hg

theorem emitRule_set {pchain : String} {dir : Direction} {tset : String} {pol : NetworkPolicy}
    {idx : Nat} {rule : PolicyRule} {s : IpsetPlan} (hr : (rule, idx) ∈ (dir.rules pol).zipIdx)
    (h : s ∈ (emitRule cfg w family pchain dir tset pol idx rule).ipsets) :
    PolicySet cfg w family dir pol s := by
  simp only [emitRule, FirewallPlan.append_ipsets, FirewallPlan.collect, List.mem_append,
    List.mem_flatMap] at h
  rcases h with h | ⟨peerMatch, -, h⟩
  · unfold peerSets at h
    split at h
    · exact absurd h List.not_mem_nil
    · rcases List.mem_append.mp h with h | h <;> split at h
      any_goals exact absurd h List.not_mem_nil
      · rw [List.mem_singleton.mp h]
        exact .pod rule idx hr
      · rw [List.mem_singleton.mp h]
        exact .ipblock rule idx hr
  · split at h
    · exact absurd h List.not_mem_nil
    · obtain ⟨port, -, h⟩ := List.mem_flatMap.mp h
      exact emitPort_set h

theorem directionPlan_set {dir : Direction} {pol : NetworkPolicy} {s : IpsetPlan}
    (h : s ∈ (directionPlan cfg w family dir pol).ipsets) :
    dir.covers pol = true ∧ PolicySet cfg w family dir pol s := by
  unfold directionPlan at h
  split at h
  · next hcov =>
    refine ⟨hcov, ?_⟩
    rcases List.mem_append.mp h with h | h
    · rw [List.mem_singleton.mp h]
      exact .target
    · obtain ⟨r, hr, h⟩ := List.mem_flatMap.mp h
      exact emitRule_set hr h
  · exact absurd h List.not_mem_nil

theorem PolicySet.family_eq {dir : Direction} {pol : NetworkPolicy} {s : IpsetPlan}
    (h : PolicySet cfg w family dir pol s) : s.family = family := by
  cases h <;> rfl

theorem mem_ipsets {s : IpsetPlan} (h : s ∈ (buildPlan cfg w family).ipsets) :
    (∃ pol ∈ w.policies, pol.active ∧ ∃ dir, s ∈ (directionPlan cfg w family dir pol).ipsets) ∨
      (cfg.defaultDeny = true ∧
        s = ⟨localPodsSet family, family, .hashIp (programmedIps cfg w family)⟩) := by
  simp only [buildPlan, FirewallPlan.append_ipsets, FirewallPlan.collect, podPlan, List.mem_append,
    List.mem_flatMap, List.mem_filter, List.not_mem_nil, and_false, exists_false, or_false,
    false_or] at h
  rcases h with ⟨pol, ⟨hp, ha⟩, h⟩ | h
  · simp only [policyPlan, FirewallPlan.append_ipsets, List.nil_append, List.mem_append] at h
    rcases h with h | h
    · exact Or.inl ⟨pol, hp, ha, .ingress, h⟩
    · exact Or.inl ⟨pol, hp, ha, .egress, h⟩
  · split at h
    · next hd => exact Or.inr ⟨hd, List.mem_singleton.mp h⟩
    · exact absurd h List.not_mem_nil

/-- All sets of a plan belong to the plan's family. -/
theorem ipsets_family {s : IpsetPlan} (h : s ∈ (buildPlan cfg w family).ipsets) :
    s.family = family := by
  rcases mem_ipsets h with ⟨pol, -, -, dir, h⟩ | ⟨-, rfl⟩
  · exact (directionPlan_set h).2.family_eq
  · rfl

/-- The plan declares the chain of `r`, the chain it jumps to and the sets it matches. -/
structure Declares (family : IpFamily) (plan : FirewallPlan) (r : Rule) : Prop where
  chain : r.chain ∈ plan.chainDecls
  jump : ∀ c, r.target = .jump c → c ∈ plan.chainDecls
  set : ∀ k ∈ r.conds, ∀ name, k.setName = some name → Planned family plan.ipsets name

/-- A rule without set matches refers to chains only. -/
theorem Declares.of_noSet {plan : FirewallPlan} {r : Rule} (hc : r.chain ∈ plan.chainDecls)
    (hj : ∀ c, r.target = .jump c → c ∈ plan.chainDecls)
    (hn : ∀ k ∈ r.conds, k.setName = none) : Declares family plan r :=
  ⟨hc, hj, fun k hk name h => by rw [hn k hk] at h; cases h⟩

theorem fixed_rule_noSet {r : Rule} (h : r ∈ commonRules family ∨ r ∈ defaultRules ∨
    r ∈ serviceReturns cfg family) : ∀ k ∈ r.conds, k.setName = none := by
  rcases h with h | h | h
  · simp only [commonRules, List.mem_append, List.mem_cons, List.mem_map, List.not_mem_nil,
      or_false] at h
    rcases h with (rfl | rfl) | ⟨_, -, rfl⟩ <;> simp [Cond.setName]
  · rw [List.mem_singleton.mp h]
    simp
  · simp only [serviceReturns, List.mem_append, List.mem_map] at h
    rcases h with ⟨_, -, rfl⟩ | h
    · simp [Cond.setName]
    · split at h
      · obtain ⟨_, -, rfl⟩ := List.mem_map.mp h
        simp [nodePortReturn, Cond.setName]
      · exact absurd h List.not_mem_nil

theorem fixed_rule_declares {r : Rule} (h : r ∈ commonRules family ∨ r ∈ defaultRules ∨
    r ∈ serviceReturns cfg family) : Declares family (buildPlan cfg w family) r := by
  have hset := fixed_rule_noSet h
  rcases h with h | h | h
  · refine .of_noSet (by rw [commonRules_chain h]; exact fixed_declared (by decide)) ?_ hset
    exact fun c hj => absurd hj (commonRules_noJump h c)
  · refine .of_noSet (by rw [defaultRules_chain h]; exact fixed_declared (by decide)) ?_ hset
    rw [List.mem_singleton.mp h]
    simp
  · obtain ⟨hc, ht, -⟩ := serviceReturns_spec h
    exact .of_noSet (by rw [hc]; exact fixed_declared (by decide)) (by simp [ht]) hset

theorem policy_rule_declares {pol : NetworkPolicy} (hp : pol ∈ w.policies) (ha : pol.active = true)
    {r : Rule} (h : r ∈ (policyPlan cfg w family pol).rules) :
    Declares family (buildPlan cfg w family) r := by
  have hchain := policyPlan_chain h
  rw [policyPlan_rules] at h
  obtain ⟨conds, hc, hr⟩ := List.mem_flatMap.mp h
  obtain ⟨hconds, htarget⟩ := verdictPair_spec hr
  refine ⟨by rw [hchain]; exact policyChain_declared hp ha, fun c hj => ?_, fun k hk name hn => ?_⟩
  · rcases htarget with ht | ht <;> rw [ht] at hj <;> cases hj
  rw [hconds] at hk
  exact (policyMatches_planned hc hk hn).mono fun s hs => policy_ipset_mem hp ha hs

theorem selecting_spec {pod : Pod} {pol : NetworkPolicy} (h : pol ∈ selecting w pod) :
    pol ∈ w.policies ∧ pol.active = true ∧ policySelects pol pod = true := by
  obtain ⟨hm, hp⟩ := List.mem_filter.mp h
  exact ⟨hm, by simpa using hp⟩

theorem dispatchRules_noSet {pod : Pod} {ip : IpAddr} {r : Rule}
    (h : r ∈ dispatchRules cfg w family pod ip) : ∀ k ∈ r.conds, k.setName = none := by
  simp only [dispatchRules, List.mem_append, List.mem_map] at h
  rcases h with (⟨pol, -, rfl⟩ | h) | h
  · intro k hk
    simp only [policyJump] at hk
    split at hk <;> simp_all [Cond.setName]
  · split at h
    · exact absurd h List.not_mem_nil
    · rw [List.mem_singleton.mp h]
      simp [defaultJump, Cond.setName]
  · split at h
    · exact absurd h List.not_mem_nil
    · rw [List.mem_singleton.mp h]
      simp [defaultJump, Cond.setName]

theorem dispatchRules_jump {pod : Pod} {ip : IpAddr} {r : Rule} {c : String}
    (h : r ∈ dispatchRules cfg w family pod ip) (hj : r.target = .jump c) :
    c = nwplcyDefault ∨ ∃ pol ∈ w.policies, pol.active = true ∧ c = policyChain cfg family pol := by
  simp only [dispatchRules, List.mem_append, List.mem_map] at h
  rcases h with (⟨pol, hpol, rfl⟩ | h) | h
  · cases hj
    obtain ⟨hm, ha, -⟩ := selecting_spec hpol
    exact Or.inr ⟨pol, hm, ha, rfl⟩
  -- A direction some policy covers pushes no DEFAULT jump.
  · split at h
    · exact absurd h List.not_mem_nil
    · rw [List.mem_singleton.mp h] at hj
      cases hj
      exact Or.inl rfl
  · split at h
    · exact absurd h List.not_mem_nil
    · rw [List.mem_singleton.mp h] at hj
      cases hj
      exact Or.inl rfl

theorem podChainRules_noSet {pod : Pod} {r : Rule} (h : r ∈ podChainRules cfg w family pod) :
    ∀ k ∈ r.conds, k.setName = none := by
  simp only [podChainRules, List.mem_append, List.mem_map, List.mem_flatMap, List.mem_cons,
    List.not_mem_nil, or_false] at h
  rcases h with ((rfl | ⟨ip, -, rfl⟩) | ⟨ip, -, h⟩) | rfl | rfl | rfl | rfl
  · simp
  · simp [Cond.setName]
  · exact dispatchRules_noSet h
  · simp [Cond.setName]
  · simp
  · simp
  · simp

theorem podChainRules_jump {pod : Pod} {r : Rule} {c : String}
    (h : r ∈ podChainRules cfg w family pod) (hj : r.target = .jump c) :
    c = nwplcyCommon ∨ c = nwplcyDefault ∨
      ∃ pol ∈ w.policies, pol.active = true ∧ c = policyChain cfg family pol := by
  simp only [podChainRules, List.mem_append, List.mem_map, List.mem_flatMap, List.mem_cons,
    List.not_mem_nil, or_false] at h
  rcases h with ((rfl | ⟨ip, -, rfl⟩) | ⟨ip, -, h⟩) | rfl | rfl | rfl | rfl
  · cases hj
    exact Or.inl rfl
  · cases hj
  · exact Or.inr (dispatchRules_jump h hj)
  · cases hj
  · cases family <;> cases hj
  · cases hj
  · cases hj

theorem pod_rule_declares {pod : Pod} (hp : pod ∈ chainPods cfg w family) {r : Rule}
    (h : r ∈ podChainRules cfg w family pod) : Declares family (buildPlan cfg w family) r := by
  refine .of_noSet (by rw [podChainRules_chain h]; exact podChain_declared hp) ?_
    (podChainRules_noSet h)
  intro c hj
  rcases podChainRules_jump h hj with rfl | rfl | ⟨pol, hm, ha, rfl⟩
  · exact fixed_declared (by decide)
  · exact fixed_declared (by decide)
  · exact policyChain_declared hm ha

theorem interceptRules_noSet {pod : Pod} {ip : IpAddr} {r : Rule}
    (h : r ∈ interceptRules cfg pod ip) : ∀ k ∈ r.conds, k.setName = none := by
  simp only [interceptRules, List.mem_cons, List.not_mem_nil, or_false] at h
  rcases h with rfl | rfl | rfl | rfl | rfl | rfl | rfl <;> simp [Cond.setName]

theorem intercept_rule_declares {pod : Pod} (hp : pod ∈ chainPods cfg w family) {ip : IpAddr}
    {r : Rule} (h : r ∈ interceptRules cfg pod ip) :
    Declares family (buildPlan cfg w family) r := by
  have hchain : r.chain ∈ (buildPlan cfg w family).chainDecls := by
    rcases interceptRules_chain h with h | h | h <;> rw [h] <;> exact fixed_declared (by decide)
  have hjump : ∀ c, r.target = .jump c → c = podChain cfg pod := by
    intro c hc
    rw [interceptRules_jump h] at hc
    cases hc
    rfl
  exact .of_noSet hchain (fun c hc => hjump c hc ▸ podChain_declared hp) (interceptRules_noSet h)

theorem localPods_planned (hdeny : cfg.defaultDeny = true) :
    (⟨localPodsSet family, family, .hashIp (programmedIps cfg w family)⟩ : IpsetPlan) ∈
      (buildPlan cfg w family).ipsets := by
  refine List.mem_append_right _ ?_
  simp [hdeny]

/-- Only the default-deny rules match a set. -/
theorem tailRules_set {r : Rule} {k : Cond} {name : String} (h : r ∈ tailRules cfg family)
    (hk : k ∈ r.conds) (hn : k.setName = some name) :
    cfg.defaultDeny = true ∧ name = localPodsSet family := by
  simp only [tailRules, List.mem_append, List.mem_singleton] at h
  rcases h with (h | rfl) | h
  · split at h
    · next hd =>
      obtain ⟨_, -, h⟩ := List.mem_flatMap.mp h
      simp only [List.mem_cons, List.not_mem_nil, or_false] at h
      rcases h with rfl | rfl <;> simp only [List.mem_cons, List.not_mem_nil, or_false] at hk <;>
        rcases hk with rfl | rfl <;> simp_all [Cond.setName]
    · exact absurd h List.not_mem_nil
  · exact absurd hk List.not_mem_nil
  · split at h
    · obtain ⟨_, -, h⟩ := List.mem_flatMap.mp h
      simp only [List.mem_cons, List.not_mem_nil, or_false] at h
      rcases h with rfl | rfl <;> rw [List.mem_singleton.mp hk] at hn <;>
        simp [Cond.setName] at hn
    · exact absurd h List.not_mem_nil

theorem tail_rule_declares {r : Rule} (h : r ∈ tailRules cfg family) :
    Declares family (buildPlan cfg w family) r := by
  refine ⟨by rw [tailRules_chain h]; exact fixed_declared (by decide),
    fun c hj => absurd hj (tailRules_noJump h c), fun k hk name hn => ?_⟩
  obtain ⟨hdeny, rfl⟩ := tailRules_set h hk hn
  exact ⟨_, localPods_planned hdeny, rfl, rfl⟩

/-- A plan refers to nothing it does not itself declare. -/
theorem buildPlan_declares {r : Rule} (h : r ∈ (buildPlan cfg w family).rules) :
    Declares family (buildPlan cfg w family) r := by
  rcases mem_rules h with h | ⟨pol, hp, ha, h⟩ | ⟨pod, hp, h | ⟨ip, h⟩⟩ | h | h
  · exact fixed_rule_declares h
  · exact policy_rule_declares hp ha h
  · exact pod_rule_declares hp h
  · exact intercept_rule_declares hp h
  · exact tail_rule_declares h
  · rcases mem_tailJumps.mp h with rfl | rfl | rfl <;>
      exact .of_noSet (fixed_declared (by decide))
        (by rintro c ⟨⟩; exact fixed_declared (by decide)) (by simp [tailJump])

end Closed

end KubeRouter.Netpol
