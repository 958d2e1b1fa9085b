/-
  What passes of the firewall controller leave in the kernel, whatever their configurations,
  families and worlds were and however they ended.

  Passes add chains, sets and jumps and never take one away, so the footprint grows along a run;
  its shape does not: which chains there are, who jumps where, who matches which set, and what
  must be there before a pod chain is.

  Proved:
  * `footprint_of_passes`: the shape holds after every run of passes.
  * `runPasses_named`: every set and every chain is one of a plan of the run.
-/
import KubeRouter.Netpol.WellFormed

namespace KubeRouter.Netpol

/-! ## Names by prefix -/

/-- `str::starts_with`. -/
def startsWith (s pre : String) : Bool := pre.toList.isPrefixOf s.toList

@[simp] theorem startsWith_append (pre s : String) : startsWith (pre ++ s) pre = true := by
  simp [startsWith]

def isPodChain (c : String) : Bool := startsWith c podFwPrefix

/-- The chain of a policy, or COMMON, DEFAULT or TAIL. -/
def isPolicyChain (c : String) : Bool := startsWith c nwplcyPrefix

def isPolicySet (n : String) : Bool := startsWith n srcPrefix || startsWith n dstPrefix

theorem not_pod_of_policy {c : String} (h : isPolicyChain c = true) : isPodChain c = false := by
  rw [Bool.eq_false_iff]
  intro hpod
  have hpre := List.prefix_of_prefix_length_le (List.isPrefixOf_iff_prefix.mp h)
    (List.isPrefixOf_iff_prefix.mp hpod) (by decide)
  exact absurd hpre (by decide)

theorem isPodChain_podChain (cfg : Config) (pod : Pod) : isPodChain (podChain cfg pod) = true :=
  startsWith_append _ _

theorem isPolicyChain_policyChain (cfg : Config) (family : IpFamily) (pol : NetworkPolicy) :
    isPolicyChain (policyChain cfg family pol) = true := startsWith_append _ _

theorem isPolicySet_name (cfg : Config) (family : IpFamily) (pol : NetworkPolicy) (k : SetKind) :
    isPolicySet (k.name cfg family pol) = true := by
  rw [k.name_eq, isPolicySet]
  rcases k.side_eq with h | h <;> rw [h] <;> simp

/-! ## Shape of a plan -/

section Plan

variable {cfg : Config} {w : PolicyWorld} {family : IpFamily}

theorem collect_noDecls {α : Type} {xs : List α} {f : α → FirewallPlan}
    (h : ∀ x, (f x).chainDecls = []) : (FirewallPlan.collect xs f).chainDecls = [] := by
  simp [FirewallPlan.collect, h]

theorem emitPort_noDecls (pchain : String) (dir : Direction) (pol : NetworkPolicy) (idx : Nat)
    (recv : List Pod) (peerMatch targetMatch : List Cond) (port : PortSpec) :
    (emitPort cfg family pchain dir pol idx recv peerMatch targetMatch port).chainDecls = [] := by
  unfold emitPort
  split
  · rfl
  · rfl
  · exact collect_noDecls fun g => rfl

/-- Only the policy itself declares a chain. -/
theorem directionPlan_noDecls (dir : Direction) (pol : NetworkPolicy) :
    (directionPlan cfg w family dir pol).chainDecls = [] := by
  unfold directionPlan
  split
  · rw [FirewallPlan.append_chainDecls, List.nil_append]
    refine collect_noDecls fun r => ?_
    rw [emitRule, FirewallPlan.append_chainDecls, List.nil_append]
    refine collect_noDecls fun peerMatch => ?_
    split
    · rfl
    · exact collect_noDecls (emitPort_noDecls _ dir pol r.2 _ peerMatch _)
  · rfl

theorem chainDecls_shape {c : String} (h : c ∈ (buildPlan cfg w family).chainDecls) :
    c ∈ topChains ∨ isPolicyChain c = true ∨
      ∃ pod ∈ chainPods cfg w family, c = podChain cfg pod := by
  simp only [buildPlan, FirewallPlan.append_chainDecls, FirewallPlan.collect, List.mem_append,
    List.mem_flatMap, List.mem_filter, List.not_mem_nil, or_false] at h
  rcases h with (h | ⟨pol, -, h⟩) | ⟨pod, hpod, h⟩
  · simp only [List.mem_cons, List.not_mem_nil, or_false] at h
    rcases h with rfl | rfl | rfl | rfl | rfl | rfl
    · exact Or.inl (by decide)
    · exact Or.inl (by decide)
    · exact Or.inl (by decide)
    · exact Or.inr (Or.inl (by decide))
    · exact Or.inr (Or.inl (by decide))
    · exact Or.inr (Or.inl (by decide))
  · have hc : c = policyChain cfg family pol := by
      rw [policyPlan, FirewallPlan.append_chainDecls, FirewallPlan.append_chainDecls,
        directionPlan_noDecls, directionPlan_noDecls, List.append_nil, List.append_nil] at h
      exact List.mem_singleton.mp h
    rw [hc]
    exact Or.inr (Or.inl (isPolicyChain_policyChain cfg family pol))
  · exact Or.inr (Or.inr ⟨pod, hpod, List.mem_singleton.mp h⟩)

/-- A pod with a chain has a policy, and the policy a set. -/
theorem chainPods_set {pod : Pod} (h : pod ∈ chainPods cfg w family) :
    ∃ s ∈ (buildPlan cfg w family).ipsets, isPolicySet s.name = true := by
  have hsel : ∃ pol, pol ∈ selecting w pod := by
    have hne : ¬ (selecting w pod).isEmpty = true := by
      simpa using ((Bool.and_eq_true _ _).mp (List.mem_filter.mp h).2).2
    exact List.exists_mem_of_ne_nil _ (by simpa using hne)
  obtain ⟨pol, hpol⟩ := hsel
  obtain ⟨hm, ha, -⟩ := selecting_spec hpol
  have htarget : ∃ dir : Direction, dir.covers pol = true := by
    rcases (Bool.or_eq_true _ _).mp ha with hi | he
    · exact ⟨.ingress, hi⟩
    · exact ⟨.egress, he⟩
  obtain ⟨dir, hcov⟩ := htarget
  exact ⟨_, pushed_mem hm hcov .target, isPolicySet_name cfg family pol (.target dir)⟩

/-- Who jumps where and who matches which set. -/
structure RuleShape (family : IpFamily) (c : String) (r : Rule) : Prop where
  jump : ∀ d, r.target = .jump d →
    (c ∈ topChains ∧ (d = nwplcyTail ∨ isPodChain d = true)) ∨
      (isPodChain c = true ∧ isPolicyChain d = true)
  set : ∀ cond ∈ r.conds, ∀ n, cond.setName = some n →
    isPolicySet n = true ∨ (c = nwplcyTail ∧ n = localPodsSet family)

theorem buildPlan_ruleShape {r : Rule} (h : r ∈ (buildPlan cfg w family).rules) :
    RuleShape family r.chain r where
  jump := by
    intro d hd
    rcases jump_cases h hd with ⟨htop, rfl | ⟨pod, -, rfl⟩⟩ | ⟨⟨pod, -, hpod⟩, hto⟩
    · exact Or.inl ⟨htop, Or.inl rfl⟩
    · exact Or.inl ⟨htop, Or.inr (isPodChain_podChain cfg pod)⟩
    · refine Or.inr ⟨hpod ▸ isPodChain_podChain cfg pod, ?_⟩
      rcases hto with rfl | rfl | ⟨pol, -, -, rfl⟩
      · decide
      · decide
      · exact isPolicyChain_policyChain cfg family pol
  set := by
    intro cond hcond n hn
    have hnone : (∀ k ∈ r.conds, k.setName = none) → False := by
      intro hno
      rw [hno cond hcond] at hn
      cases hn
    rcases mem_rules h with h | ⟨pol, hp, ha, h⟩ | ⟨pod, hp, h | ⟨ip, h⟩⟩ | h | h
    · exact absurd (fixed_rule_noSet h) hnone
    · rw [policyPlan_rules] at h
      obtain ⟨conds, hc, hr⟩ := List.mem_flatMap.mp h
      rw [(verdictPair_spec hr).1] at hcond
      obtain ⟨s, hs, rfl, -⟩ := policyMatches_planned hc hcond hn
      obtain ⟨k, hk⟩ := policyPlan_kind hs
      rw [hk]
      exact Or.inl (isPolicySet_name cfg family pol k)
    · exact absurd (podChainRules_noSet h) hnone
    · exact absurd (interceptRules_noSet h) hnone
    · exact Or.inr ⟨tailRules_chain h, (tailRules_set h hcond hn).2⟩
    · rcases mem_tailJumps.mp h with rfl | rfl | rfl <;> exact absurd hcond List.not_mem_nil

end Plan

/-! ## Shape of the kernel -/

/-- The builtin chains with the chains they are hooked to. -/
def hooks : List (String × String) :=
  [("INPUT", routerInput), ("FORWARD", routerForward), ("OUTPUT", routerOutput)]

theorem hooks_unique {b t t' : String} (h : (b, t) ∈ hooks) (h' : (b, t') ∈ hooks) : t = t' := by
  simp only [hooks, List.mem_cons, List.not_mem_nil, or_false, Prod.mk.injEq] at h h'
  rcases h with ⟨rfl, rfl⟩ | ⟨rfl, rfl⟩ | ⟨rfl, rfl⟩ <;> simpa [eq_comm] using h'

structure Footprint (k : Kernel) : Prop where
  chain : ∀ family c, (k.chains family c).isSome = true →
    c ∈ topChains ∨ isPolicyChain c = true ∨ isPodChain c = true
  rule : ∀ family c rs, k.chains family c = some rs → ∀ r ∈ rs, RuleShape family c r
  /-- All top-level chains come with the first document. -/
  top : ∀ family c, (k.chains family c).isSome = true → ∀ t ∈ topChains,
    (k.chains family t).isSome = true
  /-- The sets of a document are restored in front of it. -/
  pods : ∀ family c, (k.chains family c).isSome = true → isPodChain c = true →
    ∃ n, (k.sets n).isSome = true ∧ isPolicySet n = true
  hook : ∀ family b, k.builtin family b = [] ∨
    ∃ t, k.builtin family b = [t] ∧ (b, t) ∈ hooks ∧ (k.chains family t).isSome = true

theorem footprint_clean : Footprint .clean where
  chain := fun _ _ h => by cases h
  rule := fun _ _ _ h => by cases h
  top := fun _ _ h => by cases h
  pods := fun _ _ h => by cases h
  hook := fun _ _ => Or.inl rfl

section Pass

variable {cfg : Config} {w : PolicyWorld} {f : IpFamily} {k k' : Kernel}

/-- A restore takes no policy set away. -/
theorem restored_keeps {t : SetTable} {set n : String} {fam : IpFamily} {body : SetBody}
    (hn : isPolicySet n = true) (h : (t n).isSome = true) :
    (restored t set fam body n).isSome = true := by
  by_cases hset : n = set
  · rw [hset, restored_self]
    rfl
  · have htmp : n ≠ tmpName set := by
      intro heq
      rw [heq] at hn
      simp [isPolicySet, startsWith, tmpName, srcPrefix, dstPrefix] at hn
    rw [restored_other hset htmp]
    exact h

theorem Footprint.restore (h : Footprint k) {s : IpsetPlan}
    (hexec :
      (ToolCall.ipsetRestore (buildRestorePayload s.name s.family s.body)).exec k = some k') :
    Footprint k' := by
  obtain ⟨-, -, -, rfl⟩ := restore_call_exec.mp hexec
  refine ⟨h.chain, h.rule, h.top, ?_, h.hook⟩
  intro family c hc hpod
  obtain ⟨n, hn, hpol⟩ := h.pods family c hc hpod
  exact ⟨n, restored_keeps hpol hn, hpol⟩

section Document

variable (hexec : (ToolCall.restoreFilter f (buildPlan cfg w f).chainDecls
  (buildPlan cfg w f).rules).exec k = some k')

include hexec

theorem document_builtin : k'.builtin = k.builtin := by
  simp only [ToolCall.exec] at hexec
  obtain ⟨-, hk⟩ := Option.ite_none_right_eq_some.mp hexec
  rw [← Option.some.inj hk]

/-- A chain behind the document is one of its own, or as it was. -/
theorem document_chain {family : IpFamily} {c : String} {rs : List Rule}
    (h : k'.chains family c = some rs) :
    (family = f ∧ c ∈ (buildPlan cfg w f).chainDecls ∧ rs = chainOf (buildPlan cfg w f).rules c) ∨
      k.chains family c = some rs := by
  rw [(restoreFilter_exec hexec).2] at h
  by_cases hf : family = f
  · subst hf
    rw [Function.update_self, restoreChains] at h
    by_cases hdecl : c ∈ (buildPlan cfg w family).chainDecls
    · rw [if_pos hdecl] at h
      exact Or.inl ⟨rfl, hdecl, (Option.some.inj h).symm⟩
    · rw [if_neg hdecl] at h
      have hnil : chainOf (buildPlan cfg w family).rules c = [] :=
        chainOf_eq_nil fun r hr heq => hdecl (heq ▸ (buildPlan_declares hr).chain)
      rw [hnil] at h
      exact Or.inr (by simpa using h)
  · rw [Function.update_of_ne hf] at h
    exact Or.inr h

theorem document_keeps {family : IpFamily} {c : String} (h : (k.chains family c).isSome = true) :
    (k'.chains family c).isSome = true := by
  rw [(restoreFilter_exec hexec).2]
  by_cases hf : family = f
  · subst hf
    rw [Function.update_self, restoreChains, Option.isSome_map]
    split
    · rfl
    · exact h
  · rw [Function.update_of_ne hf]
    exact h

theorem document_declares {c : String} (h : c ∈ (buildPlan cfg w f).chainDecls) :
    (k'.chains f c).isSome = true := by
  rw [(restoreFilter_exec hexec).2, Function.update_self, restoreChains, if_pos h]
  rfl

/-- The document, with the plan's sets in place. -/
theorem Footprint.document (h : Footprint k)
    (hsets : ∀ s ∈ (buildPlan cfg w f).ipsets, (k.sets s.name).isSome = true) : Footprint k' := by
  have hsame := (restoreFilter_exec hexec).1
  refine ⟨?_, ?_, ?_, ?_, ?_⟩
  · intro family c hc
    obtain ⟨rs, hrs⟩ := Option.isSome_iff_exists.mp hc
    rcases document_chain hexec hrs with ⟨-, hdecl, -⟩ | hold
    · rcases chainDecls_shape hdecl with htop | hpol | ⟨pod, -, rfl⟩
      · exact Or.inl htop
      · exact Or.inr (Or.inl hpol)
      · exact Or.inr (Or.inr (isPodChain_podChain cfg pod))
    · exact h.chain family c (by rw [hold]; rfl)
  · intro family c rs hrs r hr
    rcases document_chain hexec hrs with ⟨rfl, -, rfl⟩ | hold
    · obtain ⟨hmem, hchain⟩ := List.mem_filter.mp hr
      have heq : r.chain = c := by simpa using hchain
      exact heq ▸ buildPlan_ruleShape hmem
    · exact h.rule family c rs hold r hr
  · intro family c hc t ht
    obtain ⟨rs, hrs⟩ := Option.isSome_iff_exists.mp hc
    rcases document_chain hexec hrs with ⟨rfl, -, -⟩ | hold
    · exact document_declares hexec (fixed_declared (List.mem_append_left _ ht))
    · exact document_keeps hexec (h.top family c (by rw [hold]; rfl) t ht)
  · intro family c hc hpod
    rw [hsame]
    obtain ⟨rs, hrs⟩ := Option.isSome_iff_exists.mp hc
    rcases document_chain hexec hrs with ⟨-, hdecl, -⟩ | hold
    · rcases chainDecls_shape hdecl with htop | hpol | ⟨pod, hp, -⟩
      · simp only [topChains, List.mem_cons, List.not_mem_nil, or_false] at htop
        rcases htop with rfl | rfl | rfl <;> exact absurd hpod (by decide)
      · exact absurd hpod (by simpa using not_pod_of_policy hpol)
      · obtain ⟨s, hs, hname⟩ := chainPods_set hp
        exact ⟨s.name, hsets s hs, hname⟩
    · exact h.pods family c (by rw [hold]; rfl) hpod
  · intro family b
    rw [document_builtin hexec]
    rcases h.hook family b with hnil | ⟨t, ht, hmem, hsome⟩
    · exact Or.inl hnil
    · exact Or.inr ⟨t, ht, hmem, document_keeps hexec hsome⟩

end Document

theorem Footprint.jump (h : Footprint k) {b target : String} (hhook : (b, target) ∈ hooks)
    (hexec : (ToolCall.ensureJump f b target).exec k = some k') : Footprint k' := by
  simp only [ToolCall.exec] at hexec
  split at hexec
  · rw [← Option.some.inj hexec]
    exact h
  · rename_i hnew
    obtain ⟨hsome, hk⟩ := Option.ite_none_right_eq_some.mp hexec
    rw [← Option.some.inj hk]
    refine ⟨h.chain, h.rule, h.top, h.pods, ?_⟩
    intro family b'
    by_cases hf : family = f ∧ b' = b
    · obtain ⟨rfl, rfl⟩ := hf
      have hnil : k.builtin family b' = [] := by
        rcases h.hook family b' with hnil | ⟨t, ht, hmem, -⟩
        · exact hnil
        · rw [ht, List.mem_singleton] at hnew
          exact absurd (hooks_unique hhook hmem) hnew
      exact Or.inr ⟨target, by simp [hnil], hhook, hsome⟩
    · have hsame : Function.update k.builtin f (Function.update (k.builtin f) b
          (target :: k.builtin f b)) family b' = k.builtin family b' := by
        by_cases hfam : family = f
        · subst hfam
          rw [Function.update_self, Function.update_of_ne fun hb => hf ⟨rfl, hb⟩]
        · rw [Function.update_of_ne hfam]
      simp only [hsame]
      exact h.hook family b'

theorem footprint_family (h : Footprint k) {i : Nat}
    (hran : Ran ((familyCalls cfg w f).take i) k k') : Footprint k' := by
  have hrestores : ∀ call ∈ setCalls (buildPlan cfg w f).ipsets, ∀ m m', Footprint m →
      call.exec m = some m' → Footprint m' := by
    intro call hcall m m' hm hexec
    obtain ⟨s, -, rfl⟩ := List.mem_map.mp hcall
    exact hm.restore hexec
  rw [familyCalls_eq] at hran
  rcases ran_take_append hran with hsets | ⟨m, hsets, hdoc⟩
  · exact ran_invariant (fun call hcall => hrestores call (List.mem_of_mem_take hcall)) h hsets
  · have hm : Footprint m := ran_invariant hrestores h hsets
    generalize i - (setCalls (buildPlan cfg w f).ipsets).length = j at hdoc
    cases j with
    | zero => exact ran_nil.mp hdoc ▸ hm
    | succ j =>
      rw [docCalls, List.take_succ_cons, ran_cons] at hdoc
      obtain ⟨m', hexec, hjumps⟩ := hdoc
      have hplanned : ∀ s ∈ (buildPlan cfg w f).ipsets, (m.sets s.name).isSome = true := by
        intro s hs
        obtain ⟨x, hx, -⟩ := sets_in_place hsets s hs
        rw [hx]
        rfl
      refine ran_invariant ?_ (hm.document hexec hplanned) hjumps
      intro call hcall n n' hn hexec
      have hcall := List.mem_of_mem_take hcall
      simp only [List.mem_cons, List.not_mem_nil, or_false] at hcall
      rcases hcall with rfl | rfl | rfl <;> exact hn.jump (by decide) hexec

theorem footprint_pass (h : Footprint k) {families : List IpFamily} {i : Nat}
    (hran : Ran ((passCalls cfg families w).take i) k k') : Footprint k' := by
  induction families generalizing k i with
  | nil =>
    rw [passCalls, List.flatMap_nil, List.take_nil] at hran
    exact ran_nil.mp hran ▸ h
  | cons f families ih =>
    rw [passCalls, List.flatMap_cons] at hran
    rcases ran_take_append hran with hran | ⟨m, hran, hrest⟩
    · exact footprint_family h hran
    · rw [← List.take_length (l := familyCalls cfg w f)] at hran
      exact ih (footprint_family h hran) hrest

end Pass

/-! ## Runs -/

/-- One `reconcile`, with the settings it ran under and the world it saw. -/
structure Pass where
  cfg : Config
  families : List IpFamily
  world : PolicyWorld

/-- The kernel behind a pass, whether it returned `Ok` or stopped on the way. -/
def Pass.run (p : Pass) (k : Kernel) : Kernel := (reconcile p.cfg p.families p.world k).1

/-- The kernel behind a run of passes on a clean node. -/
def runPasses (passes : List Pass) : Kernel := passes.foldl (fun k p => p.run k) .clean

def Pass.setNames (p : Pass) : List String :=
  p.families.flatMap fun f => (buildPlan p.cfg p.world f).ipsets.map (·.name)

def Pass.chainNames (p : Pass) : List String :=
  p.families.flatMap fun f => (buildPlan p.cfg p.world f).chainDecls

/-- The kernel holds only sets of `sets` and chains of `chains`. -/
def Named (sets chains : List String) (k : Kernel) : Prop :=
  (∀ n, (k.sets n).isSome = true → n ∈ sets) ∧
    ∀ family c, (k.chains family c).isSome = true → c ∈ chains

theorem named_call {sets chains : List String} {p : Pass} (hsets : ∀ n ∈ p.setNames, n ∈ sets)
    (hchains : ∀ c ∈ p.chainNames, c ∈ chains) {call : ToolCall}
    (hcall : call ∈ passCalls p.cfg p.families p.world) {m m' : Kernel} (h : Named sets chains m)
    (hexec : call.exec m = some m') : Named sets chains m' := by
  obtain ⟨f, hf, hcall⟩ := List.mem_flatMap.mp hcall
  rw [familyCalls_eq, List.mem_append] at hcall
  rcases hcall with hcall | hcall
  · obtain ⟨s, hs, rfl⟩ := List.mem_map.mp hcall
    obtain ⟨-, -, -, rfl⟩ := restore_call_exec.mp hexec
    refine ⟨?_, h.2⟩
    intro n hn
    obtain ⟨x, hx⟩ := Option.isSome_iff_exists.mp hn
    rcases restored_cases hx with ⟨rfl, -⟩ | ⟨-, -, hold⟩
    · exact hsets _ (List.mem_flatMap.mpr ⟨f, hf, List.mem_map_of_mem hs⟩)
    · exact h.1 n (by rw [hold]; rfl)
  · simp only [docCalls, List.mem_cons, List.not_mem_nil, or_false] at hcall
    rcases hcall with rfl | hcall
    · refine ⟨by rw [(restoreFilter_exec hexec).1]; exact h.1, ?_⟩
      intro family c hc
      obtain ⟨rs, hrs⟩ := Option.isSome_iff_exists.mp hc
      rcases document_chain hexec hrs with ⟨-, hdecl, -⟩ | hold
      · exact hchains c (List.mem_flatMap.mpr ⟨f, hf, hdecl⟩)
      · exact h.2 family c (by rw [hold]; rfl)
    · rcases hcall with rfl | rfl | rfl <;>
      · obtain ⟨hs, hc⟩ := ensureJump_exec hexec
        rw [Named, hs, hc]
        exact h

/-- A pass that stopped has run some of its calls. -/
theorem Pass.exists_ran (p : Pass) (k : Kernel) :
    ∃ i, Ran ((passCalls p.cfg p.families p.world).take i) k (p.run k) := by
  obtain ⟨i, hi⟩ := exists_ran_take (passCalls p.cfg p.families p.world)
    (passCalls p.cfg p.families p.world).length k
  rw [List.take_length] at hi
  exact ⟨i, hi⟩

theorem runPasses_named (passes : List Pass) :
    Named (passes.flatMap Pass.setNames) (passes.flatMap Pass.chainNames) (runPasses passes) := by
  have hrun : ∀ ps : List Pass, (∀ p ∈ ps, p ∈ passes) → ∀ k,
      Named (passes.flatMap Pass.setNames) (passes.flatMap Pass.chainNames) k →
      Named (passes.flatMap Pass.setNames) (passes.flatMap Pass.chainNames)
        (ps.foldl (fun k p => p.run k) k) := by
    intro ps
    induction ps with
    | nil => exact fun _ k hk => hk
    | cons p ps ih =>
      intro hps k hk
      obtain ⟨i, hi⟩ := p.exists_ran k
      have hp := hps p List.mem_cons_self
      refine ih (fun q hq => hps q (List.mem_cons_of_mem _ hq)) _ (ran_invariant ?_ hk hi)
      intro call hcall m m' hm hexec
      exact named_call (fun n hn => List.mem_flatMap.mpr ⟨p, hp, hn⟩)
        (fun c hc => List.mem_flatMap.mpr ⟨p, hp, hc⟩) (List.mem_of_mem_take hcall) hm hexec
  refine hrun passes (fun _ hp => hp) .clean ⟨?_, ?_⟩
  · intro n hn
    cases hn
  · intro family c hc
    cases hc

theorem footprint_of_passes (passes : List Pass) : Footprint (runPasses passes) := by
  induction passes using List.reverseRecOn with
  | nil => exact footprint_clean
  | append_singleton passes p ih =>
    rw [runPasses, List.foldl_append]
    obtain ⟨i, hi⟩ := p.exists_ran (runPasses passes)
    exact footprint_pass ih hi

end KubeRouter.Netpol
