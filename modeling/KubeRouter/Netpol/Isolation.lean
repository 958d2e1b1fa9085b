/-
  Which objects can share a chain or a set, and what an added object leaves alone.

  Keys are plain concatenations (the scheme upstream uses), so two objects derive the same name
  exactly when the concatenations of namespace and name agree; the kinds of set, the directions
  and the families never run into each other, only the rule and group digits of named-port sets
  do (`SetKind.key_inj`). `hash16` is taken injective throughout this file: only key collisions
  are at issue.

  Frame. Adding a policy or a pod to a world keeps the rules of every derived chain and the
  entries of every policy set whose object has another concatenation, with two exceptions the
  rule language itself makes: a pod that becomes a peer of a policy changes that policy's sets
  and rules, and a policy changes the chains of the pods it selects.
-/
import Std.Data.String.ToNat
import KubeRouter.Netpol.Soundness

namespace KubeRouter.Netpol

/-! ## Keys -/

/-- Two lists that agree, each cut in front of its last element outside `p`, agree in pieces. -/
theorem append_cons_inj {α : Type} {p : α → Prop} {P Q D D' : List α} {a b : α}
    (hD : ∀ x ∈ D, p x) (hD' : ∀ x ∈ D', p x) (ha : ¬ p a) (hb : ¬ p b)
    (h : P ++ a :: D = Q ++ b :: D') : P = Q ∧ a = b ∧ D = D' := by
  rcases List.append_eq_append_iff.mp h with ⟨as, hQ, hs⟩ | ⟨as, hP, hs⟩
  · cases as with
    | nil =>
      rw [List.nil_append, List.cons.injEq] at hs
      exact ⟨by rw [hQ, List.append_nil], hs.1, hs.2⟩
    | cons c as =>
      rw [List.cons_append, List.cons.injEq] at hs
      exact absurd (hD b (by rw [hs.2]; simp)) hb
  · cases as with
    | nil =>
      rw [List.nil_append, List.cons.injEq] at hs
      exact ⟨by rw [hP, List.append_nil], hs.1.symm, hs.2.symm⟩
    | cons c as =>
      rw [List.cons_append, List.cons.injEq] at hs
      exact absurd (hD' a (by rw [hs.2]; simp)) ha

/-- The sets `build_plan` derives for a policy. -/
inductive SetKind where
  | target (dir : Direction)
  | pod (dir : Direction) (idx : Nat)
  | ipblock (dir : Direction) (idx : Nat)
  | namedPort (dir : Direction) (idx ep : Nat)
deriving DecidableEq, Repr

namespace SetKind

def name (cfg : Config) (family : IpFamily) (pol : NetworkPolicy) : SetKind → String
  | target dir => targetSet cfg family dir pol
  | pod dir idx => podSet cfg family dir pol idx
  | ipblock dir idx => ipblockSet cfg family dir pol idx
  | namedPort dir idx ep => namedPortSet cfg family dir pol idx ep

/-- The fixed end of a key. -/
def suffix : SetKind → String
  | target _ => ""
  | pod _ _ => "pod"
  | ipblock _ _ => "ipblock"
  | namedPort _ _ _ => "namedport"

/-- What stands between the object and the family in a key. -/
def middle : SetKind → String
  | target _ => ""
  | pod dir idx | ipblock dir idx => word dir ++ toString idx
  | namedPort dir idx ep => word dir ++ (toString idx ++ toString ep)
where
  word : Direction → String
    | .ingress => "ingressrule"
    | .egress => "egressrule"

def key (family : IpFamily) (stem : String) (k : SetKind) : String :=
  stem ++ k.middle ++ (familyTag family ++ k.suffix)

/-- The prefix of a set's name. -/
def side : SetKind → String
  | target .ingress | pod .egress _ | ipblock .egress _ | namedPort _ _ _ => dstPrefix
  | target .egress | pod .ingress _ | ipblock .ingress _ => srcPrefix

theorem side_eq (k : SetKind) : k.side = srcPrefix ∨ k.side = dstPrefix := by
  rcases k with dir | ⟨dir, _⟩ | ⟨dir, _⟩ | ⟨dir, _, _⟩ <;> cases dir <;> simp [side]

end SetKind

/-- Namespace and name of a policy, as they stand in every key. -/
def NetworkPolicy.stem (p : NetworkPolicy) : String := p.ns ++ p.name

def Pod.stem (p : Pod) : String := p.ns ++ p.name

theorem SetKind.name_eq {cfg : Config} {family : IpFamily} {pol : NetworkPolicy} (k : SetKind) :
    k.name cfg family pol = k.side ++ cfg.hash16 (k.key family pol.stem) := by
  rcases k with dir | ⟨dir, idx⟩ | ⟨dir, idx⟩ | ⟨dir, idx, ep⟩ <;> cases dir <;>
    simp [name, side, key, middle, middle.word, suffix, targetSet, podSet, ipblockSet, namedPortSet,
      dstSet, srcSet, indexedSrcPodSet, indexedDstPodSet, indexedSrcIpblockSet,
      indexedDstIpblockSet, indexedIngressNamedPortSet, indexedEgressNamedPortSet,
      NetworkPolicy.stem, String.append_assoc]

theorem toString_digits (n : Nat) : ∀ c ∈ (toString n).toList, c.isDigit = true := by
  intro c hc
  rw [show toString n = n.repr from rfl, Nat.toList_repr] at hc
  exact Nat.isDigit_of_mem_toDigits (by decide) (by decide) hc

/-- The family and the fixed end of a key are read off its end. -/
theorem tag_suffix_inj {X Y : String} {f f' : IpFamily} {k k' : SetKind}
    (h : X ++ (familyTag f ++ k.suffix) = Y ++ (familyTag f' ++ k'.suffix)) :
    X = Y ∧ f = f' ∧ k.suffix = k'.suffix := by
  have hrev := congrArg (fun s => s.toList.reverse) h
  rcases k with _ | _ | _ | _ <;> rcases k' with _ | _ | _ | _ <;> cases f <;> cases f' <;>
    simp [SetKind.suffix, familyTag] at hrev ⊢ <;> exact String.toList_inj.mp hrev

/-- A rule word and its digits are read off the end of the middle. -/
theorem word_digits_inj {A B : String} {dir dir' : Direction} {D D' : String}
    (hD : ∀ c ∈ D.toList, c.isDigit = true) (hD' : ∀ c ∈ D'.toList, c.isDigit = true)
    (h : A ++ (SetKind.middle.word dir ++ D) = B ++ (SetKind.middle.word dir' ++ D')) :
    A = B ∧ dir = dir' ∧ D = D' := by
  -- Both words end in 'e', the last letter in front of the digits.
  have hword : ∀ d : Direction, (SetKind.middle.word d).toList =
      (SetKind.middle.word d).toList.dropLast ++ ['e'] := by
    intro d
    cases d <;> decide
  have hlist := congrArg String.toList h
  simp only [String.toList_append] at hlist
  rw [hword dir, hword dir', List.append_assoc, List.append_assoc, ← List.append_assoc A.toList,
    ← List.append_assoc B.toList] at hlist
  obtain ⟨hpre, -, hdig⟩ := append_cons_inj (p := fun c : Char => c.isDigit = true) hD hD'
    (by decide) (by decide) hlist
  refine ⟨?_, ?_, String.toList_inj.mp hdig⟩
  all_goals
    have hrev := congrArg List.reverse hpre
    cases dir <;> cases dir' <;> simp [SetKind.middle.word] at hrev ⊢
  all_goals exact String.toList_inj.mp hrev

/-- Sets of one policy that share a name: the same set, or two named-port sets of one direction
    whose rule and group digits run together. -/
def SetKind.Clash : SetKind → SetKind → Prop
  | target dir, target dir' => dir = dir'
  | pod dir idx, pod dir' idx' => dir = dir' ∧ idx = idx'
  | ipblock dir idx, ipblock dir' idx' => dir = dir' ∧ idx = idx'
  | namedPort dir idx ep, namedPort dir' idx' ep' =>
    dir = dir' ∧ toString idx ++ toString ep = toString idx' ++ toString ep'
  | _, _ => False

/-- A key determines the concatenation it starts with, the family and, with the side, the set up
    to a clash. -/
theorem SetKind.key_inj {A B : String} {f f' : IpFamily} {k k' : SetKind}
    (h : k.key f A = k'.key f' B) : A = B ∧ f = f' ∧ (k.side = k'.side → k.Clash k') := by
  obtain ⟨hmid, hf, hsuf⟩ := tag_suffix_inj h
  have hdigits : ∀ i j : Nat, ∀ c ∈ (toString i ++ toString j).toList, c.isDigit = true := by
    intro i j c hc
    rw [String.toList_append, List.mem_append] at hc
    rcases hc with hc | hc
    · exact toString_digits i c hc
    · exact toString_digits j c hc
  rcases k with dir | ⟨dir, i⟩ | ⟨dir, i⟩ | ⟨dir, i, j⟩ <;>
    rcases k' with dir' | ⟨dir', i'⟩ | ⟨dir', i'⟩ | ⟨dir', i', j'⟩ <;>
    simp only [suffix, String.reduceEq] at hsuf
  · refine ⟨by simpa [middle] using hmid, hf, fun hside => ?_⟩
    cases dir <;> cases dir' <;> first | rfl | exact absurd hside (by decide)
  · obtain ⟨hs, hd, hi⟩ := word_digits_inj (toString_digits i) (toString_digits i') hmid
    exact ⟨hs, hf, fun _ => ⟨hd, Nat.repr_injective hi⟩⟩
  · obtain ⟨hs, hd, hi⟩ := word_digits_inj (toString_digits i) (toString_digits i') hmid
    exact ⟨hs, hf, fun _ => ⟨hd, Nat.repr_injective hi⟩⟩
  · obtain ⟨hs, hd, hij⟩ := word_digits_inj (hdigits i j) (hdigits i' j') hmid
    exact ⟨hs, hf, fun _ => ⟨hd, hij⟩⟩

section Names

variable {cfg : Config} (hinj : Function.Injective cfg.hash16)
include hinj

/-- Policy sets of one name belong to one concatenation and one family, and clash. -/
theorem SetKind.name_clash {p q : NetworkPolicy} {f f' : IpFamily} {k k' : SetKind}
    (h : k.name cfg f p = k'.name cfg f' q) : p.stem = q.stem ∧ f = f' ∧ k.Clash k' := by
  have hside : ∀ k : SetKind, k.side.toList.length = 9 := by
    intro k
    rcases k.side_eq with hk | hk <;> rw [hk] <;> decide
  rw [k.name_eq, k'.name_eq] at h
  have hlist := congrArg String.toList h
  rw [String.toList_append, String.toList_append] at hlist
  obtain ⟨hs, hhash⟩ := List.append_inj hlist ((hside k).trans (hside k').symm)
  obtain ⟨hstem, hf, hclash⟩ := SetKind.key_inj (hinj (String.toList_inj.mp hhash))
  exact ⟨hstem, hf, hclash (String.toList_inj.mp hs)⟩

theorem SetKind.name_inj {p q : NetworkPolicy} {f f' : IpFamily} {k k' : SetKind}
    (h : k.name cfg f p = k'.name cfg f' q) : p.stem = q.stem ∧ f = f' := by
  obtain ⟨hstem, hf, -⟩ := SetKind.name_clash hinj h
  exact ⟨hstem, hf⟩

theorem policyChain_inj {p q : NetworkPolicy} {f f' : IpFamily} :
    policyChain cfg f p = policyChain cfg f' q ↔ p.stem = q.stem ∧ f = f' := by
  constructor
  · intro h
    have hlist := congrArg String.toList h
    simp only [policyChain, networkPolicyChain, String.toList_append] at hlist
    have hkey := hinj (String.toList_inj.mp (List.append_cancel_left hlist))
    have hrev := congrArg (fun s => s.toList.reverse) hkey
    cases f <;> cases f' <;> simp [familyTag] at hrev ⊢
    all_goals
      refine String.toList_inj.mp (List.reverse_injective ?_)
      simpa [NetworkPolicy.stem] using hrev
  · rintro ⟨hs, rfl⟩
    have hs' : p.ns ++ p.name = q.ns ++ q.name := hs
    simp only [policyChain, networkPolicyChain, hs']

theorem podChain_inj {p q : Pod} : podChain cfg p = podChain cfg q ↔ p.stem = q.stem := by
  constructor
  · intro h
    have hlist := congrArg String.toList h
    simp only [podChain, podFirewallChain, String.toList_append] at hlist
    have hkey := hinj (String.toList_inj.mp (List.append_cancel_left hlist))
    have hk := congrArg String.toList hkey
    simp only [String.toList_append] at hk
    have := List.append_cancel_right hk
    exact String.toList_inj.mp (by simpa [Pod.stem] using this)
  · intro hs
    have hs' : p.ns ++ p.name = q.ns ++ q.name := hs
    simp only [podChain, podFirewallChain, hs']

end Names

/-! ## The sets and chains of one object -/

section Frame

variable {cfg : Config} {w w' : PolicyWorld} {family : IpFamily}

theorem PolicySet.kind {dir : Direction} {pol : NetworkPolicy} {s : IpsetPlan}
    (h : PolicySet cfg w family dir pol s) : ∃ k : SetKind, s.name = k.name cfg family pol := by
  cases h with
  | target => exact ⟨.target dir, rfl⟩
  | pod rule idx hr => exact ⟨.pod dir idx, rfl⟩
  | ipblock rule idx hr => exact ⟨.ipblock dir idx, rfl⟩
  | namedPort idx recv protocol name g hg => exact ⟨.namedPort dir idx g.2, rfl⟩

theorem policyPlan_kind {pol : NetworkPolicy} {s : IpsetPlan}
    (h : s ∈ (policyPlan cfg w family pol).ipsets) :
    ∃ k : SetKind, s.name = k.name cfg family pol := by
  simp only [policyPlan, FirewallPlan.append_ipsets, List.nil_append, List.mem_append] at h
  rcases h with h | h
  · exact (directionPlan_set h).2.kind
  · exact (directionPlan_set h).2.kind

theorem localPodsSet_ne_name {pol : NetworkPolicy} (k : SetKind) (f f' : IpFamily) :
    localPodsSet f ≠ k.name cfg f' pol := by
  intro h
  rw [k.name_eq] at h
  have hlist := congrArg String.toList h
  rcases k.side_eq with hs | hs <;> rw [hs] at hlist <;> cases f <;>
    simp [localPodsSet, localPodsSetName, srcPrefix, dstPrefix] at hlist

/-- The active policies that derive the names of `pol`. -/
def namesakes (w : PolicyWorld) (pol : NetworkPolicy) : List NetworkPolicy :=
  w.policies.filter fun p => p.active && p.stem == pol.stem

/-- Both worlds plan the same rules for the chain of `pol` and the same entries for its sets. -/
structure SamePolicy (cfg : Config) (family : IpFamily) (w w' : PolicyWorld) (pol : NetworkPolicy) :
    Prop where
  rules : chainOf (buildPlan cfg w family).rules (policyChain cfg family pol) =
    chainOf (buildPlan cfg w' family).rules (policyChain cfg family pol)
  sets : ∀ k : SetKind,
    (buildPlan cfg w family).ipsets.filter (·.name == k.name cfg family pol) =
      (buildPlan cfg w' family).ipsets.filter (·.name == k.name cfg family pol)

section Injective

variable (hinj : Function.Injective cfg.hash16)
include hinj

theorem chainOf_policy_namesakes (w : PolicyWorld) (pol : NetworkPolicy) :
    chainOf (buildPlan cfg w family).rules (policyChain cfg family pol) =
      chainOf (commonRules family) (policyChain cfg family pol) ++
      chainOf defaultRules (policyChain cfg family pol) ++
      (namesakes w pol).flatMap (fun p => (policyPlan cfg w family p).rules) ++
      chainOf (tailRules cfg family) (policyChain cfg family pol) := by
  obtain ⟨hi, hf, ho⟩ : policyChain cfg family pol ≠ routerInput ∧
    policyChain cfg family pol ≠ routerForward ∧ policyChain cfg family pol ≠ routerOutput :=
    networkPolicyChain_ne_router
  have hpod : ∀ pod ∈ chainPods cfg w family, podChain cfg pod ≠ policyChain cfg family pol :=
    fun pod _ => podFirewallChain_ne_nwplcy _
  have hsame : (w.policies.filter (·.active)).filter
      (policyChain cfg family · == policyChain cfg family pol) = namesakes w pol := by
    rw [List.filter_filter, namesakes]
    refine List.filter_congr fun p _ => ?_
    rw [Bool.and_comm, Bool.eq_iff_iff]
    simp [policyChain_inj hinj]
  rw [chainOf_inner hi hf ho, filter_beq_eq_nil hpod, hsame, List.flatMap_nil, List.append_nil]

theorem setsNamed_namesakes (w : PolicyWorld) (pol : NetworkPolicy) (k : SetKind) :
    (buildPlan cfg w family).ipsets.filter (·.name == k.name cfg family pol) =
      (namesakes w pol).flatMap fun p =>
        (policyPlan cfg w family p).ipsets.filter (·.name == k.name cfg family pol) := by
  have hlocal : (if cfg.defaultDeny = true then
      [(⟨localPodsSet family, family, .hashIp (programmedIps cfg w family)⟩ : IpsetPlan)]
      else []).filter (·.name == k.name cfg family pol) = [] := by
    split
    · simp [localPodsSet_ne_name]
    · rfl
  have hother : ∀ p, p.stem ≠ pol.stem → (policyPlan cfg w family p).ipsets.filter
      (·.name == k.name cfg family pol) = [] := by
    intro p hp
    refine List.filter_eq_nil_iff.mpr fun s hs hname => hp ?_
    obtain ⟨k', hk'⟩ := policyPlan_kind hs
    have hn : k'.name cfg family p = k.name cfg family pol := by
      rw [← hk']
      simpa using hname
    exact (SetKind.name_inj hinj hn).1
  have hrest : ∀ ps : List NetworkPolicy, (ps.filter (·.active)).flatMap (fun p =>
      (policyPlan cfg w family p).ipsets.filter (·.name == k.name cfg family pol)) =
      (ps.filter fun p => p.active && p.stem == pol.stem).flatMap fun p =>
        (policyPlan cfg w family p).ipsets.filter (·.name == k.name cfg family pol) := by
    intro ps
    induction ps with
    | nil => rfl
    | cons p ps ih =>
      by_cases ha : p.active = true
      · by_cases hs : p.stem = pol.stem
        · simp [ha, hs, ih]
        · simp [ha, hs, hother p hs, ih]
      · simp [ha, ih]
  have hpods : (FirewallPlan.collect (chainPods cfg w family) (podPlan cfg w family)).ipsets = [] :=
    List.flatMap_eq_nil_iff.mpr fun _ _ => rfl
  simp only [buildPlan, FirewallPlan.append_ipsets, List.nil_append, hpods, List.append_nil,
    List.filter_append, hlocal]
  rw [FirewallPlan.collect, List.filter_flatMap]
  exact hrest w.policies

/-- The chain and the sets of a policy depend on the fragments of its namesakes only. -/
theorem samePolicy_of_namesakes {pol : NetworkPolicy} (hsame : namesakes w pol = namesakes w' pol)
    (hplan : ∀ p ∈ namesakes w pol, policyPlan cfg w family p = policyPlan cfg w' family p) :
    SamePolicy cfg family w w' pol := by
  constructor
  · rw [chainOf_policy_namesakes hinj, chainOf_policy_namesakes hinj, ← hsame]
    congr 2
    exact List.flatMap_congr fun p hp => by rw [hplan p hp]
  · intro k
    rw [setsNamed_namesakes hinj, setsNamed_namesakes hinj, ← hsame]
    exact List.flatMap_congr fun p hp => by rw [hplan p hp]

/-- The chain of a pod depends on the pods with its concatenation and the policies that select
    them. -/
theorem chainOf_pod_congr {pod : Pod}
    (hpods : (w.pods.filter fun q => q.stem == pod.stem) =
      w'.pods.filter fun q => q.stem == pod.stem)
    (hsel : ∀ q ∈ w.pods, q.stem = pod.stem → selecting w q = selecting w' q) :
    chainOf (buildPlan cfg w family).rules (podChain cfg pod) =
      chainOf (buildPlan cfg w' family).rules (podChain cfg pod) := by
  have hfilter : ∀ v : PolicyWorld,
      (chainPods cfg v family).filter (podChain cfg · == podChain cfg pod) =
      (v.pods.filter fun q => q.stem == pod.stem).filter fun q => q.nodeName == cfg.node &&
        !q.hostNetwork && !(podFamilyIps q family).isEmpty && !(selecting v q).isEmpty := by
    intro v
    rw [chainPods, List.filter_filter, List.filter_filter]
    refine List.filter_congr fun q _ => ?_
    rw [Bool.eq_iff_iff]
    simp [podChain_inj hinj, and_comm]
  have hsel' : ∀ q ∈ w.pods.filter fun q => q.stem == pod.stem, selecting w q = selecting w' q := by
    intro q hq
    obtain ⟨hq, hs⟩ := List.mem_filter.mp hq
    exact hsel q hq (by simpa using hs)
  rw [chainOf_pod, chainOf_pod, hfilter, hfilter, ← hpods]
  have hkeep : (w.pods.filter fun q => q.stem == pod.stem).filter (fun q =>
      q.nodeName == cfg.node && !q.hostNetwork && !(podFamilyIps q family).isEmpty &&
        !(selecting w q).isEmpty) =
      (w.pods.filter fun q => q.stem == pod.stem).filter fun q => q.nodeName == cfg.node &&
        !q.hostNetwork && !(podFamilyIps q family).isEmpty && !(selecting w' q).isEmpty :=
    List.filter_congr fun q hq => by rw [hsel' q hq]
  rw [hkeep]
  refine List.flatMap_congr fun q hq => ?_
  have hdispatch : dispatchRules cfg w family q = dispatchRules cfg w' family q := by
    funext ip
    simp only [dispatchRules, hsel' q (List.mem_filter.mp hq).1]
  simp only [podChainRules, hdispatch]

end Injective

/-! ## Adding an object -/

/-- `new` put somewhere into the list of policies. -/
def PolicyWorld.addPolicy (w : PolicyWorld) (pos : Nat) (new : NetworkPolicy) : PolicyWorld :=
  { w with policies := w.policies.take pos ++ new :: w.policies.drop pos }

def PolicyWorld.addPod (w : PolicyWorld) (pos : Nat) (new : Pod) : PolicyWorld :=
  { w with pods := w.pods.take pos ++ new :: w.pods.drop pos }

/-- An element a filter drops may be put anywhere into the list. -/
theorem filter_insert {α : Type} {p : α → Bool} {xs : List α} {x : α} (h : p x = false) (i : Nat) :
    (xs.take i ++ x :: xs.drop i).filter p = xs.filter p := by
  rw [List.filter_append, List.filter_cons_of_neg (by simp [h]), ← List.filter_append,
    List.take_append_drop]

/-- The pod is in another namespace and none of the policy's peers stands for it. -/
structure Ignores (w : PolicyWorld) (family : IpFamily) (pol : NetworkPolicy) (pod : Pod) :
    Prop where
  ns : pod.ns ≠ pol.ns
  peers : ∀ r ∈ pol.ingress ++ pol.egress, ∀ nsSel podSel, .selector nsSel podSel ∈ r.peers →
    peerPods nsSel podSel [pod] w.namespaces pol.ns = []
  /-- Named egress ports are looked up by address, so the addresses count as well. -/
  ips : ∀ r ∈ pol.ingress ++ pol.egress, ∀ x ∈ podFamilyIps pod family,
    x ∉ (resolvePeers r.peers w.pods w.namespaces pol.ns family).ipEntries

theorem Ignores.resolvePeers_eq {pol : NetworkPolicy} {pod : Pod} (h : Ignores w family pol pod)
    {r : PolicyRule} (hr : r ∈ pol.ingress ++ pol.egress) (i : Nat) :
    resolvePeers r.peers (w.addPod i pod).pods w.namespaces pol.ns family =
      resolvePeers r.peers w.pods w.namespaces pol.ns family := by
  have hpeer : ∀ peer ∈ r.peers, peer.ipEntries (w.addPod i pod).pods w.namespaces pol.ns family =
      peer.ipEntries w.pods w.namespaces pol.ns family := by
    intro peer hp
    cases peer with
    | ipBlock c e => rfl
    | selector a b =>
      have hnone := h.peers r hr a b hp
      simp only [peerPods, List.filter_eq_nil_iff, List.mem_singleton, forall_eq] at hnone
      simp only [Peer.ipEntries, peerPods, PolicyWorld.addPod]
      congr 1
      refine filter_insert ?_ i
      exact Bool.eq_false_iff.mpr hnone
  have hflat : r.peers.flatMap (·.ipEntries (w.addPod i pod).pods w.namespaces pol.ns family) =
      r.peers.flatMap (·.ipEntries w.pods w.namespaces pol.ns family) := List.flatMap_congr hpeer
  unfold resolvePeers
  rw [hflat]

theorem Ignores.policyPlan_eq {pol : NetworkPolicy} {pod : Pod} (h : Ignores w family pol pod)
    (i : Nat) : policyPlan cfg (w.addPod i pod) family pol = policyPlan cfg w family pol := by
  have hnot : policySelects pol pod = false := by simp [policySelects, h.ns]
  have hips : selectedIps (w.addPod i pod) family pol = selectedIps w family pol := by
    simp only [selectedIps, PolicyWorld.addPod]
    rw [filter_insert hnot]
  have hrecv : ∀ (dir : Direction) (r : PolicyRule), r ∈ pol.ingress ++ pol.egress →
      receivers (w.addPod i pod) family dir pol
        (resolvePeers r.peers w.pods w.namespaces pol.ns family) =
      receivers w family dir pol (resolvePeers r.peers w.pods w.namespaces pol.ns family) := by
    intro dir r hr
    cases dir with
    | ingress =>
      simp only [receivers, PolicyWorld.addPod]
      rw [filter_insert hnot]
    | egress =>
      simp only [receivers, PolicyWorld.addPod]
      split
      · rw [filter_insert (by simp [h.ns])]
      · rw [filter_insert]
        simpa using h.ips r hr
  have hrule : ∀ (dir : Direction) (tset : String) (r : PolicyRule × Nat),
      r ∈ (dir.rules pol).zipIdx →
      emitRule cfg (w.addPod i pod) family (policyChain cfg family pol) dir tset pol r.2 r.1 =
        emitRule cfg w family (policyChain cfg family pol) dir tset pol r.2 r.1 := by
    intro dir tset r hr
    have hm := Direction.mem_rules (List.fst_mem_of_mem_zipIdx hr)
    have hns : (w.addPod i pod).namespaces = w.namespaces := rfl
    simp only [emitRule, hns, h.resolvePeers_eq hm, hrecv dir r.1 hm]
  have hdir : ∀ dir, directionPlan cfg (w.addPod i pod) family dir pol =
      directionPlan cfg w family dir pol := by
    intro dir
    have hcollect : emitPolicyRules cfg (w.addPod i pod) family (policyChain cfg family pol)
        (dir.rules pol) dir (targetSet cfg family dir pol) pol =
        emitPolicyRules cfg w family (policyChain cfg family pol)
          (dir.rules pol) dir (targetSet cfg family dir pol) pol :=
      FirewallPlan.collect_congr fun r hr => hrule dir _ r hr
    unfold directionPlan
    rw [hips, hcollect]
  unfold policyPlan
  rw [hdir, hdir]

/-- Names of one kind agree exactly when the concatenations do, and an added object leaves
    alone the chains and sets of every object with another concatenation that does not itself
    refer to it. -/
theorem names_isolate (hinj : Function.Injective cfg.hash16) :
    (∀ (p q : NetworkPolicy) (f f' : IpFamily),
      (policyChain cfg f p = policyChain cfg f' q ↔ p.stem = q.stem ∧ f = f') ∧
      (∀ k k' : SetKind, k.name cfg f p = k'.name cfg f' q → p.stem = q.stem ∧ f = f') ∧
      (p.stem = q.stem → ∀ k : SetKind, k.name cfg f p = k.name cfg f q)) ∧
    (∀ p q : Pod, podChain cfg p = podChain cfg q ↔ p.stem = q.stem) ∧
    (∀ (w : PolicyWorld) (i : Nat) (new : NetworkPolicy) (family : IpFamily),
      (∀ pol : NetworkPolicy, pol.stem ≠ new.stem →
        SamePolicy cfg family (w.addPolicy i new) w pol) ∧
      (∀ pod : Pod, (∀ q ∈ w.pods, q.stem = pod.stem → policySelects new q = false) →
        chainOf (buildPlan cfg (w.addPolicy i new) family).rules (podChain cfg pod) =
          chainOf (buildPlan cfg w family).rules (podChain cfg pod))) ∧
    (∀ (w : PolicyWorld) (i : Nat) (new : Pod) (family : IpFamily),
      (∀ pol : NetworkPolicy, (∀ p ∈ w.policies, p.stem = pol.stem → Ignores w family p new) →
        SamePolicy cfg family (w.addPod i new) w pol) ∧
      (∀ pod : Pod, pod.stem ≠ new.stem →
        chainOf (buildPlan cfg (w.addPod i new) family).rules (podChain cfg pod) =
          chainOf (buildPlan cfg w family).rules (podChain cfg pod))) := by
  refine ⟨fun p q f f' => ⟨policyChain_inj hinj, fun k k' h => SetKind.name_inj hinj h, ?_⟩,
    fun p q => podChain_inj hinj, fun w i new family => ⟨?_, ?_⟩, fun w i new family => ⟨?_, ?_⟩⟩
  · intro hs k
    rw [k.name_eq, k.name_eq, hs]
  · intro pol hne
    refine samePolicy_of_namesakes hinj (filter_insert ?_ i) fun p _ => rfl
    simp [Ne.symm hne]
  · intro pod hsel
    refine chainOf_pod_congr hinj rfl fun q hq hs => ?_
    exact filter_insert (by simp [hsel q hq hs]) i
  · intro pol hign
    refine samePolicy_of_namesakes hinj rfl fun p hp => ?_
    obtain ⟨hm, hp⟩ := List.mem_filter.mp hp
    have hs : p.stem = pol.stem := by
      rw [Bool.and_eq_true] at hp
      simpa using hp.2
    exact (hign p hm hs).policyPlan_eq i
  · intro pod hne
    refine chainOf_pod_congr hinj (filter_insert ?_ i) fun q _ _ => rfl
    simp [Ne.symm hne]

end Frame

/-! ## Two tenants -/

/-- The real digests of two keys, and an injective continuation. -/
def injectiveHash (key : String) : String :=
  if key = "shopallkrIPv4" then "KSFMPLJYL6X67UCH"
  else if key = "shopfrontkrIPv4" then "U2DIAQR2TXG7AOAQ"
  else "x" ++ key

theorem injectiveHash_injective : Function.Injective injectiveHash := by
  have hx : ∀ s t : String, "x" ++ s = "x" ++ t → s = t := by
    intro s t h
    have hl := congrArg String.toList h
    exact String.toList_inj.mp (by simpa using hl)
  have hK : ∀ s : String, "x" ++ s ≠ "KSFMPLJYL6X67UCH" := by
    intro s h
    simpa using congrArg String.toList h
  have hU : ∀ s : String, "x" ++ s ≠ "U2DIAQR2TXG7AOAQ" := by
    intro s h
    simpa using congrArg String.toList h
  intro a b h
  unfold injectiveHash at h
  split_ifs at h with ha hb hb' hc hd he hf hg
  · rw [ha, hb]
  · simp at h
  · exact absurd h.symm (hK b)
  · simp at h
  · rw [hc, he]
  · exact absurd h.symm (hU b)
  · exact absurd h (hK a)
  · exact absurd h (hU a)
  · exact hx a b h

def tenantConfig : Config where
  hash16 := injectiveHash
  node := "n1"

/-- `front` and `all` of one namespace keep their names apart. -/
theorem all_front_apart :
    policyChain tenantConfig .V4 all ≠ policyChain tenantConfig .V4 front := by
  intro h
  have hinj : Function.Injective tenantConfig.hash16 := injectiveHash_injective
  have hstem := (((names_isolate hinj).1 all front .V4 .V4).1.mp h).1
  revert hstem
  decide

/-- A policy `bc` of namespace `a`, and a policy `c` of namespace `ab`. -/
def tenantA : NetworkPolicy := { front with ns := "a", name := "bc" }
def tenantB : NetworkPolicy := { front with ns := "ab", name := "c" }

/-- Ingress to the pods of `shop` from every namespace. -/
def shared : NetworkPolicy :=
  { front with
    podSelector := ⟨[], []⟩
    ingress := [⟨[.selector (some ⟨[], []⟩) none], []⟩] }

def sharedWorld : PolicyWorld :=
  { policies := [shared]
    pods := [cart]
    namespaces := [⟨"shop", []⟩, ⟨"test", []⟩] }

/-- A pod of another namespace. -/
def tester : Pod := { pay with ns := "test", name := "tester" }

/-- Distinct policies can share a chain, and a pod added in one namespace can change a set of
    another. -/
theorem tenants_not_isolated :
    Function.Injective tenantConfig.hash16 ∧
    ((tenantA.ns, tenantA.name) ≠ (tenantB.ns, tenantB.name) ∧
      policyChain tenantConfig .V4 tenantA = policyChain tenantConfig .V4 tenantB) ∧
    (shared.ns ≠ tester.ns ∧
      (buildPlan tenantConfig (sharedWorld.addPod 1 tester) .V4).ipsets.filter
          (·.name == (SetKind.pod .ingress 0).name tenantConfig .V4 shared) ≠
        (buildPlan tenantConfig sharedWorld .V4).ipsets.filter
          (·.name == (SetKind.pod .ingress 0).name tenantConfig .V4 shared)) :=
  ⟨injectiveHash_injective, ⟨by decide, by decide⟩, by decide, by decide +kernel⟩

end KubeRouter.Netpol
