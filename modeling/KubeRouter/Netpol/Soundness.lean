/-
  The synthesised firewall against the NetworkPolicy reference.

  * `podMatched_iff`: what marks a packet in a pod chain, seen from one end of the packet. A
    policy covering both directions is entered without an address gate, so besides the rules of
    the packet's own direction its opposite rules mark too (`CrossHit`) when the policy selects
    both ends.
  * For worlds of single-direction policies the verdict of FORWARD and OUTPUT is the
    reference's.
  * With both-direction policies each end of a packet is judged by its own direction exactly
    when no opposite rule of a shared chain matches.
-/
import KubeRouter.Netpol.Reference

namespace KubeRouter.Netpol

open Filter (Mark Flow Verdict evalRules evalChain)

def Direction.opposite : Direction → Direction
  | ingress => .egress
  | egress => .ingress

theorem Direction.eq_or_eq_opposite (d dir : Direction) : d = dir ∨ d = dir.opposite := by
  cases d <;> cases dir <;> simp [opposite]

@[simp] theorem Direction.opposite_opposite (dir : Direction) : dir.opposite.opposite = dir := by
  cases dir <;> rfl

theorem Direction.opposite_targetSide (dir : Direction) :
    dir.opposite.targetSide = dir.peerSide := by
  cases dir <;> rfl

section Matched

variable {cfg : Config} {w : PolicyWorld} {family : IpFamily} {sets : SetView} {pkt : Packet}

/-- One direction of the policy matches the packet. -/
def DirectionHit (w : PolicyWorld) (family : IpFamily) (pkt : Packet) (dir : Direction)
    (pol : NetworkPolicy) : Prop :=
  dir.covers pol = true ∧ pkt.addr dir.targetSide ∈ selectedIps w family pol ∧
    ∃ r ∈ dir.rules pol, ruleHas w family pol dir pkt r = true

/-- A policy covering both directions selects the pod and matches the packet by the direction
    that is not the pod's. -/
def CrossHit (w : PolicyWorld) (family : IpFamily) (pkt : Packet) (dir : Direction) (pod : Pod) :
    Prop :=
  ∃ pol ∈ w.policies, policySelects pol pod = true ∧ dir.covers pol = true ∧
    DirectionHit w family pkt dir.opposite pol

theorem chainHit_iff (hnames : DistinctNames cfg w family)
    (hsets : SetsOf (buildPlan cfg w family).ipsets sets)
    (hnamed : ∀ pol ∈ w.policies, NoNamedPorts pol) {pol : NetworkPolicy} (hp : pol ∈ w.policies)
    (ha : pol.active = true) :
    chainHit cfg w family sets pkt (policyChain cfg family pol) = true ↔
      ∃ dir, DirectionHit w family pkt dir pol := by
  have hplan : ∀ dir, SetsOf (directionPlan cfg w family dir pol).ipsets sets := fun dir =>
    hsets.mono fun s hs => policy_ipset_mem hp ha (by cases dir <;> simp [policyPlan, hs])
  have hhits : hits sets pkt (policyMatches cfg w family pol) = true ↔
      ∃ dir, DirectionHit w family pkt dir pol := by
    rw [policyMatches, hits_append, Bool.or_eq_true,
      hits_directionMatches (hnamed pol hp) (hplan .ingress),
      hits_directionMatches (hnamed pol hp) (hplan .egress)]
    constructor
    · rintro (h | h)
      · exact ⟨.ingress, h⟩
      · exact ⟨.egress, h⟩
    · rintro ⟨dir, h⟩
      cases dir with
      | ingress => exact Or.inl h
      | egress => exact Or.inr h
  rw [← hhits, chainHit, List.any_eq_true]
  constructor
  · rintro ⟨q, hq, h⟩
    obtain ⟨hq, hname⟩ := List.mem_filter.mp hq
    rwa [hnames.policies q (List.mem_filter.mp hq).1 pol hp (by simpa using hname)] at h
  · exact fun h => ⟨pol, by simp [hp, ha], h⟩

/-- The gate of a policy jump: single-direction policies look at their own side. -/
theorem policyJump_gate {pod : Pod} {ip : IpAddr} {pol : NetworkPolicy} (ha : pol.active = true) :
    (policyJump cfg family pod ip pol).conds.all (Cond.holds sets pkt) = true ↔
      ∀ dir : Direction, dir.opposite.covers pol = false → pkt.addr dir.targetSide = ip := by
  simp only [NetworkPolicy.active, Bool.or_eq_true] at ha
  unfold policyJump
  cases hi : pol.policyTypes.ingress <;> cases he : pol.policyTypes.egress <;>
    simp only [hi, he, Bool.false_eq_true, or_self] at ha <;>
    simp only [List.all_cons, List.all_nil, Bool.and_true, Cond.holds, beq_iff_eq]
  · constructor
    · rintro h (_ | _) hc
      · simp [Direction.opposite, Direction.covers, he] at hc
      · exact h
    · exact fun h => h .egress (by simp [Direction.opposite, Direction.covers, hi])
  · constructor
    · rintro h (_ | _) hc
      · exact h
      · simp [Direction.opposite, Direction.covers, hi] at hc
    · exact fun h => h .ingress (by simp [Direction.opposite, Direction.covers, he])
  · constructor
    · rintro - (_ | _) hc
      · simp [Direction.opposite, Direction.covers, he] at hc
      · simp [Direction.opposite, Direction.covers, hi] at hc
    · exact fun _ => trivial

theorem active_of_covers {dir : Direction} {pol : NetworkPolicy} (h : dir.covers pol = true) :
    pol.active = true := by
  cases dir <;> simp_all [Direction.covers, NetworkPolicy.active]

theorem mem_selecting {pod : Pod} {pol : NetworkPolicy} : pol ∈ selecting w pod ↔
    pol ∈ w.policies ∧ pol.active = true ∧ policySelects pol pod = true := by
  simp [selecting]

theorem isolated_iff {dir : Direction} {pod : Pod} :
    Isolated w dir pod ↔ (selecting w pod).any (dir.covers ·) = true := by
  rw [List.any_eq_true]
  constructor
  · rintro ⟨pol, hp, hs, hc⟩
    exact ⟨pol, mem_selecting.mpr ⟨hp, active_of_covers hc, hs⟩, hc⟩
  · rintro ⟨pol, hp, hc⟩
    obtain ⟨hp, -, hs⟩ := mem_selecting.mp hp
    exact ⟨pol, hp, hs, hc⟩

theorem dispatchHit_iff (hnames : DistinctNames cfg w family)
    (hsets : SetsOf (buildPlan cfg w family).ipsets sets)
    (hnamed : ∀ pol ∈ w.policies, NoNamedPorts pol) {pod : Pod} {ip : IpAddr} :
    dispatchHit cfg w family sets pkt pod ip = true ↔
      (∃ pol ∈ selecting w pod,
        (∀ dir : Direction, dir.opposite.covers pol = false → pkt.addr dir.targetSide = ip) ∧
          ∃ dir, DirectionHit w family pkt dir pol) ∨
      ∃ dir : Direction, ¬ Isolated w dir pod ∧ pkt.addr dir.targetSide = ip := by
  have hdefault : ∀ dir : Direction, (!(selecting w pod).any (dir.covers ·) &&
      pkt.addr dir.targetSide == ip) = true ↔
        ¬ Isolated w dir pod ∧ pkt.addr dir.targetSide = ip := by
    intro dir
    rw [isolated_iff]
    simp
  have hpol : ∀ pol ∈ selecting w pod,
      ((policyJump cfg family pod ip pol).conds.all (Cond.holds sets pkt) &&
        chainHit cfg w family sets pkt (policyChain cfg family pol)) = true ↔
      (∀ dir : Direction, dir.opposite.covers pol = false → pkt.addr dir.targetSide = ip) ∧
        ∃ dir, DirectionHit w family pkt dir pol := by
    intro pol hm
    obtain ⟨hp, ha, -⟩ := mem_selecting.mp hm
    rw [Bool.and_eq_true, policyJump_gate ha, chainHit_iff hnames hsets hnamed hp ha]
  rw [dispatchHit, Bool.or_assoc, Bool.or_eq_true, Bool.or_eq_true, List.any_eq_true]
  refine or_congr (exists_congr fun pol => and_congr_right (hpol pol)) ?_
  constructor
  · rintro (h | h)
    · exact ⟨.ingress, (hdefault .ingress).mp h⟩
    · exact ⟨.egress, (hdefault .egress).mp h⟩
  · rintro ⟨dir, h⟩
    cases dir with
    | ingress => exact Or.inl ((hdefault .ingress).mpr h)
    | egress => exact Or.inr ((hdefault .egress).mpr h)

theorem mem_selectedIps {pol : NetworkPolicy} {pod : Pod} {x : IpAddr} (hpod : pod ∈ w.pods)
    (hs : policySelects pol pod = true) (hx : x ∈ podFamilyIps pod family) :
    x ∈ selectedIps w family pol :=
  List.mem_flatMap.mpr ⟨pod, List.mem_filter.mpr ⟨hpod, hs⟩, hx⟩

/-- A pod that owns exactly the `dir` end of the packet marks it when no policy isolates it in
    that direction, when a rule of that direction matches, or by a cross hit. -/
theorem podMatched_iff (hnames : DistinctNames cfg w family)
    (hsets : SetsOf (buildPlan cfg w family).ipsets sets)
    (hnamed : ∀ pol ∈ w.policies, NoNamedPorts pol) {pod : Pod} {dir : Direction}
    (hpod : pod ∈ w.pods) (hown : pkt.addr dir.targetSide ∈ podFamilyIps pod family)
    (hother : pkt.addr dir.peerSide ∉ podFamilyIps pod family) :
    podMatched cfg w family sets pkt pod = true ↔
      ¬ Isolated w dir pod ∨
      (∃ pol ∈ w.policies, policySelects pol pod = true ∧ dir.covers pol = true ∧
        ∃ r ∈ dir.rules pol, ruleHas w family pol dir pkt r = true) ∨
      CrossHit w family pkt dir pod := by
  rw [podMatched, List.any_eq_true]
  simp only [dispatchHit_iff hnames hsets hnamed]
  constructor
  · rintro ⟨ip, hip, ⟨pol, hsel, hgate, d, hhit⟩ | ⟨d, hiso, haddr⟩⟩
    · obtain ⟨hp, -, hs⟩ := mem_selecting.mp hsel
      rcases d.eq_or_eq_opposite dir with rfl | rfl
      · exact Or.inr (Or.inl ⟨pol, hp, hs, hhit.1, hhit.2.2⟩)
      · cases hc : dir.covers pol with
        | true => exact Or.inr (Or.inr ⟨pol, hp, hs, hc, hhit⟩)
        | false =>
          -- The gate of a policy for the other direction looks at the other end.
          have := hgate dir.opposite (by rwa [Direction.opposite_opposite])
          rw [Direction.opposite_targetSide] at this
          exact absurd (this ▸ hip) hother
    · rcases d.eq_or_eq_opposite dir with rfl | rfl
      · exact Or.inl hiso
      · rw [Direction.opposite_targetSide] at haddr
        exact absurd (haddr ▸ hip) hother
  · rintro (hiso | ⟨pol, hp, hs, hc, r, hr, hh⟩ | ⟨pol, hp, hs, hc, hhit⟩)
    · exact ⟨_, hown, Or.inr ⟨dir, hiso, rfl⟩⟩
    · refine ⟨_, hown, Or.inl ⟨pol, mem_selecting.mpr ⟨hp, active_of_covers hc, hs⟩, ?_, dir, hc,
        mem_selectedIps hpod hs hown, r, hr, hh⟩⟩
      intro d hd
      rcases d.eq_or_eq_opposite dir with rfl | rfl
      · rfl
      · rw [Direction.opposite_opposite, hc] at hd
        cases hd
    · refine ⟨_, hown, Or.inl ⟨pol, mem_selecting.mpr ⟨hp, active_of_covers hc, hs⟩, ?_, _, hhit⟩⟩
      intro d hd
      rcases d.eq_or_eq_opposite dir with rfl | rfl
      · rfl
      · rw [Direction.opposite_opposite, hc] at hd
        cases hd

/-! ## Worlds of single-direction policies -/

/-- Each policy declares exactly one direction. -/
def SingleDirection (w : PolicyWorld) : Prop :=
  ∀ pol ∈ w.policies, pol.policyTypes.ingress ≠ pol.policyTypes.egress

instance (w : PolicyWorld) : Decidable (SingleDirection w) :=
  inferInstanceAs (Decidable (∀ pol ∈ w.policies, _))

/-- No rule has an ipBlock peer. -/
def NoIpBlocks (pol : NetworkPolicy) : Prop :=
  ∀ r ∈ pol.ingress ++ pol.egress, ∀ peer ∈ r.peers, peer.isIpBlock = false

instance : DecidablePred NoIpBlocks := fun pol =>
  inferInstanceAs (Decidable (∀ r ∈ pol.ingress ++ pol.egress, ∀ peer ∈ r.peers, _))

/-- A local pod off the host network owns the `dir` end of the packet, some policy isolates it
    in that direction and no rule of such a policy admits the packet. -/
def Denied (cfg : Config) (w : PolicyWorld) (dir : Direction) (pkt : Packet) : Prop :=
  ∃ pod ∈ w.pods, pod.nodeName = cfg.node ∧ pod.hostNetwork = false ∧
    pkt.addr dir.targetSide ∈ pod.ips ∧ Isolated w dir pod ∧ ¬ Admitted w dir pod pkt

theorem not_crossHit (hone : SingleDirection w) {dir : Direction} {pod : Pod} :
    ¬ CrossHit w family pkt dir pod := by
  rintro ⟨pol, hp, -, hc, ho, -⟩
  refine hone pol hp ?_
  cases dir <;> simp_all [Direction.opposite, Direction.covers]

theorem addr_family (pkt : Packet) (side : Side) : (pkt.addr side).family = pkt.family := by
  cases side with
  | src => rfl
  | dst => exact pkt.sameFamily.symm

/-- Without shared chains, ipBlocks and named ports, a pod chain marks what the reference
    lets the pod exchange. -/
theorem podMatched_iff_admitted (hnames : DistinctNames cfg w pkt.family)
    (hsets : SetsOf (buildPlan cfg w pkt.family).ipsets sets)
    (hnamed : ∀ pol ∈ w.policies, NoNamedPorts pol) (hblock : ∀ pol ∈ w.policies, NoIpBlocks pol)
    (hone : SingleDirection w) {pod : Pod} {dir : Direction} (hpod : pod ∈ w.pods)
    (hown : pkt.addr dir.targetSide ∈ podFamilyIps pod pkt.family)
    (hother : pkt.addr dir.peerSide ∉ podFamilyIps pod pkt.family) :
    podMatched cfg w pkt.family sets pkt pod = true ↔
      ¬ Isolated w dir pod ∨ Admitted w dir pod pkt := by
  rw [podMatched_iff hnames hsets hnamed hpod hown hother, or_iff_left (not_crossHit hone)]
  refine or_congr_right (exists_congr fun pol => and_congr_right fun hp => and_congr_right fun _ =>
    and_congr_right fun _ => exists_congr fun r => and_congr_right fun hr => ?_)
  have hr' := Direction.mem_rules hr
  exact ruleHas_iff_admits (hnamed pol hp r hr') (hblock pol hp r hr') (addr_family pkt _)

/-- TCP, UDP and SCTP packets of a new connection pass COMMON undecided. -/
theorem commonVerdict_ported (hnew : pkt.ctstate = .new) (hport : pkt.transport.dport ≠ none) :
    commonVerdict family pkt = none := by
  have hicmp : pkt.transport.icmpType = none := by
    cases ht : pkt.transport <;> simp_all [Transport.dport, Transport.icmpType]
  simp [commonVerdict, hnew, isCommonIcmp, hicmp]

theorem mem_chainPods {pod : Pod} : pod ∈ chainPods cfg w family ↔ pod ∈ w.pods ∧
    pod.nodeName = cfg.node ∧ pod.hostNetwork = false ∧ podFamilyIps pod family ≠ [] ∧
      selecting w pod ≠ [] := by
  simp [chainPods, and_assoc]

theorem clear_of_and {m : Mark} (h : m &&& markMatched = 0) :
    (hasMark markMatched).passes m = false := by
  simp only [Filter.MarkTest.passes, hasMark, h]
  decide

/-- With distinct pod chains a hook runs the bodies of the pods it jumps for. -/
theorem mem_entered_iff (hnames : DistinctNames cfg w family) {h : Hook} {pod : Pod} :
    pod ∈ entered cfg w family pkt (h.jumps cfg) ↔ pod ∈ visits cfg w family pkt (h.jumps cfg) := by
  rw [mem_entered]
  constructor
  · rintro ⟨hp, v, hv, he⟩
    have hvp := (mem_visits.mp hv).1
    rwa [hnames.pods pod (mem_chainPods.mp hp).1 v (mem_chainPods.mp hvp).1 he]
  · exact fun hv => ⟨(mem_visits.mp hv).1, pod, hv, rfl⟩

/-- Without default-deny the tail rejects nothing. -/
theorem tailFlow_ne_reject (hdeny : cfg.defaultDeny = false) (sets : SetView) (m : Mark) :
    tailFlow cfg pkt.family sets pkt m ≠ .done .reject := by
  simp only [tailFlow, hdeny, Bool.false_and, Bool.false_eq_true, if_false]
  split <;> simp

/-- Seen from either end, an entered chain that does not mark the packet is a denial. -/
theorem denied_iff_unmatched (hnames : DistinctNames cfg w pkt.family) (hone : SingleDirection w)
    (hnamed : ∀ pol ∈ w.policies, NoNamedPorts pol) (hblock : ∀ pol ∈ w.policies, NoIpBlocks pol)
    (happart : ∀ pod ∈ w.pods, ¬ (pkt.src ∈ pod.ips ∧ pkt.dst ∈ pod.ips)) (dir : Direction) :
    Denied cfg w dir pkt ↔ ∃ pod ∈ chainPods cfg w pkt.family,
      pkt.addr dir.targetSide ∈ podFamilyIps pod pkt.family ∧
      podMatched cfg w pkt.family
        (planView (buildPlan cfg w pkt.family).ipsets) pkt pod = false := by
  have hend : ∀ pod ∈ w.pods, pkt.addr dir.targetSide ∈ podFamilyIps pod pkt.family →
      (podMatched cfg w pkt.family (planView (buildPlan cfg w pkt.family).ipsets) pkt pod = true ↔
        ¬ Isolated w dir pod ∨ Admitted w dir pod pkt) := by
    intro pod hpod hown
    refine podMatched_iff_admitted hnames (planView_setsOf hnames.sets) hnamed hblock hone hpod hown
      fun hother => ?_
    have h1 := (mem_podFamilyIps.mp hown).1
    have h2 := (mem_podFamilyIps.mp hother).1
    cases dir with
    | ingress => exact happart pod hpod ⟨h2, h1⟩
    | egress => exact happart pod hpod ⟨h1, h2⟩
  constructor
  · rintro ⟨pod, hp, hnode, hhost, hown, hiso, hadm⟩
    have hown' : pkt.addr dir.targetSide ∈ podFamilyIps pod pkt.family :=
      mem_podFamilyIps.mpr ⟨hown, addr_family pkt _⟩
    refine ⟨pod, mem_chainPods.mpr ⟨hp, hnode, hhost, List.ne_nil_of_mem hown', ?_⟩, hown', ?_⟩
    · obtain ⟨pol, hpol, hs, hc⟩ := hiso
      exact List.ne_nil_of_mem (mem_selecting.mpr ⟨hpol, active_of_covers hc, hs⟩)
    · rw [Bool.eq_false_iff, ne_eq, hend pod hp hown']
      exact fun hor => hor.elim (fun hi => hi hiso) hadm
  · rintro ⟨pod, hchain, hown, hm⟩
    obtain ⟨hp, hnode, hhost, -, -⟩ := mem_chainPods.mp hchain
    rw [Bool.eq_false_iff, ne_eq, hend pod hp hown, not_or, not_not] at hm
    exact ⟨pod, hp, hnode, hhost, (mem_podFamilyIps.mp hown).1, hm⟩

/-- FORWARD and OUTPUT reject exactly what the reference denies at one of the two ends. -/
theorem traverse_rejects_iff_denied (hlen : ∀ s, (cfg.hash16 s).length = hashLen)
    (hnames : DistinctNames cfg w pkt.family) (hdeny : cfg.defaultDeny = false)
    (hone : SingleDirection w) (hnamed : ∀ pol ∈ w.policies, NoNamedPorts pol)
    (hblock : ∀ pol ∈ w.policies, NoIpBlocks pol) (hnew : pkt.ctstate = .new)
    (hport : pkt.transport.dport ≠ none) (hsrc : pkt.srcLocal = false)
    (hmark : pkt.mark &&& markMatched = 0)
    (happart : ∀ pod ∈ w.pods, ¬ (pkt.src ∈ pod.ips ∧ pkt.dst ∈ pod.ips))
    (h : Hook) (hh : h ≠ .input) (n : Nat) :
    traverse (buildPlan cfg w pkt.family).rules (planView (buildPlan cfg w pkt.family).ipsets)
        (n + 3) h.chain pkt = .done .reject ↔
      Denied cfg w .egress pkt ∨ Denied cfg w .ingress pkt := by
  have hspares : h.spares cfg pkt.family pkt = false := by simp [Hook.spares, hh]
  have hdenied := denied_iff_unmatched hnames hone hnamed hblock happart
  -- Both hooks visit the chain of a pod at either end.
  have hvisit : ∀ (dir : Direction) (pod : Pod), pod ∈ chainPods cfg w pkt.family →
      pkt.addr dir.targetSide ∈ podFamilyIps pod pkt.family →
      pod ∈ visits cfg w pkt.family pkt (h.jumps cfg) := by
    intro dir pod hpod hown
    refine mem_visits.mpr ⟨hpod, ?_⟩
    cases dir with
    | ingress => exact Or.inr ⟨hh, hown⟩
    | egress => exact Or.inl hown
  rw [traverse_hook hlen, hspares, if_neg (by simp), clear_of_and hmark,
    podsVerdict_unmarked (commonVerdict_ported hnew hport) hsrc, hdenied, hdenied]
  cases hall : (entered cfg w pkt.family pkt (h.jumps cfg)).all
      (podMatched cfg w pkt.family (planView (buildPlan cfg w pkt.family).ipsets) pkt) with
  | true =>
    rw [if_pos rfl]
    refine iff_of_false (tailFlow_ne_reject hdeny _ _) ?_
    rw [List.all_eq_true] at hall
    rintro (⟨pod, hp, hown, hm⟩ | ⟨pod, hp, hown, hm⟩)
    · have := hall pod ((mem_entered_iff hnames).mpr (hvisit .egress pod hp hown))
      simp [hm] at this
    · have := hall pod ((mem_entered_iff hnames).mpr (hvisit .ingress pod hp hown))
      simp [hm] at this
  | false =>
    rw [if_neg (by simp)]
    refine iff_of_true rfl ?_
    rw [List.all_eq_false] at hall
    obtain ⟨pod, hent, hm⟩ := hall
    obtain ⟨hp, hown⟩ := mem_visits.mp ((mem_entered_iff hnames).mp hent)
    rcases hown with hown | ⟨-, hown⟩
    · exact Or.inl ⟨pod, hp, hown, by simpa using hm⟩
    · exact Or.inr ⟨pod, hp, hown, by simpa using hm⟩

/-! ## Both directions in one chain -/

/-- The packet in the chain of `pod` where its first mark test stands. -/
def dispatched (cfg : Config) (w : PolicyWorld) (family : IpFamily) (sets : SetView) (pkt : Packet)
    (n : Nat) (pod : Pod) : Flow :=
  let rules := (buildPlan cfg w family).rules
  evalRules (Cond.holds sets pkt) (evalChain (Cond.holds sets pkt) (chainOf rules) n)
    ((chainOf rules (podChain cfg pod)).takeWhile (·.markTest.isNone)) pkt.mark

/-- The packet ends up with the matched mark inside the chain of `pod`. -/
def MarkedIn (cfg : Config) (w : PolicyWorld) (family : IpFamily) (sets : SetView) (pkt : Packet)
    (n : Nat) (pod : Pod) : Prop :=
  ∃ m, dispatched cfg w family sets pkt n pod = .next m ∧ (hasMark markMatched).passes m = true

/-- Whatever follows it, the body of a pod chain reaches its first mark test behind `preRules`. -/
theorem takeWhile_podChainRules (pod : Pod) (rest : List Rule) :
    (podChainRules cfg w family pod ++ rest).takeWhile (·.markTest.isNone) =
      preRules cfg w family pod := by
  rw [podChainRules_eq, List.append_assoc, List.takeWhile_append_of_pos]
  · simp
  · intro r hr
    simp only [preRules, List.mem_append, List.mem_singleton, List.mem_map, List.mem_flatMap] at hr
    rcases hr with (rfl | ⟨ip, -, rfl⟩) | ⟨ip, -, hr⟩
    · rfl
    · rfl
    · simp only [dispatchRules, List.mem_append, List.mem_map] at hr
      rcases hr with (⟨pol, -, rfl⟩ | hr) | hr
      · rfl
      · split at hr <;> simp_all [defaultJump]
      · split at hr <;> simp_all [defaultJump]

/-- With distinct names, the chain of a pod marks a new connection of a remote sender exactly
    when it exists and `podMatched` holds. -/
theorem markedIn_iff (hlen : ∀ s, (cfg.hash16 s).length = hashLen)
    (hnames : DistinctNames cfg w family) (hc : commonVerdict family pkt = none)
    (hsrc : pkt.srcLocal = false) (hmark : pkt.mark &&& markMatched = 0) {pod : Pod}
    (hpod : pod ∈ w.pods) (n : Nat) :
    MarkedIn cfg w family sets pkt (n + 1) pod ↔
      pod ∈ chainPods cfg w family ∧ podMatched cfg w family sets pkt pod = true := by
  have hsame : ∀ q ∈ chainPods cfg w family, podChain cfg q = podChain cfg pod → q = pod :=
    fun q hq => hnames.pods q (mem_chainPods.mp hq).1 pod hpod
  simp only [MarkedIn, dispatched, chainOf_pod]
  cases hf : (chainPods cfg w family).filter (podChain cfg · == podChain cfg pod) with
  | nil =>
    have hnot : pod ∉ chainPods cfg w family := fun hp => by
      simpa using List.filter_eq_nil_iff.mp hf pod hp
    refine iff_of_false ?_ fun h => hnot h.1
    rintro ⟨m, hm, hp⟩
    obtain rfl : pkt.mark = m := Flow.next.inj hm
    rw [clear_of_and hmark] at hp
    cases hp
  | cons q qs =>
    have hq : q ∈ chainPods cfg w family ∧ podChain cfg q = podChain cfg pod := by
      simpa using (List.mem_filter (p := (podChain cfg · == podChain cfg pod))).mp
        (hf ▸ List.mem_cons_self)
    obtain rfl : q = pod := hsame q hq.1 hq.2
    rw [List.flatMap_cons, takeWhile_podChainRules, evalRules_preRules hlen, hc]
    simp only [hsrc, Bool.false_and, Bool.false_eq_true, if_false, Flow.next.injEq,
      exists_eq_left', hq.1, true_and]
    cases podMatched cfg w family sets pkt q <;> simp [hasMark_or, clear_of_and hmark]

/-- The reference lets the pod exchange the packet in that direction. -/
def Allowed (w : PolicyWorld) (dir : Direction) (pod : Pod) (pkt : Packet) : Prop :=
  ¬ Isolated w dir pod ∨ Admitted w dir pod pkt

/-- A pod off the host network shares no address with another pod. -/
def OwnAddresses (w : PolicyWorld) : Prop :=
  ∀ p ∈ w.pods, p.hostNetwork = false → ∀ q ∈ w.pods, q ≠ p → ∀ x ∈ p.ips, x ∉ q.ips

instance (w : PolicyWorld) : Decidable (OwnAddresses w) :=
  inferInstanceAs (Decidable (∀ p ∈ w.pods, _ → ∀ q ∈ w.pods, _ → ∀ x ∈ p.ips, _))

/-- A chain marks only what the reference allows its pod, cross hits apart. -/
theorem markedIn_allowed_iff (dir : Direction) (hlen : ∀ s, (cfg.hash16 s).length = hashLen)
    (hnames : DistinctNames cfg w pkt.family)
    (hsets : SetsOf (buildPlan cfg w pkt.family).ipsets sets)
    (hnamed : ∀ pol ∈ w.policies, NoNamedPorts pol) (hc : commonVerdict pkt.family pkt = none)
    (hsrc : pkt.srcLocal = false) (hmark : pkt.mark &&& markMatched = 0) {pod : Pod}
    (hpod : pod ∈ w.pods) (hnode : pod.nodeName = cfg.node)
    (hown : pkt.addr dir.targetSide ∈ pod.ips)
    (hother : pod.hostNetwork = false → pkt.addr dir.peerSide ∉ pod.ips) (n : Nat) :
    (MarkedIn cfg w pkt.family sets pkt (n + 1) pod → Allowed w dir pod pkt) ↔
      (pod.hostNetwork = false → CrossHit w pkt.family pkt dir pod → Allowed w dir pod pkt) := by
  have hown' : pkt.addr dir.targetSide ∈ podFamilyIps pod pkt.family :=
    mem_podFamilyIps.mpr ⟨hown, addr_family pkt _⟩
  have hmatched : pod.hostNetwork = false →
      (podMatched cfg w pkt.family sets pkt pod = true ↔ _) := fun hhost =>
    podMatched_iff hnames hsets hnamed hpod hown' fun h =>
      hother hhost (mem_podFamilyIps.mp h).1
  rw [markedIn_iff hlen hnames hc hsrc hmark hpod]
  constructor
  · intro h hhost hcross
    obtain ⟨pol, hp, hs, hcov, -⟩ := id hcross
    have hsel : selecting w pod ≠ [] :=
      List.ne_nil_of_mem (mem_selecting.mpr ⟨hp, active_of_covers hcov, hs⟩)
    exact h ⟨mem_chainPods.mpr ⟨hpod, hnode, hhost, List.ne_nil_of_mem hown', hsel⟩,
      (hmatched hhost).mpr (Or.inr (Or.inr hcross))⟩
  · rintro h ⟨hchain, hm⟩
    have hhost := (mem_chainPods.mp hchain).2.2.1
    rcases (hmatched hhost).mp hm with hiso | ⟨pol, hp, hs, hcov, r, hr, hh⟩ | hcross
    · exact Or.inl hiso
    · exact Or.inr ⟨pol, hp, hs, hcov, r, hr,
        ruleHas_admits (hnamed pol hp r (Direction.mem_rules hr)) hh⟩
    · exact h hhost hcross

/-- Each end of a packet between two local pods is judged by its own direction exactly when no
    cross hit marks it against the reference. -/
theorem direction_separation_iff (hlen : ∀ s, (cfg.hash16 s).length = hashLen)
    (hnames : DistinctNames cfg w pkt.family) (hnamed : ∀ pol ∈ w.policies, NoNamedPorts pol)
    (hips : OwnAddresses w) (hnew : pkt.ctstate = .new) (hport : pkt.transport.dport ≠ none)
    (hsrc : pkt.srcLocal = false) (hmark : pkt.mark &&& markMatched = 0) {A B : Pod}
    (hA : A ∈ w.pods) (hB : B ∈ w.pods) (hAB : A ≠ B) (hnodeA : A.nodeName = cfg.node)
    (hnodeB : B.nodeName = cfg.node) (hs : pkt.src ∈ A.ips) (hd : pkt.dst ∈ B.ips) (n : Nat) :
    ((MarkedIn cfg w pkt.family (planView (buildPlan cfg w pkt.family).ipsets) pkt (n + 1) A →
        Allowed w .egress A pkt) ∧
      (MarkedIn cfg w pkt.family (planView (buildPlan cfg w pkt.family).ipsets) pkt (n + 1) B →
        Allowed w .ingress B pkt)) ↔
    ((A.hostNetwork = false → CrossHit w pkt.family pkt .egress A → Allowed w .egress A pkt) ∧
      (B.hostNetwork = false → CrossHit w pkt.family pkt .ingress B →
        Allowed w .ingress B pkt)) := by
  have hsets := planView_setsOf hnames.sets
  have hc : commonVerdict pkt.family pkt = none := commonVerdict_ported hnew hport
  refine and_congr ?_ ?_
  · exact markedIn_allowed_iff .egress hlen hnames hsets hnamed hc hsrc hmark hA hnodeA hs
      (fun hhost hda => hips A hA hhost B hB hAB.symm _ hda hd) n
  · exact markedIn_allowed_iff .ingress hlen hnames hsets hnamed hc hsrc hmark hB hnodeB hd
      (fun hhost hsb => hips B hB hhost A hA hAB _ hsb hs) n

end Matched

/-! ## A small cluster -/

def cartIp : IpAddr := .ofOctets 10 0 0 1
def payIp : IpAddr := .ofOctets 10 0 0 2

def cart : Pod where
  ns := "shop"
  name := "cart"
  labels := [("app", "cart")]
  ips := [cartIp]
  nodeName := "n1"
  hostNetwork := false
  containerPorts := []

def pay : Pod := { cart with name := "pay", labels := [("app", "pay")], ips := [payIp] }

def sampleConfig : Config where
  hash16 := sampleHash
  node := "n1"

/-- A new TCP connection from `cart` to `pay`. -/
def cartToPay (port : UInt16) : Packet where
  src := cartIp
  dst := payIp
  transport := .tcp port

/-- Ingress to `pay`, from `cart` and on TCP port 80 only. -/
def front : NetworkPolicy where
  ns := "shop"
  name := "front"
  podSelector := ⟨[("app", "pay")], []⟩
  policyTypes := ⟨true, false⟩
  ingress := [⟨[.selector none (some ⟨[("app", "cart")], []⟩)], [⟨"tcp", .number 80⟩]⟩]
  egress := []

def frontWorld : PolicyWorld := { policies := [front], pods := [cart, pay] }

theorem frontWorld_names : DistinctNames sampleConfig frontWorld .V4 where
  policies := by decide +kernel
  pods := by decide +kernel
  sets := by decide +kernel

theorem pay_denied_81 : Denied sampleConfig frontWorld .ingress (cartToPay 81) := by
  refine ⟨pay, by decide, rfl, rfl, by decide, ⟨front, by decide, by decide, rfl⟩, ?_⟩
  rintro ⟨pol, hp, -, -, r, hr, hadm⟩
  rw [List.mem_singleton.mp hp] at hr
  rw [List.mem_singleton.mp hr] at hadm
  simp [PolicyRule.Admits, PortSpec.Admits, cartToPay, Transport.dport] at hadm

theorem forward_rejects_cart_to_pay_81 :
    traverse (buildPlan sampleConfig frontWorld (cartToPay 81).family).rules
        (planView (buildPlan sampleConfig frontWorld (cartToPay 81).family).ipsets) (0 + 3)
        Hook.forward.chain (cartToPay 81) = .done .reject :=
  (traverse_rejects_iff_denied sampleHash_length frontWorld_names rfl (by decide)
    (by decide) (by decide) rfl (by decide) rfl rfl (by decide) .forward (by decide) 0).mpr
    (Or.inr pay_denied_81)

/-- One policy over both pods and both directions: everything in, nothing out. -/
def all : NetworkPolicy where
  ns := "shop"
  name := "all"
  podSelector := ⟨[], []⟩
  policyTypes := ⟨true, true⟩
  ingress := [⟨[], []⟩]
  egress := []

def allWorld : PolicyWorld := { policies := [all], pods := [cart, pay] }

theorem allWorld_names : DistinctNames sampleConfig allWorld .V4 where
  policies := by decide +kernel
  pods := by decide +kernel
  sets := by decide +kernel

/-- `cart` may send nothing, but the ingress rule marks its packet in its own chain. -/
theorem cart_marked_by_ingress_rule :
    MarkedIn sampleConfig allWorld (cartToPay 80).family
        (planView (buildPlan sampleConfig allWorld (cartToPay 80).family).ipsets) (cartToPay 80)
        (0 + 1) cart ∧
      ¬ Allowed allWorld .egress cart (cartToPay 80) := by
  constructor
  · exact ⟨markMatched, by decide +kernel, by decide⟩
  · rintro (hiso | ⟨pol, hp, -, -, r, hr, -⟩)
    · exact hiso ⟨all, by decide, by decide, rfl⟩
    · rw [List.mem_singleton.mp hp] at hr
      exact absurd hr List.not_mem_nil

/-- So direction separation does not hold for every world. -/
theorem not_direction_separation :
    ¬ ∀ (cfg : Config) (w : PolicyWorld) (pkt : Packet) (A B : Pod) (n : Nat),
      (∀ s, (cfg.hash16 s).length = hashLen) → DistinctNames cfg w pkt.family →
      cfg.defaultDeny = false → (∀ pol ∈ w.policies, NoNamedPorts pol) → OwnAddresses w →
      pkt.ctstate = .new → pkt.transport.dport ≠ none → pkt.srcLocal = false → pkt.mark = 0 →
      A ∈ w.pods → B ∈ w.pods → A ≠ B → A.nodeName = cfg.node → B.nodeName = cfg.node →
      pkt.src ∈ A.ips → pkt.dst ∈ B.ips →
      (MarkedIn cfg w pkt.family (planView (buildPlan cfg w pkt.family).ipsets) pkt (n + 1) A →
        Allowed w .egress A pkt) ∧
      (MarkedIn cfg w pkt.family (planView (buildPlan cfg w pkt.family).ipsets) pkt (n + 1) B →
        Allowed w .ingress B pkt) := by
  intro h
  obtain ⟨hmarked, hdenied⟩ := cart_marked_by_ingress_rule
  exact hdenied ((h sampleConfig allWorld (cartToPay 80) cart pay 0 sampleHash_length allWorld_names
    rfl (by decide) (by decide) rfl (by decide) rfl rfl (by decide) (by decide) (by decide) rfl rfl
    (by decide) (by decide)).1 hmarked)

/-- A single-direction world has no cross hit, so its ends are separated. -/
theorem frontWorld_separated :
    (MarkedIn sampleConfig frontWorld (cartToPay 80).family
        (planView (buildPlan sampleConfig frontWorld (cartToPay 80).family).ipsets) (cartToPay 80)
        (0 + 1) cart → Allowed frontWorld .egress cart (cartToPay 80)) ∧
      (MarkedIn sampleConfig frontWorld (cartToPay 80).family
        (planView (buildPlan sampleConfig frontWorld (cartToPay 80).family).ipsets) (cartToPay 80)
        (0 + 1) pay → Allowed frontWorld .ingress pay (cartToPay 80)) :=
  (direction_separation_iff sampleHash_length frontWorld_names (by decide) (by decide) rfl
    (by decide) rfl rfl (by decide) (by decide) (by decide) rfl rfl (by decide) (by decide) 0).mpr
    ⟨fun _ h => absurd h (not_crossHit (by decide)), fun _ h => absurd h (not_crossHit (by decide))⟩

end KubeRouter.Netpol
