/-
  Default-deny: what KUBE-NWPLCY-TAIL rejects, and which packets get past a hook.

  The local-pods set holds the addresses of the pods that got a chain, i.e. of the selected
  local ones (`programmedIps`). It is the last set of a plan, so its contents do not depend on
  the other set names. The tail then rejects a packet exactly when an address of it inside the
  pod CIDRs is not in that set, or when one lies inside and the packet carries no accept mark
  (`tailFlow_rejects_iff`). A pod no policy selects is never in the set: its own address, inside
  the pod CIDRs, is enough for a reject (`QuietPacket.rejected_iff_inCidrs`). Where an
  address belongs to a selected local pod as well, that pod's policies are asked first, and what
  they say is the reference's `Denied` under the premises of the reference (`Readable`).
-/
import KubeRouter.Netpol.Soundness

namespace KubeRouter.Netpol

open Filter (Mark)

section Tail

variable (cfg : Config) (w : PolicyWorld) (family : IpFamily) (pkt : Packet)

/-- Some pod CIDR of the family contains the address. -/
def InCidrs (x : IpAddr) : Prop := ∃ cidr ∈ familyCidrs cfg family, cidr.contains x = true

/-- The address belongs to a local pod off the host network that some policy selects. -/
def Programmed (x : IpAddr) : Prop :=
  ∃ pod ∈ w.pods, pod.nodeName = cfg.node ∧ pod.hostNetwork = false ∧
    (∃ pol ∈ w.policies, pol.active = true ∧ policySelects pol pod = true) ∧
      x ∈ podFamilyIps pod family

/-- A packet the tail does not reject: its addresses inside the pod CIDRs are programmed and, if
    there is one, the packet carries the accept mark. -/
def TailOk (m : Mark) : Prop :=
  (∀ side, InCidrs cfg family (pkt.addr side) → Programmed cfg w family (pkt.addr side)) ∧
    ((∃ side, InCidrs cfg family (pkt.addr side)) → (hasMark markAccepted).passes m = true)

variable {cfg w family pkt}

/-- The selected local pods are the pods with a chain. -/
theorem programmed_iff_chainPods {x : IpAddr} : Programmed cfg w family x ↔
    ∃ pod ∈ chainPods cfg w family, x ∈ podFamilyIps pod family := by
  constructor
  · intro h
    obtain ⟨pod, hp, hnode, hhost, ⟨pol, hpol, ha, hs⟩, hx⟩ := h
    exact ⟨pod, mem_chainPods.mpr ⟨hp, hnode, hhost, List.ne_nil_of_mem hx,
      List.ne_nil_of_mem (mem_selecting.mpr ⟨hpol, ha, hs⟩)⟩, hx⟩
  · intro h
    obtain ⟨pod, hchain, hx⟩ := h
    obtain ⟨hp, hnode, hhost, -, hsel⟩ := mem_chainPods.mp hchain
    obtain ⟨pol, hpol⟩ := List.exists_mem_of_ne_nil _ hsel
    obtain ⟨hpol, ha, hs⟩ := mem_selecting.mp hpol
    exact ⟨pod, hp, hnode, hhost, ⟨pol, hpol, ha, hs⟩, hx⟩

theorem mem_programmedIps {x : IpAddr} :
    x ∈ programmedIps cfg w family ↔ Programmed cfg w family x :=
  List.mem_flatMap.trans programmed_iff_chainPods.symm

/-- The last set pushed is the local-pods set. -/
theorem planView_localPods (hdeny : cfg.defaultDeny = true) (x : IpAddr) :
    planView (buildPlan cfg w family).ipsets (localPodsSet family) x =
      (programmedIps cfg w family).contains x := by
  have hlast : (buildPlan cfg w family).ipsets =
      (FirewallPlan.collect (w.policies.filter (·.active)) (policyPlan cfg w family) ++
        FirewallPlan.collect (chainPods cfg w family) (podPlan cfg w family)).ipsets ++
      [⟨localPodsSet family, family, .hashIp (programmedIps cfg w family)⟩] := by
    simp [buildPlan, hdeny]
  unfold planView
  rw [hlast, List.reverse_append, List.reverse_singleton, List.singleton_append,
    List.find?_cons_of_pos (by simp)]
  rfl

theorem exists_side {p : Side → Prop} : (∃ side, p side) ↔ p .src ∨ p .dst := by
  constructor
  · intro h
    obtain ⟨side, hs⟩ := h
    cases side with
    | src => exact Or.inl hs
    | dst => exact Or.inr hs
  · intro h
    rcases h with h | h
    · exact ⟨.src, h⟩
    · exact ⟨.dst, h⟩

theorem inPodCidrs_iff :
    inPodCidrs cfg family pkt = true ↔ ∃ side, InCidrs cfg family (pkt.addr side) := by
  rw [exists_side, inPodCidrs, List.any_eq_true]
  simp only [Bool.or_eq_true, and_or_left, exists_or]
  rfl

theorem unprogrammed_iff (hdeny : cfg.defaultDeny = true) :
    unprogrammed cfg family (planView (buildPlan cfg w family).ipsets) pkt = true ↔
      ∃ side, InCidrs cfg family (pkt.addr side) ∧ ¬ Programmed cfg w family (pkt.addr side) := by
  have hset : ∀ x, (!planView (buildPlan cfg w family).ipsets (localPodsSet family) x) = true ↔
      ¬ Programmed cfg w family x := by
    intro x
    rw [planView_localPods hdeny, ← mem_programmedIps]
    simp
  rw [exists_side, unprogrammed, List.any_eq_true]
  simp only [Bool.or_eq_true, Bool.and_eq_true, hset, and_or_left, exists_or, ← and_assoc]
  simp only [exists_and_right]
  rfl

theorem tailFlow_rejects_iff (hdeny : cfg.defaultDeny = true) (m : Mark) :
    tailFlow cfg family (planView (buildPlan cfg w family).ipsets) pkt m = .done .reject ↔
      ¬ TailOk cfg w family pkt m := by
  have hopen : (∀ side, InCidrs cfg family (pkt.addr side) →
      Programmed cfg w family (pkt.addr side)) ↔
      unprogrammed cfg family (planView (buildPlan cfg w family).ipsets) pkt = false := by
    rw [← Bool.not_eq_true, unprogrammed_iff hdeny]
    push Not
    rfl
  unfold tailFlow TailOk
  rw [hopen, ← inPodCidrs_iff, hdeny, Bool.true_and, Bool.true_and]
  cases unprogrammed cfg family (planView (buildPlan cfg w family).ipsets) pkt <;>
    cases (hasMark markAccepted).passes m <;> cases inPodCidrs cfg family pkt <;> simp

end Tail

/-! ## Past a hook -/

section Hooks

variable (cfg : Config) (w : PolicyWorld) (pkt : Packet)

/-- The chains of selected pods that the packet enters at the hook, taken together. -/
def chainsVerdict (h : Hook) : Option Filter.Verdict :=
  podsVerdict cfg w pkt.family (planView (buildPlan cfg w pkt.family).ipsets) pkt
    ((hasMark markMatched).passes pkt.mark) (entered cfg w pkt.family pkt (h.jumps cfg))

/-- The packet gets past the hook: as service traffic on INPUT, by the verdict of the selected
    pods' chains, or, where these leave it open, by the tail's conditions. -/
def Spared (h : Hook) : Prop :=
  h.spares cfg pkt.family pkt = true ∨
    match chainsVerdict cfg w pkt h with
    | some v => v ≠ .reject
    | none => TailOk cfg w pkt.family pkt (tailMark cfg w pkt.family pkt h)

/-- What default-deny leaves alone, read off the inputs: service traffic on INPUT, and packets
    no policy of a pod at one of their ends denies whose addresses inside the pod CIDRs all
    belong to selected local pods. INPUT asks for no chain of the destination, so there a
    packet to such a pod needs its mark from elsewhere. -/
def LeftAlone (h : Hook) : Prop :=
  h.spares cfg pkt.family pkt = true ∨
    (¬ Denied cfg w .egress pkt ∧ (h ≠ .input → ¬ Denied cfg w .ingress pkt)) ∧
      (∀ side, InCidrs cfg pkt.family (pkt.addr side) →
        Programmed cfg w pkt.family (pkt.addr side)) ∧
      (h = .input → (∃ side, InCidrs cfg pkt.family (pkt.addr side)) →
        ¬ Programmed cfg w pkt.family pkt.src → (hasMark markAccepted).passes pkt.mark = true)

/-- The worlds and packets on which the chains of selected pods follow the reference. -/
structure Readable : Prop where
  names : DistinctNames cfg w pkt.family
  single : SingleDirection w
  numbered : ∀ pol ∈ w.policies, NoNamedPorts pol
  blockless : ∀ pol ∈ w.policies, NoIpBlocks pol
  port : pkt.transport.dport ≠ none
  remote : pkt.srcLocal = false
  unmarked : pkt.mark &&& markMatched = 0
  apart : ∀ pod ∈ w.pods, ¬ (pkt.src ∈ pod.ips ∧ pkt.dst ∈ pod.ips)

/-- An address inside the pod CIDRs that no pod of the snapshot owns. -/
def Unowned (x : IpAddr) : Prop :=
  InCidrs cfg pkt.family x ∧ ∀ pod ∈ w.pods, x ∉ pod.ips

variable {cfg w pkt}

theorem traverse_ne_reject_iff (hlen : ∀ s, (cfg.hash16 s).length = hashLen)
    (hdeny : cfg.defaultDeny = true) (h : Hook) (n : Nat) :
    traverse (buildPlan cfg w pkt.family).rules (planView (buildPlan cfg w pkt.family).ipsets)
        (n + 3) h.chain pkt ≠ .done .reject ↔ Spared cfg w pkt h := by
  rw [traverse_hook hlen, Spared, chainsVerdict]
  cases h.spares cfg pkt.family pkt with
  | true => simp
  | false =>
    rw [if_neg (by simp)]
    cases podsVerdict cfg w pkt.family (planView (buildPlan cfg w pkt.family).ipsets) pkt
        ((hasMark markMatched).passes pkt.mark) (entered cfg w pkt.family pkt (h.jumps cfg)) with
    | some v => simp
    | none => simp [tailFlow_rejects_iff hdeny]

theorem traverse_tail_rejects_iff (hlen : ∀ s, (cfg.hash16 s).length = hashLen)
    (hdeny : cfg.defaultDeny = true) (n : Nat) :
    traverse (buildPlan cfg w pkt.family).rules (planView (buildPlan cfg w pkt.family).ipsets)
        (n + 1) nwplcyTail pkt = .done .reject ↔ ¬ TailOk cfg w pkt.family pkt pkt.mark := by
  rw [traverse, evalChain_tail hlen, tailFlow_rejects_iff hdeny]

/-- A hook enters a chain exactly for the ends it looks at that selected local pods own. -/
theorem entered_eq_nil_iff {h : Hook} : entered cfg w pkt.family pkt (h.jumps cfg) = [] ↔
    ¬ Programmed cfg w pkt.family pkt.src ∧
      (h ≠ .input → ¬ Programmed cfg w pkt.family pkt.dst) := by
  simp only [programmed_iff_chainPods]
  constructor
  · intro hnil
    have hnone : ∀ pod, pod ∉ visits cfg w pkt.family pkt (h.jumps cfg) := by
      intro pod hv
      have hent := mem_entered.mpr ⟨(mem_visits.mp hv).1, pod, hv, rfl⟩
      simp [hnil] at hent
    refine ⟨?_, fun hh => ?_⟩
    · rintro ⟨pod, hp, hx⟩
      exact hnone pod (mem_visits.mpr ⟨hp, Or.inl hx⟩)
    · rintro ⟨pod, hp, hx⟩
      exact hnone pod (mem_visits.mpr ⟨hp, Or.inr ⟨hh, hx⟩⟩)
  · rintro ⟨hsrc, hdst⟩
    rw [List.eq_nil_iff_forall_not_mem]
    intro pod hpod
    obtain ⟨-, v, hv, -⟩ := mem_entered.mp hpod
    obtain ⟨hv, hown⟩ := mem_visits.mp hv
    rcases hown with hown | ⟨hh, hown⟩
    · exact hsrc ⟨v, hv, hown⟩
    · exact hdst hh ⟨v, hv, hown⟩

/-- A pod whose policies deny the packet is selected, so its address is programmed. -/
theorem Denied.programmed {dir : Direction} (h : Denied cfg w dir pkt) :
    Programmed cfg w pkt.family (pkt.addr dir.targetSide) := by
  obtain ⟨pod, hp, hnode, hhost, hown, ⟨pol, hpol, hs, hc⟩, -⟩ := h
  exact ⟨pod, hp, hnode, hhost, ⟨pol, hpol, active_of_covers hc, hs⟩,
    mem_podFamilyIps.mpr ⟨hown, addr_family pkt _⟩⟩

/-- Between addresses of no selected local pod only the pod CIDRs count. -/
theorem leftAlone_iff_outside (hun : ∀ side, ¬ Programmed cfg w pkt.family (pkt.addr side))
    (h : Hook) : LeftAlone cfg w pkt h ↔ h.spares cfg pkt.family pkt = true ∨
      ∀ side, ¬ InCidrs cfg pkt.family (pkt.addr side) := by
  have hdenied : ∀ dir, ¬ Denied cfg w dir pkt := fun dir hd => hun _ hd.programmed
  refine or_congr_right ?_
  constructor
  · intro hl side hin
    exact hun side (hl.2.1 side hin)
  · intro hout
    exact ⟨⟨hdenied _, fun _ => hdenied _⟩, fun side hin => absurd hin (hout side),
      fun _ hin => hin.elim fun side hin => absurd hin (hout side)⟩

theorem spared_iff_of_unprogrammed
    (hun : ∀ side, ¬ Programmed cfg w pkt.family (pkt.addr side)) (h : Hook) :
    Spared cfg w pkt h ↔ LeftAlone cfg w pkt h := by
  have hnil : entered cfg w pkt.family pkt (h.jumps cfg) = [] :=
    entered_eq_nil_iff.mpr ⟨hun .src, fun _ => hun .dst⟩
  rw [leftAlone_iff_outside hun, Spared, chainsVerdict, hnil, podsVerdict]
  refine or_congr_right ?_
  constructor
  · intro hok side hin
    exact hun side (hok.1 side hin)
  · intro hout
    exact ⟨fun side hin => absurd hin (hout side),
      fun hin => hin.elim fun side hin => absurd hin (hout side)⟩

/-- The entered chains all mark the packet exactly when no pod at an end the hook looks at
    denies it. -/
theorem all_matched_iff (hr : Readable cfg w pkt) {h : Hook} :
    (entered cfg w pkt.family pkt (h.jumps cfg)).all
        (podMatched cfg w pkt.family (planView (buildPlan cfg w pkt.family).ipsets) pkt) = true ↔
      ¬ Denied cfg w .egress pkt ∧ (h ≠ .input → ¬ Denied cfg w .ingress pkt) := by
  rw [denied_iff_unmatched hr.names hr.single hr.numbered hr.blockless hr.apart,
    denied_iff_unmatched hr.names hr.single hr.numbered hr.blockless hr.apart, List.all_eq_true]
  simp only [mem_entered_iff hr.names, mem_visits, Bool.eq_false_iff]
  constructor
  · intro hall
    refine ⟨?_, fun hh => ?_⟩
    · rintro ⟨pod, hp, hown, hm⟩
      exact hm (hall pod ⟨hp, Or.inl hown⟩)
    · rintro ⟨pod, hp, hown, hm⟩
      exact hm (hall pod ⟨hp, Or.inr ⟨hh, hown⟩⟩)
  · rintro ⟨hsrc, hdst⟩ pod ⟨hp, hown⟩
    by_contra hm
    rcases hown with hown | ⟨hh, hown⟩
    · exact hsrc ⟨pod, hp, hown, hm⟩
    · exact hdst hh ⟨pod, hp, hown, hm⟩

/-- Behind chains that all mark the packet the tail looks for unprogrammed addresses, and on
    INPUT for the mark of a packet that entered no chain. -/
theorem tailOk_tailMark_iff {h : Hook} :
    TailOk cfg w pkt.family pkt (tailMark cfg w pkt.family pkt h) ↔
      (∀ side, InCidrs cfg pkt.family (pkt.addr side) →
        Programmed cfg w pkt.family (pkt.addr side)) ∧
      (h = .input → (∃ side, InCidrs cfg pkt.family (pkt.addr side)) →
        ¬ Programmed cfg w pkt.family pkt.src → (hasMark markAccepted).passes pkt.mark = true) := by
  refine and_congr_right fun hprog => ?_
  rw [tailMark]
  by_cases hnil : entered cfg w pkt.family pkt (h.jumps cfg) = []
  · rw [hnil, List.isEmpty_nil, if_pos rfl]
    obtain ⟨hsrc, hdst⟩ := entered_eq_nil_iff.mp hnil
    refine ⟨fun hm _ hin _ => hm hin, fun hm hin => ?_⟩
    by_cases hh : h = .input
    · exact hm hh hin hsrc
    · -- Off INPUT no end is programmed, so none lies inside the pod CIDRs.
      obtain ⟨side, hin⟩ := hin
      have hp := hprog side hin
      cases side with
      | src => exact absurd hp hsrc
      | dst => exact absurd hp (hdst hh)
  · rw [if_neg (by simpa using hnil), passedMark_accepted]
    refine ⟨fun _ hh _ hsrc => ?_, fun _ _ => rfl⟩
    exact absurd (entered_eq_nil_iff.mpr ⟨hsrc, fun hne => absurd hh hne⟩) hnil

theorem spared_iff_of_readable (hnew : pkt.ctstate = .new) (hr : Readable cfg w pkt) (h : Hook) :
    Spared cfg w pkt h ↔ LeftAlone cfg w pkt h := by
  rw [Spared, chainsVerdict, clear_of_and hr.unmarked,
    podsVerdict_unmarked (commonVerdict_ported hnew hr.port) hr.remote, LeftAlone]
  refine or_congr_right ?_
  rw [← all_matched_iff hr, ← tailOk_tailMark_iff]
  cases (entered cfg w pkt.family pkt (h.jumps cfg)).all
      (podMatched cfg w pkt.family (planView (buildPlan cfg w pkt.family).ipsets) pkt) <;> simp

end Hooks

/-! ## Packets of an unselected pod -/

section Unselected

/-- A peer outside the pod CIDRs, or another local pod no policy selects. -/
def QuietPeer (cfg : Config) (w : PolicyWorld) (P : Pod) (x : IpAddr) : Prop :=
  (∀ cidr ∈ cfg.podCidrs, cidr.contains x = false) ∨
    ∃ Q ∈ w.pods, Q ≠ P ∧ Q.nodeName = cfg.node ∧
      (∀ pol ∈ w.policies, policySelects pol Q = false) ∧
      x ∈ Q.ips

/-- A new packet between a local pod off the host network that no policy selects and a quiet
    peer. -/
structure QuietPacket (cfg : Config) (w : PolicyWorld) (P : Pod) (pkt : Packet) : Prop where
  mem : P ∈ w.pods
  node : P.nodeName = cfg.node
  offHost : P.hostNetwork = false
  unselected : ∀ pol ∈ w.policies, policySelects pol P = false
  new : pkt.ctstate = .new
  between : pkt.src ∈ P.ips ∧ QuietPeer cfg w P pkt.dst ∨
    pkt.dst ∈ P.ips ∧ QuietPeer cfg w P pkt.src

variable {cfg : Config} {w : PolicyWorld} {pkt : Packet} {P : Pod}

/-- Where pods off the host network share no address and selected local pods live inside the
    pod CIDRs, neither end of a quiet packet belongs to a selected local pod. -/
theorem QuietPacket.unprogrammed (hq : QuietPacket cfg w P pkt) (hown : OwnAddresses w)
    (hhome : ∀ x, Programmed cfg w pkt.family x → InCidrs cfg pkt.family x) :
    ∀ side, ¬ Programmed cfg w pkt.family (pkt.addr side) := by
  have hpod : ∀ Q ∈ w.pods, (∀ pol ∈ w.policies, policySelects pol Q = false) → ∀ x ∈ Q.ips,
      ¬ Programmed cfg w pkt.family x := by
    intro Q hQ hun x hx hprog
    obtain ⟨R, hR, -, hhost, ⟨pol, hpol, -, hs⟩, hxR⟩ := hprog
    by_cases hQR : Q = R
    · subst hQR
      simp [hun pol hpol] at hs
    · exact hown R hR hhost Q hQ hQR x (mem_podFamilyIps.mp hxR).1 hx
  have hpeer : ∀ x, QuietPeer cfg w P x → ¬ Programmed cfg w pkt.family x := by
    intro x hx hprog
    rcases hx with hout | ⟨Q, hQ, -, -, hun, hxQ⟩
    · obtain ⟨cidr, hm, hc⟩ := hhome x hprog
      simp [hout cidr (List.mem_filter.mp hm).1] at hc
    · exact hpod Q hQ hun x hxQ hprog
  intro side
  rcases hq.between with ⟨hP, hx⟩ | ⟨hP, hx⟩ <;> cases side
  · exact hpod P hq.mem hq.unselected _ hP
  · exact hpeer _ hx
  · exact hpeer _ hx
  · exact hpod P hq.mem hq.unselected _ hP

/-- In such a cluster a quiet packet that is no service traffic is rejected by the pod CIDRs
    alone. -/
theorem QuietPacket.rejected_iff_inCidrs (hlen : ∀ s, (cfg.hash16 s).length = hashLen)
    (hdeny : cfg.defaultDeny = true) (hq : QuietPacket cfg w P pkt) (hown : OwnAddresses w)
    (hhome : ∀ x, Programmed cfg w pkt.family x → InCidrs cfg pkt.family x) (h : Hook) (n : Nat) :
    traverse (buildPlan cfg w pkt.family).rules (planView (buildPlan cfg w pkt.family).ipsets)
        (n + 3) h.chain pkt = .done .reject ↔
      h.spares cfg pkt.family pkt = false ∧ ∃ side, InCidrs cfg pkt.family (pkt.addr side) := by
  have hun := hq.unprogrammed hown hhome
  rw [← not_iff_not, ← ne_eq, traverse_ne_reject_iff hlen hdeny, spared_iff_of_unprogrammed hun,
    leftAlone_iff_outside hun, not_and_or, Bool.not_eq_false, not_exists]

end Unselected

/-! ## A node with one unselected pod -/

/-- Default-deny over 10.0.0.0/24. -/
def denyConfig : Config :=
  { sampleConfig with
    defaultDeny := true
    podCidrs := [⟨.ofOctets 10 0 0 0, 24, by decide⟩] }

/-- `cart` alone, with no policy in the cluster. -/
def loneWorld : PolicyWorld := { pods := [cart] }

theorem cartIp_sameFamily : cartIp.family = (IpAddr.ofOctets 192 0 2 1).family := rfl

/-- `cart` opens a connection to an address outside the cluster. -/
def cartToWorld : Packet where
  src := cartIp
  dst := .ofOctets 192 0 2 1
  transport := .tcp 443
  sameFamily := cartIp_sameFamily

/-- Default-deny over a range `cart` is not in. -/
def elsewhereConfig : Config :=
  { sampleConfig with
    defaultDeny := true
    podCidrs := [⟨.ofOctets 10 9 0 0, 24, by decide⟩] }

theorem frontWorld_elsewhere_names : DistinctNames elsewhereConfig frontWorld .V4 where
  policies := by decide +kernel
  pods := by decide +kernel
  sets := by decide +kernel

/-- `front` admits the packet that `cart` sends to port 80 of `pay`. -/
theorem front_admits_80 : Admitted frontWorld .ingress pay (cartToPay 80) :=
  ⟨front, by decide, by decide, rfl, _, List.mem_singleton_self _,
    Or.inr ⟨_, List.mem_singleton_self _, cart, by decide, rfl, rfl, by decide, by decide⟩,
    Or.inr ⟨_, List.mem_singleton_self _, rfl, rfl⟩⟩

theorem cartToPay_leftAlone : LeftAlone elsewhereConfig frontWorld (cartToPay 80) .forward := by
  have hout : ∀ side, ¬ InCidrs elsewhereConfig .V4 ((cartToPay 80).addr side) := by
    intro side hin
    obtain ⟨cidr, hm, hc⟩ := hin
    rw [show familyCidrs elsewhereConfig .V4 = [⟨.ofOctets 10 9 0 0, 24, by decide⟩] from by decide,
      List.mem_singleton] at hm
    subst hm
    cases side <;> revert hc <;> decide
  refine Or.inr ⟨⟨?_, fun _ => ?_⟩, fun side hin => absurd hin (hout side), fun hh => by cases hh⟩
  · rintro ⟨pod, -, -, -, -, ⟨pol, hpol, -, hc⟩, -⟩
    rw [List.mem_singleton.mp hpol] at hc
    cases hc
  · rintro ⟨pod, hpod, -, -, hx, -, hadm⟩
    simp only [frontWorld, List.mem_cons, List.not_mem_nil, or_false] at hpod
    rcases hpod with rfl | rfl
    · exact absurd hx (by decide)
    · exact hadm front_admits_80

end KubeRouter.Netpol
