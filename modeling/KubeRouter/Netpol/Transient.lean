/-
  Halfway through a pass. `FirewallController::reconcile` swaps the sets of a family one by one
  and replaces its document afterwards, so a pass that is cut short (or fails) leaves a kernel in
  between. Single restores are atomic; a pass is not one transaction.

  Proved: at every such point a family runs exactly the old document against sets each of which
  is wholly old or wholly new (`Mixed`), or the new plan is fully installed. What a document
  lets through can only grow with its sets: every set match in a policy chain is a positive one,
  and the tail's negated match rejects (`traverse_mono`). So a mixed state lets through only what
  the old plan lets through, as long as no swapped set has gained an address of the packet; and
  where both plans have one document, only what the new plan lets through, as long as no set
  still holds an address of the packet that the new plan takes out. Without these provisos it
  can let through a packet of neither world, since rule-indexed sets are reused under the old
  rules.
-/
import KubeRouter.Netpol.Install

namespace KubeRouter.Netpol

open Filter (Mark Flow Verdict)

/-- The packet is neither rejected nor dropped. -/
def LetsThrough (flow : Flow) : Prop := flow ≠ .done .reject ∧ flow ≠ .done .drop

instance : DecidablePred LetsThrough := fun _ => inferInstanceAs (Decidable (_ ∧ _))

/-! ## Set matches of policy chains are positive -/

/-- A negated set match. -/
def Cond.isNegated : Cond → Bool
  | matchSet negated _ _ => negated
  | _ => false

section Positive

variable {cfg : Config} {w : PolicyWorld} {family : IpFamily}

theorem peerMatches_positive {dir : Direction} {pol : NetworkPolicy} {idx : Nat}
    {resolved : ResolvedPeers} {conds : List Cond}
    (hc : conds ∈ peerMatches cfg family dir pol idx resolved) :
    ∀ k ∈ conds, k.isNegated = false := by
  unfold peerMatches at hc
  intro k hk
  split at hc
  · rw [List.mem_singleton.mp hc] at hk
    exact absurd hk List.not_mem_nil
  · rcases List.mem_append.mp hc with hc | hc <;> split at hc
    any_goals exact absurd hc List.not_mem_nil
    all_goals
      rw [List.mem_singleton.mp hc, List.mem_singleton] at hk
      rw [hk]
      rfl

theorem portMatches_positive {dir : Direction} {pol : NetworkPolicy} {idx : Nat} {recv : List Pod}
    {peerMatch targetMatch : List Cond} {port : PortSpec} {conds : List Cond}
    (hp : ∀ k ∈ peerMatch, k.isNegated = false) (ht : ∀ k ∈ targetMatch, k.isNegated = false)
    (hc : conds ∈ portMatches cfg family dir pol idx recv peerMatch targetMatch port) :
    ∀ k ∈ conds, k.isNegated = false := by
  unfold portMatches at hc
  have hboth : ∀ k ∈ peerMatch ++ targetMatch, k.isNegated = false := by
    intro k hk
    rcases List.mem_append.mp hk with hk | hk
    · exact hp k hk
    · exact ht k hk
  cases hport : port.port with
  | all =>
    simp only [hport, List.mem_singleton] at hc
    subst hc
    intro k hk
    rcases List.mem_append.mp hk with hk | hk
    · exact hboth k hk
    · rw [List.mem_singleton.mp hk]
      rfl
  | number n =>
    simp only [hport, List.mem_singleton] at hc
    subst hc
    intro k hk
    rcases List.mem_append.mp hk with hk | hk
    · exact hboth k hk
    · simp only [List.mem_cons, List.not_mem_nil, or_false] at hk
      rcases hk with rfl | rfl <;> rfl
  | name n =>
    simp only [hport, List.mem_map] at hc
    obtain ⟨g, -, rfl⟩ := hc
    intro k hk
    simp only [List.mem_append, List.mem_cons, List.not_mem_nil, or_false] at hk
    rcases hk with (hk | rfl) | rfl | rfl
    · cases dir with
      | ingress => exact hp k hk
      | egress => exact ht k hk
    · rfl
    · rfl
    · rfl

theorem policyMatches_positive {pol : NetworkPolicy} {conds : List Cond}
    (hc : conds ∈ policyMatches cfg w family pol) : ∀ k ∈ conds, k.isNegated = false := by
  have hdir : ∀ dir, conds ∈ directionMatches cfg w family dir pol →
      ∀ k ∈ conds, k.isNegated = false := by
    intro dir hc
    unfold directionMatches at hc
    split at hc
    · obtain ⟨r, -, hc⟩ := List.mem_flatMap.mp hc
      obtain ⟨peerMatch, hpm, hc⟩ := List.mem_flatMap.mp hc
      have htarget : ∀ k ∈ [Cond.matchSet false (targetSet cfg family dir pol) dir.targetSide],
          k.isNegated = false := fun k hk => by rw [List.mem_singleton.mp hk]; rfl
      split at hc
      · rw [List.mem_singleton.mp hc, List.append_nil]
        intro k hk
        rcases List.mem_append.mp hk with hk | hk
        · exact peerMatches_positive hpm k hk
        · exact htarget k hk
      · obtain ⟨port, -, hc⟩ := List.mem_flatMap.mp hc
        exact portMatches_positive (peerMatches_positive hpm) htarget hc
    · exact absurd hc List.not_mem_nil
  rcases List.mem_append.mp hc with hc | hc
  · exact hdir .ingress hc
  · exact hdir .egress hc

end Positive

/-! ## More set members let more through -/

section Mono

variable {cfg : Config} {w : PolicyWorld} {family : IpFamily} {sets sets' : SetView} {pkt : Packet}

/-- No set of the plan loses an address of the packet from `sets` to `sets'`. -/
def Grows (cfg : Config) (w : PolicyWorld) (family : IpFamily) (pkt : Packet)
    (sets sets' : SetView) : Prop :=
  ∀ s ∈ (buildPlan cfg w family).ipsets, ∀ side,
    sets s.name (pkt.addr side) = true → sets' s.name (pkt.addr side) = true

theorem holds_mono {k : Cond} (hpos : k.isNegated = false)
    (hle : ∀ name side, k.setName = some name → sets name (pkt.addr side) = true →
      sets' name (pkt.addr side) = true)
    (h : Cond.holds sets pkt k = true) : Cond.holds sets' pkt k = true := by
  cases hset : k.setName with
  | none => rwa [← holds_of_noSet hset sets sets']
  | some name =>
    cases k with
    | matchSet neg set side =>
      obtain rfl : neg = false := hpos
      obtain rfl : set = name := Option.some.inj hset
      simp only [Cond.holds, Bool.bne_false] at h ⊢
      exact hle set side rfl h
    | _ => cases hset

theorem chainHit_mono (hle : Grows cfg w family pkt sets sets') {c : String}
    (h : chainHit cfg w family sets pkt c = true) : chainHit cfg w family sets' pkt c = true := by
  unfold chainHit at h ⊢
  rw [List.any_eq_true] at h ⊢
  obtain ⟨pol, hm, hh⟩ := h
  refine ⟨pol, hm, ?_⟩
  unfold hits at hh ⊢
  rw [List.any_eq_true] at hh ⊢
  obtain ⟨conds, hc, hall⟩ := hh
  obtain ⟨hpa, -⟩ := List.mem_filter.mp hm
  obtain ⟨hp, ha⟩ := List.mem_filter.mp hpa
  refine ⟨conds, hc, ?_⟩
  rw [List.all_eq_true] at hall ⊢
  intro k hk
  refine holds_mono (policyMatches_positive hc k hk) ?_ (hall k hk)
  intro name side hn hmem
  obtain ⟨s, hs, rfl, -⟩ := policyMatches_planned hc hk hn
  exact hle s (policy_ipset_mem hp ha hs) side hmem

theorem podMatched_mono (hle : Grows cfg w family pkt sets sets') {pod : Pod}
    (h : podMatched cfg w family sets pkt pod = true) :
    podMatched cfg w family sets' pkt pod = true := by
  unfold podMatched at h ⊢
  rw [List.any_eq_true] at h ⊢
  obtain ⟨ip, hip, hd⟩ := h
  refine ⟨ip, hip, ?_⟩
  unfold dispatchHit at hd ⊢
  simp only [Bool.or_eq_true] at hd ⊢
  rcases hd with (hd | hd) | hd
  · refine Or.inl (Or.inl ?_)
    rw [List.any_eq_true] at hd ⊢
    obtain ⟨pol, hm, hh⟩ := hd
    rw [Bool.and_eq_true] at hh
    have ha := (mem_selecting.mp hm).2.1
    refine ⟨pol, hm, ?_⟩
    rw [Bool.and_eq_true]
    exact ⟨(policyJump_gate ha).mpr ((policyJump_gate ha).mp hh.1), chainHit_mono hle hh.2⟩
  · exact Or.inl (Or.inr hd)
  · exact Or.inr hd

/-- A run of pod chains that does not reject ends the same way with larger sets. -/
theorem podsVerdict_mono (hle : Grows cfg w family pkt sets sets') (pre : Bool) (pods : List Pod)
    (h : podsVerdict cfg w family sets pkt pre pods ≠ some .reject) :
    podsVerdict cfg w family sets' pkt pre pods = podsVerdict cfg w family sets pkt pre pods := by
  induction pods generalizing pre with
  | nil => rfl
  | cons pod pods ih =>
    rw [podsVerdict, podVerdict] at h
    rw [podsVerdict, podsVerdict, podVerdict, podVerdict]
    cases hc : commonVerdict family pkt with
    | some v => rfl
    | none =>
      rw [hc] at h
      by_cases hl : (pkt.srcLocal && (podFamilyIps pod family).contains pkt.dst) = true
      · simp only [if_pos hl]
      · simp only [if_neg hl] at h ⊢
        by_cases hm : (pre || podMatched cfg w family sets pkt pod) = true
        · have hm' : (pre || podMatched cfg w family sets' pkt pod) = true := by
            rw [Bool.or_eq_true] at hm ⊢
            exact hm.imp_right (podMatched_mono hle)
          simp only [if_pos hm, if_pos hm'] at h ⊢
          exact ih false h
        · simp only [if_neg hm] at h
          exact absurd rfl h

theorem tailFlow_mono (hle : Grows cfg w family pkt sets sets') (m : Mark)
    (h : LetsThrough (tailFlow cfg family sets pkt m)) :
    LetsThrough (tailFlow cfg family sets' pkt m) := by
  unfold tailFlow at h ⊢
  cases hd : cfg.defaultDeny with
  | false => simpa [hd] using h
  | true =>
    have hun : unprogrammed cfg family sets' pkt = true →
      unprogrammed cfg family sets pkt = true := by
      have hset : ∀ side, sets' (localPodsSet family) (pkt.addr side) = false →
          sets (localPodsSet family) (pkt.addr side) = false := by
        intro side hf
        cases hs : sets (localPodsSet family) (pkt.addr side) with
        | false => rfl
        | true =>
          rw [hle _ (localPods_planned hd) side hs] at hf
          cases hf
      simp only [unprogrammed, List.any_eq_true, Bool.or_eq_true, Bool.and_eq_true,
        Bool.not_eq_true']
      intro h
      obtain ⟨c, hc, h⟩ := h
      exact ⟨c, hc, h.imp (fun h => ⟨h.1, hset .src h.2⟩) fun h => ⟨h.1, hset .dst h.2⟩⟩
    rw [hd, Bool.true_and, Bool.true_and] at h
    rw [Bool.true_and, Bool.true_and]
    cases hu : unprogrammed cfg family sets pkt with
    | true =>
      rw [hu, if_pos rfl] at h
      exact absurd rfl h.1
    | false =>
      have hu' : unprogrammed cfg family sets' pkt = false :=
        Bool.eq_false_iff.mpr fun ht => by rw [hun ht] at hu; cases hu
      rw [hu] at h
      rw [hu']
      exact h

/-- The same document lets a packet through against larger sets. -/
theorem traverse_mono (hlen : ∀ s, (cfg.hash16 s).length = hashLen)
    (hle : Grows cfg w family pkt sets sets') (h : Hook) (n : Nat)
    (hthrough : LetsThrough (traverse (buildPlan cfg w family).rules sets (n + 3) h.chain pkt)) :
    LetsThrough (traverse (buildPlan cfg w family).rules sets' (n + 3) h.chain pkt) := by
  rw [traverse_hook hlen] at hthrough ⊢
  cases hs : h.spares cfg family pkt with
  | true => simpa [hs] using hthrough
  | false =>
    simp only [hs, Bool.false_eq_true, if_false] at hthrough ⊢
    have hv : podsVerdict cfg w family sets pkt ((hasMark markMatched).passes pkt.mark)
        (entered cfg w family pkt (h.jumps cfg)) ≠ some .reject := by
      intro hr
      rw [hr] at hthrough
      exact hthrough.1 rfl
    rw [podsVerdict_mono hle _ _ hv]
    cases hp : podsVerdict cfg w family sets pkt ((hasMark markMatched).passes pkt.mark)
        (entered cfg w family pkt (h.jumps cfg)) with
    | some v => rwa [hp] at hthrough
    | none =>
      rw [hp] at hthrough
      exact tailFlow_mono hle _ hthrough

end Mono

/-! ## Cut points of a pass -/

/-- The family still runs the document of `w`, and each of its sets holds what `w` planned for
    it or what `w'` did. -/
structure Mixed (cfg : Config) (w w' : PolicyWorld) (f : IpFamily) (k : Kernel) : Prop where
  chains : ∀ c ∈ (buildPlan cfg w f).chainDecls,
    k.chains f c = some (chainOf (buildPlan cfg w f).rules c)
  sets : ∀ s ∈ (buildPlan cfg w f).ipsets,
    k.sets s.name = ((buildPlan cfg w f).ipsets.reverse.find? (·.name == s.name)).map (·.toSet) ∨
      ∃ u ∈ (buildPlan cfg w' f).ipsets, u.name = s.name ∧ k.sets s.name = some u.toSet

section Cut

variable {cfg : Config} {w w' : PolicyWorld} {f : IpFamily} {k k' : Kernel}

/-- While the sets are swapped the old document sees old and new sets. -/
theorem mixed_of_setCalls (hi : Installed cfg w f k) {i : Nat}
    (h : Ran ((setCalls (buildPlan cfg w' f).ipsets).take i) k k') : Mixed cfg w w' f k' := by
  rw [setCalls, ← List.map_take, ← setCalls] at h
  have hk := ran_setCalls h
  refine ⟨by rw [hk]; exact hi.chains, ?_⟩
  intro s hs
  have hsets : k'.sets = applySets ((buildPlan cfg w' f).ipsets.take i) k.sets := by rw [hk]
  have hlook := applySets_apply ((buildPlan cfg w' f).ipsets.take i) k.sets s.name
    fun u _ => planned_ne_tmp hs u.name
  rw [← hsets] at hlook
  cases hf : ((buildPlan cfg w' f).ipsets.take i).reverse.find? (·.name == s.name) with
  | none =>
    rw [hf] at hlook
    exact Or.inl (hlook.trans (hi.sets s hs))
  | some u =>
    rw [hf] at hlook
    have hu := List.mem_of_mem_take (List.mem_reverse.mp (List.mem_of_find?_eq_some hf))
    exact Or.inr ⟨u, hu, by simpa using List.find?_some hf, hlook⟩

/-- The calls of the packet's own family, cut anywhere. -/
theorem family_cut (hi : Installed cfg w f k) {i : Nat}
    (h : Ran ((familyCalls cfg w' f).take i) k k') :
    Mixed cfg w w' f k' ∨ Installed cfg w' f k' := by
  rw [familyCalls_eq] at h
  rcases ran_take_append h with h | ⟨m, hm, hd⟩
  · exact Or.inl (mixed_of_setCalls hi h)
  · cases hj : i - (setCalls (buildPlan cfg w' f).ipsets).length with
    | zero =>
      rw [hj, List.take_zero, ran_nil] at hd
      subst hd
      have hall : Ran ((setCalls (buildPlan cfg w' f).ipsets).take
          (setCalls (buildPlan cfg w' f).ipsets).length) k m := by rwa [List.take_length]
      exact Or.inl (mixed_of_setCalls hi hall)
    | succ j =>
      rw [hj] at hd
      obtain ⟨hs, hc⟩ := ran_docCalls_take j hd
      have hm' : m.sets = applySets (buildPlan cfg w' f).ipsets k.sets := by rw [ran_setCalls hm]
      refine Or.inr ⟨hc, ?_⟩
      intro s hsm
      rw [hs, hm']
      exact applySets_planned k.sets hsm

theorem passCalls_foreign {families : List IpFamily} (hf : f ∉ families) :
    ∀ call ∈ passCalls cfg families w, Foreign f call := by
  intro call hc
  obtain ⟨g, hg, hc⟩ := List.mem_flatMap.mp hc
  have hgf : g ≠ f := fun h => hf (h ▸ hg)
  exact familyCalls_foreign hgf call hc

/-- A pass cut anywhere leaves a family mixed, or with the new plan installed. -/
theorem pass_cut {families : List IpFamily} (hnodup : families.Nodup) (hf : f ∈ families)
    (hi : Installed cfg w f k) (j : Nat) :
    Mixed cfg w w' f (runCalls ((passCalls cfg families w').take j) k).1 ∨
      Installed cfg w' f (runCalls ((passCalls cfg families w').take j) k).1 := by
  obtain ⟨i, hran⟩ := exists_ran_take (passCalls cfg families w') j k
  generalize (runCalls ((passCalls cfg families w').take j) k).1 = k' at hran ⊢
  obtain ⟨pre, post, rfl⟩ := List.append_of_mem hf
  have hpre : f ∉ pre := fun h => by
    have := (List.nodup_append.mp hnodup).2.2 f h f List.mem_cons_self
    exact this rfl
  have hpost : f ∉ post := (List.nodup_cons.mp (List.nodup_append.mp hnodup).2.1).1
  have hsplit : passCalls cfg (pre ++ f :: post) w' =
      passCalls cfg pre w' ++ (familyCalls cfg w' f ++ passCalls cfg post w') := by
    simp only [passCalls, List.flatMap_append, List.flatMap_cons]
  -- A kernel that still runs the old plan is mixed: no set is new.
  have hold : ∀ m, Installed cfg w f m → Mixed cfg w w' f m := fun m hm =>
    ⟨hm.chains, fun s hs => Or.inl (hm.sets s hs)⟩
  rw [hsplit] at hran
  rcases ran_take_append hran with hran | ⟨m, hm, hran⟩
  · exact Or.inl (hold k' (installed_foreign hi
      (fun call hc => passCalls_foreign hpre call (List.mem_of_mem_take hc)) hran))
  · have him := installed_foreign hi (passCalls_foreign hpre) hm
    rcases ran_take_append hran with hran | ⟨m', hm', hran⟩
    · exact family_cut him hran
    · exact Or.inr (installed_foreign (family_installed hm')
        (fun call hc => passCalls_foreign hpost call (List.mem_of_mem_take hc)) hran)

/-- A family that runs the document of `w` decides as that document does on the kernel's sets. -/
theorem traverse_mixed (pkt : Packet) (hm : Mixed cfg w w' pkt.family k) (h : Hook) (n : Nat) :
    k.traverse n h.chain pkt =
      traverse (buildPlan cfg w pkt.family).rules k.setView n h.chain pkt := by
  have hrules : ∀ c ∈ (buildPlan cfg w pkt.family).chainDecls,
      (k.chains pkt.family c).getD [] = chainOf (buildPlan cfg w pkt.family).rules c := by
    intro c hc
    rw [hm.chains c hc]
    rfl
  refine Filter.evalChain_congr (· ∈ (buildPlan cfg w pkt.family).chainDecls) hrules
    (fun _ _ _ _ _ _ => rfl) ?_ n h.chain (hook_declared h) _
  intro c hc r hr d hd
  rw [hrules c hc] at hr
  exact (buildPlan_declares (List.mem_filter.mp hr).1).jump d hd

/-- At every cut point of a pass for `w'` behind a complete pass for `w`: either the new plan is
    installed and decides alone, or the old document runs on sets each wholly old or new. It
    then lets through only what the old plan does unless a set has gained an address of the
    packet, and, with one document in both plans, only what the new plan does unless a set
    has yet to lose one. -/
theorem cut_lets_through (hlen : ∀ s, (cfg.hash16 s).length = hashLen) {families : List IpFamily}
    (hnodup : families.Nodup) (hok : (reconcile cfg families w k).2 = true) (j : Nat) (pkt : Packet)
    (hpkt : pkt.family ∈ families) :
    let cut := (runCalls ((passCalls cfg families w').take j) (reconcile cfg families w k).1).1
    (Installed cfg w' pkt.family cut ∧ ∀ (h : Hook) (n : Nat), cut.traverse n h.chain pkt =
      traverse (buildPlan cfg w' pkt.family).rules (planView (buildPlan cfg w' pkt.family).ipsets)
        n h.chain pkt) ∨
    (Mixed cfg w w' pkt.family cut ∧
      (Grows cfg w pkt.family pkt cut.setView (planView (buildPlan cfg w pkt.family).ipsets) →
        ∀ (h : Hook) (n : Nat), LetsThrough (cut.traverse (n + 3) h.chain pkt) →
          LetsThrough (traverse (buildPlan cfg w pkt.family).rules
            (planView (buildPlan cfg w pkt.family).ipsets) (n + 3) h.chain pkt)) ∧
      ((buildPlan cfg w pkt.family).rules = (buildPlan cfg w' pkt.family).rules →
        Grows cfg w' pkt.family pkt cut.setView (planView (buildPlan cfg w' pkt.family).ipsets) →
        ∀ (h : Hook) (n : Nat), LetsThrough (cut.traverse (n + 3) h.chain pkt) →
          LetsThrough (traverse (buildPlan cfg w' pkt.family).rules
            (planView (buildPlan cfg w' pkt.family).ipsets) (n + 3) h.chain pkt))) := by
  intro cut
  have hi : Installed cfg w pkt.family (reconcile cfg families w k).1 :=
    pass_installed (ran_of_ok hok) _ hpkt
  rcases pass_cut hnodup hpkt hi j with hm | hinst
  · refine Or.inr ⟨hm, ?_, ?_⟩
    · intro hgrow h n hthrough
      rw [traverse_mixed pkt hm] at hthrough
      exact traverse_mono hlen hgrow h n hthrough
    · intro hdoc hgrow h n hthrough
      rw [traverse_mixed pkt hm, hdoc] at hthrough
      exact traverse_mono hlen hgrow h n hthrough
  · exact Or.inl ⟨hinst, fun h n => traverse_installed pkt hinst (hook_declared h) n⟩

end Cut

/-! ## A hole between two worlds -/

def opsIp : IpAddr := .ofOctets 10 0 0 3

def ops : Pod := { cart with name := "ops", labels := [("app", "ops")], ips := [opsIp] }

/-- `pay` takes TCP from the pods with the label `app = who` on `port`. -/
def admitFrom (who : String) (port : UInt16) : PolicyRule :=
  ⟨[.selector none (some ⟨[("app", who)], []⟩)], [⟨"tcp", .number port⟩]⟩

/-- `cart` on port 80 and `ops` on port 22; then the first rule goes. -/
def beforeWorld : PolicyWorld :=
  { policies := [{ front with ingress := [admitFrom "cart" 80, admitFrom "ops" 22] }]
    pods := [cart, ops, pay] }

def afterWorld : PolicyWorld :=
  { policies := [{ front with ingress := [admitFrom "ops" 22] }]
    pods := [cart, ops, pay] }

def opsToPay (port : UInt16) : Packet where
  src := opsIp
  dst := payIp
  transport := .tcp port

theorem beforeWorld_ok : (reconcile sampleConfig [.V4] beforeWorld .clean).2 = true := by
  decide +kernel

/-- With the set of rule 0 swapped and the old rules in place, `ops` reaches port 80, which
    neither world admits. -/
theorem hole_between_worlds :
    (reconcile sampleConfig [.V4] beforeWorld .clean).2 = true ∧
    LetsThrough ((runCalls ((passCalls sampleConfig [.V4] afterWorld).take 2)
      (reconcile sampleConfig [.V4] beforeWorld .clean).1).1.traverse 3 Hook.forward.chain
        (opsToPay 80)) ∧
    ¬ LetsThrough (traverse (buildPlan sampleConfig beforeWorld .V4).rules
      (planView (buildPlan sampleConfig beforeWorld .V4).ipsets) 3 Hook.forward.chain
        (opsToPay 80)) ∧
    ¬ LetsThrough (traverse (buildPlan sampleConfig afterWorld .V4).rules
      (planView (buildPlan sampleConfig afterWorld .V4).ipsets) 3 Hook.forward.chain
        (opsToPay 80)) := by
  refine ⟨beforeWorld_ok, ?_, ?_, ?_⟩ <;> decide +kernel

/-- The kernel with only the target set of `pay` swapped. -/
def firstCut : Kernel :=
  (runCalls ((passCalls sampleConfig [.V4] afterWorld).take 1)
    (reconcile sampleConfig [.V4] beforeWorld .clean).1).1

theorem firstCut_no_gain : Grows sampleConfig beforeWorld (cartToPay 80).family (cartToPay 80)
    firstCut.setView (planView
      (buildPlan sampleConfig beforeWorld (cartToPay 80).family).ipsets) := by
  intro s hs side
  cases side <;> revert s <;> decide +kernel

/-- `ops` takes the label of `cart` and so joins the peers of `front`. -/
def joinedWorld : PolicyWorld :=
  { policies := [front], pods := [cart, { ops with labels := [("app", "cart")] }, pay] }

theorem frontWorld_ok : (reconcile sampleConfig [.V4] frontWorld .clean).2 = true := by
  decide +kernel

theorem joined_same_rules : (buildPlan sampleConfig frontWorld (opsToPay 80).family).rules =
    (buildPlan sampleConfig joinedWorld (opsToPay 80).family).rules := by
  decide +kernel

/-- The kernel with the sets swapped and the document still to come. -/
def joinedCut : Kernel :=
  (runCalls ((passCalls sampleConfig [.V4] joinedWorld).take 2)
    (reconcile sampleConfig [.V4] frontWorld .clean).1).1

theorem joinedCut_no_loss : Grows sampleConfig joinedWorld (opsToPay 80).family (opsToPay 80)
    joinedCut.setView (planView
      (buildPlan sampleConfig joinedWorld (opsToPay 80).family).ipsets) := by
  intro s hs side
  cases side <;> revert s <;> decide +kernel

/-- At the first cut no set has gained an address, so what passes passes in one of the two
    worlds. At the second the document is the new one already and no set has an address to
    lose, so what passes passes in the new world. -/
theorem passes_at_cuts :
    (LetsThrough (traverse (buildPlan sampleConfig afterWorld (cartToPay 80).family).rules
      (planView (buildPlan sampleConfig afterWorld (cartToPay 80).family).ipsets) (0 + 3)
        Hook.forward.chain (cartToPay 80)) ∨
    LetsThrough (traverse (buildPlan sampleConfig beforeWorld (cartToPay 80).family).rules
      (planView (buildPlan sampleConfig beforeWorld (cartToPay 80).family).ipsets) (0 + 3)
        Hook.forward.chain (cartToPay 80))) ∧
    LetsThrough (traverse (buildPlan sampleConfig joinedWorld (opsToPay 80).family).rules
      (planView (buildPlan sampleConfig joinedWorld (opsToPay 80).family).ipsets) (0 + 3)
        Hook.forward.chain (opsToPay 80)) := by
  have hcart : LetsThrough (firstCut.traverse (0 + 3) Hook.forward.chain (cartToPay 80)) := by
    decide +kernel
  have hops : LetsThrough (joinedCut.traverse (0 + 3) Hook.forward.chain (opsToPay 80)) := by
    decide +kernel
  constructor
  · rcases @cut_lets_through sampleConfig beforeWorld afterWorld .clean sampleHash_length [.V4]
      (by decide) beforeWorld_ok 1 (cartToPay 80) (by decide) with ⟨-, heq⟩ | ⟨-, hold, -⟩
    · exact Or.inl (heq .forward (0 + 3) ▸ hcart)
    · exact Or.inr (hold firstCut_no_gain .forward 0 hcart)
  · rcases @cut_lets_through sampleConfig frontWorld joinedWorld .clean sampleHash_length [.V4]
      (by decide) frontWorld_ok 2 (opsToPay 80) (by decide) with ⟨-, heq⟩ | ⟨-, -, hnew⟩
    · exact heq .forward (0 + 3) ▸ hops
    · exact hnew joined_same_rules joinedCut_no_loss .forward 0 hops

end KubeRouter.Netpol
