/-
  What the chains of a plan do to a packet. Each chain kind gets a closed form, computed
  directly from the world, the set contents and the packet:

  * a policy chain raises the matched mark exactly when one of its pairs matches (`chainHit`);
  * COMMON decides established, invalid and common ICMP traffic (`commonVerdict`);
  * a pod chain ends the traversal or goes on with the accept mark (`podVerdict`, `podFlow`);
  * the tail accepts the accept mark and rejects by pod CIDR under default-deny (`tailFlow`);
  * a top-level chain runs the bodies of the pod chains it jumps to, then the tail; INPUT lets
    service traffic leave first (`traverse_hook`).

  The set contents are a free variable `sets` throughout, so the same equations serve a plan
  running against its own sets and a document running against sets of another pass. Names may
  collide: `chainHit` and `chainBodies` range over every object that derives the chain's name.
-/
import KubeRouter.Netpol.Plan

namespace KubeRouter.Netpol

open Filter (Mark MarkTest Flow Verdict evalRules evalChain callAll)

/-! ## The two marks -/

theorem hasMark_or (k m : Mark) : (hasMark k).passes (m ||| k) = true := by
  simp [MarkTest.passes, hasMark, Filter.or_and_self]

theorem lacksMark_passes (k m : Mark) : (lacksMark k).passes m = !(hasMark k).passes m := by
  simp [MarkTest.passes, hasMark, lacksMark]

/-- The mark a packet leaves a pod chain with: matched cleared, accepted raised. -/
def passedMark (m : Mark) : Mark :=
  Filter.orMark markAccepted markAccepted (Filter.orMark 0 markMatched m)

theorem passedMark_or (m : Mark) : passedMark (m ||| markMatched) = passedMark m := by
  rw [passedMark, Filter.orMark_zero_or, passedMark]

@[simp] theorem passedMark_accepted (m : Mark) :
    (hasMark markAccepted).passes (passedMark m) = true := hasMark_or markAccepted _

@[simp] theorem passedMark_matched (m : Mark) :
    (hasMark markMatched).passes (passedMark m) = false := by
  have h0 : passedMark m &&& markMatched = 0 := Filter.orMark_orMark_and (by decide) m
  simp only [MarkTest.passes, hasMark, h0]
  decide

section Closed

variable (cfg : Config) (w : PolicyWorld) (family : IpFamily) (sets : SetView) (pkt : Packet)

/-! ## Closed forms -/

/-- One of the pairs matches the packet. -/
def hits (ms : List (List Cond)) : Bool := ms.any (·.all (Cond.holds sets pkt))

/-- One of the pairs in the policy chain `c` matches the packet. -/
def chainHit (c : String) : Bool :=
  ((w.policies.filter (·.active)).filter (policyChain cfg family · == c)).any
    fun pol => hits sets pkt (policyMatches cfg w family pol)

def isCommonIcmp : Bool :=
  (commonIcmpRules family).any fun r =>
    pkt.transport.protocol == r.1 && pkt.transport.icmpType == some r.2

/-- What COMMON decides on its own. -/
def commonVerdict : Option Verdict :=
  match pkt.ctstate with
  | .invalid => some .drop
  | .related | .established => some .accept
  | .new => if isCommonIcmp family pkt then some .accept else none

/-- The packet is marked for one address of the pod: by a policy whose gate it passes or, in a
    direction no policy covers, by DEFAULT. -/
def dispatchHit (pod : Pod) (ip : IpAddr) : Bool :=
  (selecting w pod).any (fun pol =>
    (policyJump cfg family pod ip pol).conds.all (Cond.holds sets pkt) &&
      chainHit cfg w family sets pkt (policyChain cfg family pol)) ||
  (!(selecting w pod).any (·.policyTypes.ingress) && pkt.dst == ip) ||
  (!(selecting w pod).any (·.policyTypes.egress) && pkt.src == ip)

def podMatched (pod : Pod) : Bool :=
  (podFamilyIps pod family).any (dispatchHit cfg w family sets pkt pod)

/-- How the body of a pod chain ends the traversal, if it does; `pre` says whether the packet
    came in with the matched mark. -/
def podVerdict (pre : Bool) (pod : Pod) : Option Verdict :=
  match commonVerdict family pkt with
  | some v => some v
  | none =>
    if pkt.srcLocal && (podFamilyIps pod family).contains pkt.dst then some .accept
    else if pre || podMatched cfg w family sets pkt pod then none
    else some .reject

def podFlow (pod : Pod) (m : Mark) : Flow :=
  match podVerdict cfg w family sets pkt ((hasMark markMatched).passes m) pod with
  | some v => .done v
  | none => .next (passedMark m)

/-- Some family CIDR contains one of the packet's addresses. -/
def inPodCidrs : Bool :=
  (familyCidrs cfg family).any fun c => c.contains pkt.src || c.contains pkt.dst

/-- Some family CIDR contains an address of the packet that is not in the local-pods set. -/
def unprogrammed : Bool :=
  (familyCidrs cfg family).any fun c =>
    (c.contains pkt.src && !sets (localPodsSet family) pkt.src) ||
      (c.contains pkt.dst && !sets (localPodsSet family) pkt.dst)

def tailFlow (m : Mark) : Flow :=
  if cfg.defaultDeny && unprogrammed cfg family sets pkt then .done .reject
  else if (hasMark markAccepted).passes m then .done .accept
  else if cfg.defaultDeny && inPodCidrs cfg family pkt then .done .reject
  else .next m

/-- The pods whose chains a top-level chain enters through `jumps`, in order. Its jumps match
    no set. -/
def visits (jumps : Pod → IpAddr → List Rule) : List Pod :=
  (chainPods cfg w family).flatMap fun pod =>
    (((podFamilyIps pod family).flatMap (jumps pod)).filter
      (·.conds.all (Cond.holds (fun _ _ => false) pkt))).map fun _ => pod

/-- The pods whose bodies the chain of `pod` holds. -/
def chainBodies (pod : Pod) : List Pod :=
  (chainPods cfg w family).filter (podChain cfg · == podChain cfg pod)

/-- The bodies a top-level chain runs, in order. -/
def entered (jumps : Pod → IpAddr → List Rule) : List Pod :=
  (visits cfg w family pkt jumps).flatMap (chainBodies cfg w family)

/-- How a run of pod chains ends the traversal, if it does: the matched mark a packet brings
    along only helps in the first. -/
def podsVerdict : Bool → List Pod → Option Verdict
  | _, [] => none
  | pre, pod :: pods =>
    match podVerdict cfg w family sets pkt pre pod with
    | some v => some v
    | none => podsVerdict false pods

/-! ## Policy chains, COMMON and DEFAULT -/

variable {cfg w family sets pkt}

theorem evalRules_verdictPairs (call : String → Mark → Flow) (c : String) (ms : List (List Cond))
    (m : Mark) :
    evalRules (Cond.holds sets pkt) call (ms.flatMap (verdictPair c)) m =
      if hits sets pkt ms then .ret (m ||| markMatched) else .next m := by
  induction ms with
  | nil => rfl
  | cons conds ms ih =>
    rw [List.flatMap_cons, hits, List.any_cons, ← hits]
    cases hc : conds.all (Cond.holds sets pkt) with
    | true =>
      simp [verdictPair, evalRules, Filter.Rule.applies, hc, Filter.xmark_self, hasMark_or]
    | false =>
      rw [Bool.false_or, ← ih, verdictPair, List.cons_append, List.cons_append, List.nil_append,
        Filter.evalRules_skip (Filter.applies_eq_false_of_conds hc),
        Filter.evalRules_skip (Filter.applies_eq_false_of_conds hc)]

theorem hits_append (a b : List (List Cond)) :
    hits sets pkt (a ++ b) = (hits sets pkt a || hits sets pkt b) := List.any_append

/-- A dispatch jump raises the matched mark or does nothing. -/
theorem dispatch_raises (n : Nat) (r : Rule) (p : Bool) (c : String)
    (hmark : r.markTest = none) (htarget : r.target = .jump c)
    (hcall : ∀ m, evalChain (Cond.holds sets pkt) (chainOf (buildPlan cfg w family).rules)
      (n + 1) c m =
      .next (if p then m ||| markMatched else m)) :
    Filter.Raises (Cond.holds sets pkt)
      (evalChain (Cond.holds sets pkt) (chainOf (buildPlan cfg w family).rules) (n + 1))
      markMatched (r.conds.all (Cond.holds sets pkt) && p) r := by
  intro rs m
  cases hc : r.conds.all (Cond.holds sets pkt) with
  | false =>
    rw [Filter.evalRules_skip (Filter.applies_eq_false_of_conds hc)]
    simp
  | true => simp [evalRules, Filter.Rule.applies, hc, hmark, htarget, hcall]

/-- The end of a pod chain: unmarked packets are logged and rejected, marked ones leave with
    the accept mark. -/
theorem evalRules_podVerdict (call : String → Mark → Flow) (c : String) (m : Mark) :
    evalRules (Cond.holds sets pkt) call
      [{ chain := c, conds := [.limit 10 10], markTest := some (lacksMark markMatched),
         target := .nflog 100 },
       { chain := c, conds := [], markTest := some (lacksMark markMatched),
         target := rejectTarget family },
       { chain := c, conds := [], target := .setMark 0 markMatched },
       { chain := c, conds := [], target := .setMark markAccepted markAccepted }] m =
      if (hasMark markMatched).passes m then .next (passedMark m) else .done .reject := by
  cases hp : (hasMark markMatched).passes m with
  | true => simp [evalRules, Filter.Rule.applies, lacksMark_passes, hp, passedMark]
  | false =>
    cases family <;> simp [evalRules, Filter.Rule.applies, lacksMark_passes, hp, rejectTarget]

/-- The rules of a pod chain before its first mark test. -/
def preRules (cfg : Config) (w : PolicyWorld) (family : IpFamily) (pod : Pod) : List Rule :=
  [{ chain := podChain cfg pod, conds := [], target := .jump nwplcyCommon }] ++
    (podFamilyIps pod family).map (fun ip =>
      { chain := podChain cfg pod, conds := [.typeLocal .src, .addr .dst ip],
        target := .accept }) ++
    (podFamilyIps pod family).flatMap (dispatchRules cfg w family pod)

theorem podChainRules_eq (pod : Pod) : podChainRules cfg w family pod = preRules cfg w family pod ++
    [{ chain := podChain cfg pod, conds := [.limit 10 10], markTest := some (lacksMark markMatched),
       target := .nflog 100 },
     { chain := podChain cfg pod, conds := [], markTest := some (lacksMark markMatched),
       target := rejectTarget family },
     { chain := podChain cfg pod, conds := [], target := .setMark 0 markMatched },
     { chain := podChain cfg pod, conds := [],
       target := .setMark markAccepted markAccepted }] := rfl

/-- Runs of pod chains end or fall through. -/
theorem callAll_podFlow_leave (pods : List Pod) (m : Mark) :
    (callAll (podFlow cfg w family sets pkt) pods m).leave =
      callAll (podFlow cfg w family sets pkt) pods m := by
  induction pods generalizing m with
  | nil => rfl
  | cons pod pods ih =>
    simp only [callAll, podFlow]
    split
    · rfl
    · exact ih _

/-- Every policy of one chain name pushes its pairs to this very chain. -/
theorem evalRules_policyChain (call : String → Mark → Flow) (c : String) (m : Mark) :
    evalRules (Cond.holds sets pkt) call
      (((w.policies.filter (·.active)).filter (policyChain cfg family · == c)).flatMap
        fun pol => (policyPlan cfg w family pol).rules) m =
      if chainHit cfg w family sets pkt c then .ret (m ||| markMatched) else .next m := by
  have hrules : ∀ ps : List NetworkPolicy, (∀ p ∈ ps, policyChain cfg family p = c) →
      ps.flatMap (fun p => (policyPlan cfg w family p).rules) =
        (ps.flatMap (policyMatches cfg w family)).flatMap (verdictPair c) := by
    intro ps hps
    rw [List.flatMap_assoc]
    refine List.flatMap_congr fun p hp => ?_
    rw [policyPlan_rules, hps p hp]
  rw [hrules _ fun p hp => by simpa using (List.mem_filter.mp hp).2, evalRules_verdictPairs, hits,
    List.any_flatMap]
  rfl

section HashLength

variable (hlen : ∀ s, (cfg.hash16 s).length = hashLen)
include hlen

/-- A policy chain marks or does nothing; it never ends the traversal. -/
theorem evalChain_policy (n : Nat) (pol : NetworkPolicy) (m : Mark) :
    evalChain (Cond.holds sets pkt) (chainOf (buildPlan cfg w family).rules) (n + 1)
        (policyChain cfg family pol) m =
      .next (if chainHit cfg w family sets pkt (policyChain cfg family pol)
        then m ||| markMatched else m) := by
  rw [evalChain, chainOf_policy hlen, evalRules_policyChain]
  split <;> rfl

theorem evalChain_default (n : Nat) (m : Mark) :
    evalChain (Cond.holds sets pkt) (chainOf (buildPlan cfg w family).rules)
      (n + 1) nwplcyDefault m =
      .next (m ||| markMatched) := by
  rw [evalChain, chainOf_default hlen]
  simp [defaultRules, evalRules, Filter.Rule.applies, Filter.xmark_self]

theorem evalChain_common (n : Nat) (m : Mark) :
    evalChain (Cond.holds sets pkt) (chainOf (buildPlan cfg w family).rules)
      (n + 1) nwplcyCommon m =
      match commonVerdict family pkt with
      | some v => .done v
      | none => .next m := by
  have hicmp : evalRules (Cond.holds sets pkt)
      (evalChain (Cond.holds sets pkt) (chainOf (buildPlan cfg w family).rules) n)
      ((commonIcmpRules family).map fun r =>
        { chain := nwplcyCommon, conds := [.proto r.1, .icmpType r.2], target := .accept }) m =
      if isCommonIcmp family pkt then .done .accept else .next m := by
    rw [Filter.evalRules_verdicts .accept _ fun r hr => by
      obtain ⟨_, -, rfl⟩ := List.mem_map.mp hr
      rfl]
    rw [List.any_map]
    simp only [isCommonIcmp, Function.comp_def, Filter.Rule.applies, Cond.holds, List.all_cons,
      List.all_nil, Bool.and_true, Option.all_none]
    rfl
  rw [evalChain, chainOf_common hlen, commonRules, Filter.evalRules_append, commonVerdict]
  cases hct : pkt.ctstate with
  | new =>
    simp only [evalRules, Filter.Rule.applies, Cond.holds, hct, List.all_cons, List.all_nil,
      Bool.and_true, Option.all_none, List.contains_cons, List.contains_nil, Bool.or_false]
    simp only [reduceCtorEq, beq_iff_eq, Bool.or_eq_true, or_self, if_false,
      Flow.next_andThen, hicmp]
    split <;> rfl
  | _ => simp [evalRules, Filter.Rule.applies, Cond.holds, hct]

/-! ## Pod chains -/

theorem evalRules_dispatch (n : Nat) (pod : Pod) (m : Mark) :
    evalRules (Cond.holds sets pkt)
        (evalChain (Cond.holds sets pkt) (chainOf (buildPlan cfg w family).rules) (n + 1))
        ((podFamilyIps pod family).flatMap (dispatchRules cfg w family pod)) m =
      .next (if podMatched cfg w family sets pkt pod then m ||| markMatched else m) := by
  -- `raised r`: the jump `r` is taken and marks the packet.
  let raised : Rule → Bool := fun r => r.conds.all (Cond.holds sets pkt) &&
    r.target.callee.any fun c => c == nwplcyDefault || chainHit cfg w family sets pkt c
  have hraise : ∀ r ∈ (podFamilyIps pod family).flatMap (dispatchRules cfg w family pod),
      Filter.Raises (Cond.holds sets pkt)
        (evalChain (Cond.holds sets pkt) (chainOf (buildPlan cfg w family).rules) (n + 1))
        markMatched (raised r) (id r) := by
    intro r hr
    obtain ⟨ip, -, hr⟩ := List.mem_flatMap.mp hr
    have hdefault : ∀ side, Filter.Raises (Cond.holds sets pkt)
        (evalChain (Cond.holds sets pkt) (chainOf (buildPlan cfg w family).rules) (n + 1))
        markMatched (raised (defaultJump cfg pod side ip))
          (defaultJump cfg pod side ip) := fun side =>
      dispatch_raises n _ _ nwplcyDefault rfl rfl fun m => by
        rw [evalChain_default hlen]
        simp [defaultJump]
    simp only [dispatchRules, List.mem_append, List.mem_map] at hr
    rcases hr with (⟨pol, -, rfl⟩ | hr) | hr
    · refine dispatch_raises n _ _ (policyChain cfg family pol) rfl rfl fun m => ?_
      have hne : (policyChain cfg family pol == nwplcyDefault) = false :=
        beq_eq_false_iff_ne.mpr (networkPolicyChain_ne_fixed hlen).2.1
      rw [evalChain_policy hlen]
      simp only [policyJump, Filter.Target.callee_jump, Option.any_some, hne, Bool.false_or]
    · split at hr
      · exact absurd hr List.not_mem_nil
      · rw [List.mem_singleton.mp hr]
        exact hdefault .dst
    · split at hr
      · exact absurd hr List.not_mem_nil
      · rw [List.mem_singleton.mp hr]
        exact hdefault .src
  have hany : ((podFamilyIps pod family).flatMap (dispatchRules cfg w family pod)).any raised =
      podMatched cfg w family sets pkt pod := by
    rw [List.any_flatMap, podMatched]
    congr 1
    funext ip
    have hne : ∀ pol, (policyChain cfg family pol == nwplcyDefault) = false := fun pol =>
      beq_eq_false_iff_ne.mpr (networkPolicyChain_ne_fixed hlen).2.1
    rw [dispatchRules, List.any_append, List.any_append, List.any_map, dispatchHit]
    congr 1
    · congr 1
      · simp only [Function.comp_def, raised, policyJump, Filter.Target.callee_jump,
          Option.any_some, hne, Bool.false_or]
      · cases (selecting w pod).any (·.policyTypes.ingress) <;>
          simp [raised, defaultJump, Cond.holds, Packet.addr]
    · cases (selecting w pod).any (·.policyTypes.egress) <;>
        simp [raised, defaultJump, Cond.holds, Packet.addr]
  have hmark := Filter.evalRules_markers raised id _ hraise m
  rwa [List.map_id, hany] at hmark

omit hlen in
theorem evalRules_localAccepts (call : String → Mark → Flow) (c : String) (ips : List IpAddr)
    (m : Mark) :
    evalRules (Cond.holds sets pkt) call
        (ips.map fun ip =>
          { chain := c, conds := [.typeLocal .src, .addr .dst ip], target := .accept }) m =
      if pkt.srcLocal && ips.contains pkt.dst then .done .accept else .next m := by
  rw [Filter.evalRules_verdicts .accept _ fun r hr => by
    obtain ⟨_, -, rfl⟩ := List.mem_map.mp hr
    rfl]
  rw [List.any_map]
  congr 1
  simp only [Function.comp_def, Filter.Rule.applies, Cond.holds, Packet.addr, List.all_cons,
    List.all_nil, Bool.and_true, Option.all_none, List.contains_eq_any_beq]
  cases pkt.srcLocal <;> simp

/-- COMMON, the node-local accepts and the policy jumps of a pod chain: the packet is decided
    or reaches the first mark test, marked exactly when `podMatched`. -/
theorem evalRules_preRules (n : Nat) (pod : Pod) (m : Mark) :
    evalRules (Cond.holds sets pkt)
        (evalChain (Cond.holds sets pkt) (chainOf (buildPlan cfg w family).rules) (n + 1))
        (preRules cfg w family pod) m =
      match commonVerdict family pkt with
      | some v => .done v
      | none =>
        if pkt.srcLocal && (podFamilyIps pod family).contains pkt.dst then .done .accept
        else .next (if podMatched cfg w family sets pkt pod then m ||| markMatched else m) := by
  have hjump : evalRules (Cond.holds sets pkt)
      (evalChain (Cond.holds sets pkt) (chainOf (buildPlan cfg w family).rules) (n + 1))
      [{ chain := podChain cfg pod, conds := [], target := .jump nwplcyCommon }] m =
      match commonVerdict family pkt with
      | some v => .done v
      | none => .next m := by
    simp only [evalRules, Filter.Rule.applies, List.all_nil, Option.all_none,
      Bool.and_self, if_true,
      evalChain_common hlen]
    cases commonVerdict family pkt <;> rfl
  rw [preRules, Filter.evalRules_append, Filter.evalRules_append, hjump]
  cases commonVerdict family pkt with
  | some v => rfl
  | none =>
    rw [Flow.next_andThen, evalRules_localAccepts]
    cases pkt.srcLocal && (podFamilyIps pod family).contains pkt.dst with
    | true => rfl
    | false => exact evalRules_dispatch hlen n pod m

/-- The body of a pod chain ends the traversal or goes on; it never RETURNs. -/
theorem evalRules_podChainRules (n : Nat) (pod : Pod) (m : Mark) :
    evalRules (Cond.holds sets pkt)
        (evalChain (Cond.holds sets pkt) (chainOf (buildPlan cfg w family).rules) (n + 1))
        (podChainRules cfg w family pod) m =
      podFlow cfg w family sets pkt pod m := by
  rw [podChainRules_eq, Filter.evalRules_append, evalRules_preRules hlen, podFlow, podVerdict]
  cases commonVerdict family pkt with
  | some v => rfl
  | none =>
    cases pkt.srcLocal && (podFamilyIps pod family).contains pkt.dst with
    | true => rfl
    | false =>
      simp only [Bool.false_eq_true, if_false, Flow.next_andThen, evalRules_podVerdict]
      cases podMatched cfg w family sets pkt pod with
      | true => simp [hasMark_or, passedMark_or]
      | false => cases hp : (hasMark markMatched).passes m <;> simp [hp]

theorem evalRules_bodies (n : Nat) (pods : List Pod) (m : Mark) :
    evalRules (Cond.holds sets pkt)
        (evalChain (Cond.holds sets pkt) (chainOf (buildPlan cfg w family).rules) (n + 1))
        (pods.flatMap (podChainRules cfg w family)) m =
      callAll (podFlow cfg w family sets pkt) pods m := by
  induction pods generalizing m with
  | nil => rfl
  | cons pod pods ih =>
    rw [List.flatMap_cons, Filter.evalRules_append, evalRules_podChainRules hlen, funext ih]
    rfl

theorem evalChain_pod (n : Nat) (pod : Pod) (m : Mark) :
    evalChain (Cond.holds sets pkt) (chainOf (buildPlan cfg w family).rules) (n + 2)
        (podChain cfg pod) m =
      callAll (podFlow cfg w family sets pkt) (chainBodies cfg w family pod) m := by
  rw [evalChain, chainOf_pod, ← chainBodies, evalRules_bodies hlen]
  exact callAll_podFlow_leave _ m

/-! ## The tail -/

omit hlen in
/-- A list with two rejecting rules per CIDR rejects when one of them applies. -/
theorem evalRules_cidrRejects (call : String → Mark → Flow) (cidrs : List IpNet)
    (a b : IpNet → List Cond) (m : Mark) :
    evalRules (Cond.holds sets pkt) call
        (cidrs.flatMap fun cidr =>
          [{ chain := nwplcyTail, conds := a cidr, target := rejectTarget family },
           { chain := nwplcyTail, conds := b cidr, target := rejectTarget family }]) m =
      if cidrs.any fun cidr =>
          (a cidr).all (Cond.holds sets pkt) || (b cidr).all (Cond.holds sets pkt)
      then .done .reject else .next m := by
  have hreject : (rejectTarget family).verdict = some .reject := by cases family <;> rfl
  rw [Filter.evalRules_verdicts .reject _ fun r hr => by
    obtain ⟨_, -, hr⟩ := List.mem_flatMap.mp hr
    simp only [List.mem_cons, List.not_mem_nil, or_false] at hr
    rcases hr with rfl | rfl <;> exact hreject]
  rw [List.any_flatMap]
  simp only [List.any_cons, List.any_nil, Bool.or_false, Filter.Rule.applies, Option.all_none,
    Bool.and_true]

theorem evalChain_tail (n : Nat) (m : Mark) :
    evalChain (Cond.holds sets pkt) (chainOf (buildPlan cfg w family).rules) (n + 1) nwplcyTail m =
      tailFlow cfg family sets pkt m := by
  rw [evalChain, chainOf_tail hlen, tailRules, Filter.evalRules_append, Filter.evalRules_append,
    tailFlow]
  cases hd : cfg.defaultDeny with
  | false =>
    cases ha : (hasMark markAccepted).passes m <;>
      simp [evalRules, Filter.Rule.applies, ha]
  | true =>
    have hclosed : ∀ call, evalRules (Cond.holds sets pkt) call
        ((familyCidrs cfg family).flatMap fun cidr =>
          [{ chain := nwplcyTail,
             conds := [.net .src cidr, .matchSet true (localPodsSet family) .src],
             target := rejectTarget family },
           { chain := nwplcyTail,
             conds := [.net .dst cidr, .matchSet true (localPodsSet family) .dst],
             target := rejectTarget family }]) m =
        if unprogrammed cfg family sets pkt then .done .reject else .next m := by
      intro call
      rw [evalRules_cidrRejects call _ (fun cidr => [.net .src cidr, .matchSet true _ .src])
        (fun cidr => [.net .dst cidr, .matchSet true _ .dst])]
      simp only [List.all_cons, List.all_nil, Bool.and_true, Cond.holds, Packet.addr, Bool.bne_true]
      rfl
    have hopen : ∀ call, evalRules (Cond.holds sets pkt) call
        ((familyCidrs cfg family).flatMap fun cidr =>
          [{ chain := nwplcyTail, conds := [.net .src cidr], target := rejectTarget family },
           { chain := nwplcyTail, conds := [.net .dst cidr], target := rejectTarget family }]) m =
        if inPodCidrs cfg family pkt then .done .reject else .next m := by
      intro call
      rw [evalRules_cidrRejects call _ (fun cidr => [.net .src cidr])
        (fun cidr => [.net .dst cidr])]
      simp only [List.all_cons, List.all_nil, Bool.and_true, Cond.holds, Packet.addr]
      rfl
    simp only [if_true, Bool.true_and, hclosed]
    cases unprogrammed cfg family sets pkt with
    | true => rfl
    | false =>
      simp only [Bool.false_eq_true, if_false, Flow.next_andThen]
      cases ha : (hasMark markAccepted).passes m with
      | true => simp [evalRules, Filter.Rule.applies, ha]
      | false =>
        have hskip : ∀ call, evalRules (Cond.holds sets pkt) call
            [{ chain := nwplcyTail, conds := [], markTest := some (hasMark markAccepted),
               target := .accept }] m = .next m := fun call => by
          simp [evalRules, Filter.Rule.applies, ha]
        rw [hskip, Flow.next_andThen, hopen]
        cases inPodCidrs cfg family pkt <;> rfl

/-! ## Top-level chains -/

omit hlen in
theorem holds_of_noSet {k : Cond} (h : k.setName = none) (v v' : SetView) :
    Cond.holds v pkt k = Cond.holds v' pkt k := by
  cases k with
  | matchSet => cases h
  | typeLocal side => cases side <;> rfl
  | _ => rfl

/-- A jump of a top-level chain into the chain of `pod`. -/
structure IsIntercept (cfg : Config) (pod : Pod) (r : Rule) : Prop where
  markTest : r.markTest = none
  target : r.target = .jump (podChain cfg pod)
  noSet : ∀ k ∈ r.conds, k.setName = none

theorem evalRules_intercepts (jumps : Pod → IpAddr → List Rule)
    (hj : ∀ pod ip, ∀ r ∈ jumps pod ip, IsIntercept cfg pod r) (n : Nat) (m : Mark) :
    evalRules (Cond.holds sets pkt)
        (evalChain (Cond.holds sets pkt) (chainOf (buildPlan cfg w family).rules) (n + 2))
        ((chainPods cfg w family).flatMap
          fun pod => (podFamilyIps pod family).flatMap (jumps pod)) m =
      callAll (podFlow cfg w family sets pkt) (entered cfg w family pkt jumps) m := by
  let chain : Rule → String := fun r => r.target.callee.getD ""
  have hmem : ∀ r ∈ (chainPods cfg w family).flatMap
      (fun pod => (podFamilyIps pod family).flatMap (jumps pod)), ∃ pod, IsIntercept cfg pod r := by
    intro r hr
    obtain ⟨pod, -, hr⟩ := List.mem_flatMap.mp hr
    obtain ⟨ip, -, hr⟩ := List.mem_flatMap.mp hr
    exact ⟨pod, hj pod ip r hr⟩
  have hnames : (((chainPods cfg w family).flatMap
      (fun pod => (podFamilyIps pod family).flatMap (jumps pod))).filter
        (·.conds.all (Cond.holds sets pkt))).map chain =
      (visits cfg w family pkt jumps).map (podChain cfg) := by
    rw [visits, List.filter_flatMap, List.map_flatMap, List.map_flatMap]
    refine List.flatMap_congr fun pod _ => ?_
    rw [List.map_map]
    have hfilter : ((podFamilyIps pod family).flatMap (jumps pod)).filter
        (·.conds.all (Cond.holds sets pkt)) =
        ((podFamilyIps pod family).flatMap (jumps pod)).filter
          (·.conds.all (Cond.holds (fun _ _ => false) pkt)) :=
      List.filter_congr fun r hr => by
        obtain ⟨ip, -, hr⟩ := List.mem_flatMap.mp hr
        rw [Bool.eq_iff_iff, List.all_eq_true, List.all_eq_true]
        exact forall₂_congr fun k hk => by
          rw [holds_of_noSet ((hj pod ip r hr).noSet k hk) sets fun _ _ => false]
    rw [hfilter]
    refine List.map_congr_left fun r hr => ?_
    obtain ⟨ip, -, hr⟩ := List.mem_flatMap.mp (List.mem_filter.mp hr).1
    simp [chain, (hj pod ip r hr).target]
  rw [Filter.evalRules_jumps _ (fun r hr => (hmem r hr).elim fun _ h => h.markTest) chain
    (fun r hr => (hmem r hr).elim fun _ h => by simp [chain, h.target]), hnames,
    Filter.callAll_map]
  exact Filter.callAll_flatMap _ _ (fun pod _ m => evalChain_pod hlen n pod m) m

/-- A top-level chain without exemptions: the pod chains, then the tail. -/
theorem evalRules_toplevel (jumps : Pod → IpAddr → List Rule)
    (hj : ∀ pod ip, ∀ r ∈ jumps pod ip, IsIntercept cfg pod r) (c : String) (n : Nat) (m : Mark) :
    (evalRules (Cond.holds sets pkt)
        (evalChain (Cond.holds sets pkt) (chainOf (buildPlan cfg w family).rules) (n + 2))
        ((chainPods cfg w family).flatMap
          (fun pod => (podFamilyIps pod family).flatMap (jumps pod)) ++ [tailJump c]) m).leave =
      (callAll (podFlow cfg w family sets pkt) (entered cfg w family pkt jumps) m).andThen
        (tailFlow cfg family sets pkt) := by
  have htail : ∀ m, evalRules (Cond.holds sets pkt)
      (evalChain (Cond.holds sets pkt) (chainOf (buildPlan cfg w family).rules) (n + 2))
      [tailJump c] m = tailFlow cfg family sets pkt m := by
    intro m
    simp only [tailJump, evalRules, Filter.Rule.applies, List.all_nil, Option.all_none,
      Bool.and_self, if_true, evalChain_tail hlen]
    cases tailFlow cfg family sets pkt m <;> rfl
  have hleave : ∀ m, (tailFlow cfg family sets pkt m).leave = tailFlow cfg family sets pkt m := by
    intro m
    unfold tailFlow
    split
    · rfl
    · split
      · rfl
      · split <;> rfl
  rw [Filter.evalRules_append, evalRules_intercepts hlen jumps hj, funext htail]
  have hrun : (callAll (podFlow cfg w family sets pkt) (entered cfg w family pkt jumps) m).leave =
      callAll (podFlow cfg w family sets pkt) (entered cfg w family pkt jumps) m :=
    callAll_podFlow_leave _ m
  cases hf : callAll (podFlow cfg w family sets pkt) (entered cfg w family pkt jumps) m with
  | next m' => exact hleave m'
  | done v => rfl
  | stuck => rfl
  | ret m' => rw [hf] at hrun; cases hrun

end HashLength

end Closed

/-! ## The three hooks -/

/-- The builtin chains the firewall hangs off. -/
inductive Hook where
  | input
  | forward
  | output
deriving DecidableEq, Repr

/-- The top-level chain of a hook. -/
def Hook.chain : Hook → String
  | input => routerInput
  | forward => routerForward
  | output => routerOutput

/-- INPUT is entered by source only: before DNAT the destination is not a pod yet. -/
def Hook.jumps (cfg : Config) : Hook → Pod → IpAddr → List Rule
  | input => inputJumps cfg
  | forward => forwardJumps cfg
  | output => outputJumps cfg

theorem Hook.jumps_intercept {cfg : Config} (h : Hook) (pod : Pod) (ip : IpAddr) (r : Rule)
    (hr : r ∈ h.jumps cfg pod ip) : IsIntercept cfg pod r := by
  cases h <;>
    simp only [jumps, inputJumps, forwardJumps, outputJumps, List.mem_cons, List.not_mem_nil,
      or_false] at hr
  · subst hr
    exact ⟨rfl, rfl, by simp [Cond.setName]⟩
  · rcases hr with rfl | rfl | rfl | rfl <;> exact ⟨rfl, rfl, by simp [Cond.setName]⟩
  · rcases hr with rfl | rfl <;> exact ⟨rfl, rfl, by simp [Cond.setName]⟩

section Hooks

variable (cfg : Config) (w : PolicyWorld) (family : IpFamily) (sets : SetView) (pkt : Packet)

/-- The packet is service traffic that leaves KUBE-ROUTER-INPUT at its head. -/
def serviceExempt : Bool :=
  (cfg.serviceClusterIpRanges.filter (·.family == family)).any (·.contains pkt.dst) ||
    cfg.nodePortRange.any fun range =>
      ["tcp", "udp", "sctp"].contains pkt.transport.protocol && pkt.dstLocal &&
        pkt.transport.dport.any fun p => range.1 ≤ p && p ≤ range.2

/-- The hook spares the packet before any pod chain. -/
def Hook.spares (h : Hook) : Bool := h == .input && serviceExempt cfg family pkt

/-- The mark the tail sees. -/
def tailMark (h : Hook) : Mark :=
  if (entered cfg w family pkt (h.jumps cfg)).isEmpty then pkt.mark else passedMark pkt.mark

variable {cfg w family sets pkt}

theorem callAll_podFlow (pods : List Pod) (m : Mark) :
    callAll (podFlow cfg w family sets pkt) pods m =
      match podsVerdict cfg w family sets pkt ((hasMark markMatched).passes m) pods with
      | some v => .done v
      | none => .next (if pods.isEmpty then m else passedMark m) := by
  induction pods generalizing m with
  | nil => rfl
  | cons pod pods ih =>
    rw [callAll, podsVerdict, podFlow]
    cases podVerdict cfg w family sets pkt ((hasMark markMatched).passes m) pod with
    | some v => rfl
    | none =>
      -- Behind the first body the matched mark is clear and a second passage changes nothing.
      have hpass : passedMark (passedMark m) = passedMark m := by
        simp only [passedMark, Filter.orMark]
        ext i hi
        simp only [BitVec.getElem_and, BitVec.getElem_or, BitVec.getElem_not]
        cases m[i] <;> cases markMatched[i] <;> cases markAccepted[i] <;> simp
      rw [Flow.next_andThen, ih, passedMark_matched]
      cases podsVerdict cfg w family sets pkt false pods with
      | some v => rfl
      | none => cases pods <;> simp [hpass]

theorem serviceReturns_any (m : Mark) :
    (serviceReturns cfg family).any (·.applies (Cond.holds sets pkt) m) =
      serviceExempt cfg family pkt := by
  rw [serviceReturns, serviceExempt, List.any_append, List.any_map]
  congr 1
  · simp only [Function.comp_def, Filter.Rule.applies, Cond.holds, Packet.addr, List.all_cons,
      List.all_nil, Option.all_none, Bool.and_true]
  · cases cfg.nodePortRange with
    | none => rfl
    | some range =>
      simp only [List.any_map, Function.comp_def, Filter.Rule.applies, nodePortReturn, Cond.holds,
        List.all_cons, List.all_nil, Option.all_none, Bool.and_true, Option.any_some,
        List.any_cons, List.any_nil, Bool.or_false, List.contains_cons, List.contains_nil]
      cases pkt.transport.protocol == "tcp" <;> cases pkt.transport.protocol == "udp" <;>
        cases pkt.transport.protocol == "sctp" <;> simp

/-- A traversal from a hook: service exemptions, then the entered pod chains, then the tail. -/
theorem traverse_hook (hlen : ∀ s, (cfg.hash16 s).length = hashLen) (h : Hook) (n : Nat) :
    traverse (buildPlan cfg w family).rules sets (n + 3) h.chain pkt =
      if h.spares cfg family pkt then .next pkt.mark
      else match podsVerdict cfg w family sets pkt ((hasMark markMatched).passes pkt.mark)
          (entered cfg w family pkt (h.jumps cfg)) with
        | some v => .done v
        | none => tailFlow cfg family sets pkt (tailMark cfg w family pkt h) := by
  have hrun : ∀ c, (evalRules (Cond.holds sets pkt)
      (evalChain (Cond.holds sets pkt) (chainOf (buildPlan cfg w family).rules) (n + 2))
      ((chainPods cfg w family).flatMap
        (fun pod => (podFamilyIps pod family).flatMap (h.jumps cfg pod)) ++ [tailJump c])
      pkt.mark).leave =
      match podsVerdict cfg w family sets pkt ((hasMark markMatched).passes pkt.mark)
          (entered cfg w family pkt (h.jumps cfg)) with
        | some v => .done v
        | none => tailFlow cfg family sets pkt (tailMark cfg w family pkt h) := by
    intro c
    rw [evalRules_toplevel hlen _ h.jumps_intercept, callAll_podFlow, tailMark]
    cases podsVerdict cfg w family sets pkt ((hasMark markMatched).passes pkt.mark)
      (entered cfg w family pkt (h.jumps cfg)) <;> rfl
  rw [traverse, evalChain]
  cases h with
  | input =>
    rw [Hook.chain, chainOf_input, List.append_assoc, Filter.evalRules_append,
      Filter.evalRules_returns _ fun r hr => (serviceReturns_spec hr).2.1, serviceReturns_any]
    cases he : serviceExempt cfg family pkt with
    | true => simp [Hook.spares, he]
    | false =>
      rw [if_neg (by simp), Flow.next_andThen, if_neg (by simp [Hook.spares, he])]
      exact hrun routerInput
  | forward =>
    rw [Hook.chain, chainOf_forward, if_neg (by simp [Hook.spares])]
    exact hrun routerForward
  | output =>
    rw [Hook.chain, chainOf_output, if_neg (by simp [Hook.spares])]
    exact hrun routerOutput

/-- A hook enters the chains of the selected local pods that own an address of the packet. -/
theorem mem_visits {h : Hook} {pod : Pod} :
    pod ∈ visits cfg w family pkt (h.jumps cfg) ↔ pod ∈ chainPods cfg w family ∧
      (pkt.src ∈ podFamilyIps pod family ∨ h ≠ .input ∧ pkt.dst ∈ podFamilyIps pod family) := by
  have hjump : ∀ ip, (∃ r ∈ h.jumps cfg pod ip, r.conds.all (Cond.holds (fun _ _ => false) pkt)) ↔
      (pkt.src = ip ∨ h ≠ .input ∧ pkt.dst = ip) := by
    intro ip
    cases h <;>
      simp only [Hook.jumps, inputJumps, forwardJumps, outputJumps, List.mem_cons, List.not_mem_nil,
        or_false, exists_eq_or_imp, exists_eq_left, List.all_cons, List.all_nil, Bool.and_true,
        Cond.holds, Packet.addr, Bool.and_eq_true, beq_iff_eq, ne_eq, reduceCtorEq, not_true,
        not_false_eq_true, true_and, false_and] <;> tauto
  simp only [visits, List.mem_flatMap, List.mem_map, List.mem_filter]
  constructor
  · rintro ⟨pod', hpod, r, ⟨⟨ip, hip, hr⟩, hc⟩, rfl⟩
    refine ⟨hpod, ?_⟩
    rcases (hjump ip).mp ⟨r, hr, hc⟩ with rfl | ⟨hne, rfl⟩
    · exact Or.inl hip
    · exact Or.inr ⟨hne, hip⟩
  · rintro ⟨hpod, hip | ⟨hne, hip⟩⟩
    · obtain ⟨r, hr, hc⟩ := (hjump pkt.src).mpr (Or.inl rfl)
      exact ⟨pod, hpod, r, ⟨⟨pkt.src, hip, hr⟩, hc⟩, rfl⟩
    · obtain ⟨r, hr, hc⟩ := (hjump pkt.dst).mpr (Or.inr ⟨hne, rfl⟩)
      exact ⟨pod, hpod, r, ⟨⟨pkt.dst, hip, hr⟩, hc⟩, rfl⟩

theorem mem_entered {h : Hook} {pod : Pod} :
    pod ∈ entered cfg w family pkt (h.jumps cfg) ↔ pod ∈ chainPods cfg w family ∧
      ∃ v ∈ visits cfg w family pkt (h.jumps cfg), podChain cfg pod = podChain cfg v := by
  simp only [entered, chainBodies, List.mem_flatMap, List.mem_filter, beq_iff_eq]
  exact ⟨fun ⟨v, hv, hp, he⟩ => ⟨hp, v, hv, he⟩, fun ⟨hp, v, hv, he⟩ => ⟨v, hv, hp, he⟩⟩

/-- Outside the exceptions of COMMON and for remote senders, a run of pod chains rejects
    exactly when one of them does not mark the packet. -/
theorem podsVerdict_unmarked (hc : commonVerdict family pkt = none) (hs : pkt.srcLocal = false)
    (pods : List Pod) :
    podsVerdict cfg w family sets pkt false pods =
      if pods.all (podMatched cfg w family sets pkt) then none else some .reject := by
  induction pods with
  | nil => rfl
  | cons pod pods ih =>
    rw [podsVerdict, podVerdict, hc, ih, List.all_cons]
    cases podMatched cfg w family sets pkt pod <;> simp [hs]

end Hooks

end KubeRouter.Netpol
