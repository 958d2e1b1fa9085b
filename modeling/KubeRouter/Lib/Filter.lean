/-
  Packet-filter chains. A rule carries its chain, a list of conditions, an optional test of
  the packet mark and a target; a chain is the list of its rules in order.

  Semantics. `evalRules` walks a rule list: the first rule whose conditions and mark test
  hold acts. ACCEPT, DROP and REJECT end the traversal (`Flow.done`), RETURN leaves the chain
  (`Flow.ret`), a jump runs the target chain and resumes behind the jump unless that chain
  ended the traversal, the MARK targets change the mark and go on. `evalChain n` allows `n`
  nested chains; a deeper jump is `Flow.stuck`.

  Parameters. `N` is the type of chain names, `C` the type of conditions and `holds : C → Bool`
  their truth for the packet at hand. Nothing here depends on what a condition means.

  Proved:
  * `evalRules_append`: a rule list is run piece by piece.
  * `evalChain_congr`: a traversal depends only on the chains a jump can reach and on the
    conditions their rules name.
  * `evalRules_verdicts`, `evalRules_returns`, `evalRules_jumps`: lists of rules of one kind.
  * `evalRules_markers`: a list of rules that can only raise one mark bit raises it exactly
    when one of them does.
  * `acyclic_of_rank`: jumps that all lower a rank close no cycle.
  * `precedes_append`: one kind of rule stands in front of another when the list splits between
    them.
-/
import Mathlib.Data.List.Basic
import Mathlib.Data.BitVec
import Mathlib.Logic.Relation

namespace Filter

/-- The 32-bit packet mark. -/
abbrev Mark := BitVec 32

/-- `--set-xmark value/mask`: zero the bits of `mask`, then XOR `value` in. -/
def xmark (value mask m : Mark) : Mark := (m &&& ~~~mask) ^^^ value

/-- `--set-mark value/mask`: zero the bits of `mask`, then OR `value` in. -/
def orMark (value mask m : Mark) : Mark := (m &&& ~~~mask) ||| value

/-- `-m mark [!] --mark value/mask`. -/
structure MarkTest where
  negated : Bool
  value : Mark
  mask : Mark
deriving DecidableEq, Repr

def MarkTest.passes (t : MarkTest) (m : Mark) : Bool :=
  (m &&& t.mask == t.value) != t.negated

inductive Target (N : Type) where
  | accept
  | drop
  | reject (rejectWith : String)
  | ret
  | jump (chain : N)
  | setXmark (value mask : Mark)
  | setMark (value mask : Mark)
  | nflog (group : Nat)
deriving DecidableEq, Repr

structure Rule (N C : Type) where
  chain : N
  conds : List C
  markTest : Option MarkTest := none
  target : Target N
deriving DecidableEq, Repr

inductive Verdict where
  | accept
  | drop
  | reject
deriving DecidableEq, Repr

/-- The chain a target calls. -/
def Target.callee {N : Type} : Target N → Option N
  | jump c => some c
  | _ => none

@[simp] theorem Target.callee_jump {N : Type} (c : N) : (jump c).callee = some c := rfl

/-- The verdict of a terminating target. -/
def Target.verdict {N : Type} : Target N → Option Verdict
  | accept => some .accept
  | drop => some .drop
  | reject _ => some .reject
  | _ => none

/-- How a packet left a list of rules. -/
inductive Flow where
  | done (v : Verdict)
  | ret (m : Mark)
  | next (m : Mark)
  | stuck
deriving DecidableEq, Repr

/-- Go on with `k` where the packet fell off the end. -/
def Flow.andThen : Flow → (Mark → Flow) → Flow
  | .next m, k => k m
  | f, _ => f

/-- A RETURN only leaves the chain it stands in. -/
def Flow.leave : Flow → Flow
  | .ret m => .next m
  | f => f

@[simp] theorem Flow.next_andThen (m : Mark) (k : Mark → Flow) :
    (Flow.next m).andThen k = k m := rfl
@[simp] theorem Flow.done_andThen (v : Verdict) (k : Mark → Flow) :
    (Flow.done v).andThen k = .done v := rfl
@[simp] theorem Flow.ret_andThen (m : Mark) (k : Mark → Flow) :
    (Flow.ret m).andThen k = .ret m := rfl
@[simp] theorem Flow.stuck_andThen (k : Mark → Flow) : Flow.stuck.andThen k = .stuck := rfl
@[simp] theorem Flow.leave_ret (m : Mark) : (Flow.ret m).leave = .next m := rfl
@[simp] theorem Flow.leave_next (m : Mark) : (Flow.next m).leave = .next m := rfl
@[simp] theorem Flow.leave_done (v : Verdict) : (Flow.done v).leave = .done v := rfl

theorem Flow.andThen_assoc (f : Flow) (k l : Mark → Flow) :
    (f.andThen k).andThen l = f.andThen fun m => (k m).andThen l := by
  cases f <;> rfl

/-! ## The jump graph and the order of a chain -/

section Graph

variable {N C : Type}

/-- Some rule of chain `a` jumps to chain `b`. -/
def Jumps (rules : List (Rule N C)) (a b : N) : Prop :=
  ∃ r ∈ rules, r.chain = a ∧ r.target = .jump b

/-- No chain comes back to itself along the jumps. -/
def Acyclic (rules : List (Rule N C)) : Prop := ∀ c, ¬Relation.TransGen (Jumps rules) c c

theorem acyclic_of_rank {rules : List (Rule N C)} (rank : N → Nat)
    (h : ∀ r ∈ rules, ∀ c, r.target = .jump c → rank c < rank r.chain) : Acyclic rules := by
  have hstep : ∀ a b, Jumps rules a b → rank b < rank a := by
    intro a b hab
    obtain ⟨r, hr, rfl, ht⟩ := hab
    exact h r hr b ht
  have hpath : ∀ a b, Relation.TransGen (Jumps rules) a b → rank b < rank a := by
    intro a b hab
    induction hab with
    | single hb => exact hstep _ _ hb
    | tail _ hbc ih => exact (hstep _ _ hbc).trans ih
  intro c hc
  exact lt_irrefl _ (hpath c c hc)

/-- Every rule of kind `P` stands in front of every rule of kind `Q`. -/
def Precedes (P Q : Rule N C → Prop) (rules : List (Rule N C)) : Prop :=
  rules.Pairwise fun a b => Q a → ¬P b

theorem precedes_append {P Q : Rule N C → Prop} {front back : List (Rule N C)}
    (hf : ∀ r ∈ front, ¬Q r) (hb : ∀ r ∈ back, ¬P r) : Precedes P Q (front ++ back) := by
  refine List.pairwise_append.mpr ⟨?_, ?_, ?_⟩
  · exact List.pairwise_of_forall_mem_list fun a ha b _ hq => absurd hq (hf a ha)
  · exact List.pairwise_of_forall_mem_list fun a _ b hb' _ => hb b hb'
  · exact fun a _ b hb' _ => hb b hb'

end Graph

section Eval

variable {N C : Type} (holds : C → Bool)

/-- All conditions and the mark test of the rule hold. -/
def Rule.applies (r : Rule N C) (m : Mark) : Bool :=
  r.conds.all holds && r.markTest.all (·.passes m)

/-- Walk `rules` with mark `m`; `call` runs the target of a jump. -/
def evalRules (call : N → Mark → Flow) : List (Rule N C) → Mark → Flow
  | [], m => .next m
  | r :: rs, m =>
    if r.applies holds m then
      match r.target with
      | .accept => .done .accept
      | .drop => .done .drop
      | .reject _ => .done .reject
      | .ret => .ret m
      | .jump c => (call c m).andThen (evalRules call rs)
      | .setXmark value mask => evalRules call rs (xmark value mask m)
      | .setMark value mask => evalRules call rs (orMark value mask m)
      | .nflog _ => evalRules call rs m
    else evalRules call rs m

/-- Call chain after chain as long as the packet falls through. -/
def callAll (call : N → Mark → Flow) : List N → Mark → Flow
  | [], m => .next m
  | c :: cs, m => (call c m).andThen (callAll call cs)

/-- Run a chain with at most `n` nested chains, itself included. -/
def evalChain (chains : N → List (Rule N C)) : Nat → N → Mark → Flow
  | 0, _, _ => .stuck
  | n + 1, c, m => (evalRules holds (evalChain chains n) (chains c) m).leave

variable {holds}

theorem evalRules_append (call : N → Mark → Flow) (a b : List (Rule N C)) (m : Mark) :
    evalRules holds call (a ++ b) m =
      (evalRules holds call a m).andThen (evalRules holds call b) := by
  induction a generalizing m with
  | nil => rfl
  | cons r a ih =>
    have ih' : evalRules holds call (a ++ b) =
        fun m => (evalRules holds call a m).andThen (evalRules holds call b) := funext ih
    simp only [List.cons_append, evalRules, ih']
    by_cases h : r.applies holds m
    · simp only [if_pos h]
      cases r.target with
      | jump c => exact (Flow.andThen_assoc _ _ _).symm
      | _ => rfl
    · simp only [if_neg h]

theorem evalRules_skip {call : N → Mark → Flow} {r : Rule N C} {rs : List (Rule N C)} {m : Mark}
    (h : r.applies holds m = false) :
    evalRules holds call (r :: rs) m = evalRules holds call rs m := by
  simp [evalRules, h]

/-- Rules whose conditions fail never apply, whatever the mark. -/
theorem applies_eq_false_of_conds {r : Rule N C} {m : Mark} (h : r.conds.all holds = false) :
    r.applies holds m = false := by
  simp [Rule.applies, h]

/-! ## Locality: what a traversal depends on -/

section Congr

variable {holds' : C → Bool} {chains chains' : N → List (Rule N C)}

/-- `evalRules` reads only the conditions of its rules and the jump targets they name. -/
theorem evalRules_congr {call call' : N → Mark → Flow} (rs : List (Rule N C))
    (hc : ∀ r ∈ rs, ∀ c ∈ r.conds, holds c = holds' c)
    (hj : ∀ r ∈ rs, ∀ c, r.target = .jump c → ∀ m, call c m = call' c m) (m : Mark) :
    evalRules holds call rs m = evalRules holds' call' rs m := by
  induction rs generalizing m with
  | nil => rfl
  | cons r rs ih =>
    have ih' := ih (fun r' hr => hc r' (List.mem_cons_of_mem r hr))
      (fun r' hr => hj r' (List.mem_cons_of_mem r hr))
    have happ : r.applies holds m = r.applies holds' m := by
      unfold Rule.applies
      have : r.conds.all holds = r.conds.all holds' := by
        rw [Bool.eq_iff_iff, List.all_eq_true, List.all_eq_true]
        have := hc r List.mem_cons_self
        exact forall₂_congr fun c hcm => by rw [this c hcm]
      rw [this]
    have hfun : evalRules holds call rs = evalRules holds' call' rs := funext ih'
    simp only [evalRules, happ, hfun]
    cases ht : r.target with
    | jump c => simp only [hj r List.mem_cons_self c ht m]
    | _ => rfl

/-- Lists that agree in two pieces agree. -/
theorem evalRules_append_congr {call call' : N → Mark → Flow} {a a' b b' : List (Rule N C)}
    (ha : ∀ m, evalRules holds call a m = evalRules holds' call' a' m)
    (hb : ∀ m, evalRules holds call b m = evalRules holds' call' b' m) (m : Mark) :
    evalRules holds call (a ++ b) m = evalRules holds' call' (a' ++ b') m := by
  rw [evalRules_append, evalRules_append, ha, funext hb]

/-- Two filters agree on every chain of a jump-closed family `S` on which they have the same
    rules and give the conditions of those rules the same truth. -/
theorem evalChain_congr (S : N → Prop) (hr : ∀ c, S c → chains c = chains' c)
    (hc : ∀ c, S c → ∀ r ∈ chains c, ∀ k ∈ r.conds, holds k = holds' k)
    (hj : ∀ c, S c → ∀ r ∈ chains c, ∀ d, r.target = .jump d → S d)
    (n : Nat) (c : N) (hS : S c) (m : Mark) :
    evalChain holds chains n c m = evalChain holds' chains' n c m := by
  induction n generalizing c m with
  | zero => rfl
  | succ n ih =>
    simp only [evalChain]
    rw [← hr c hS, evalRules_congr (chains c) (hc c hS)
      fun r hrm d hd m => ih d (hj c hS r hrm d hd) m]

end Congr

/-! ## Lists of rules of one kind -/

/-- A list of rules that all end the traversal with `v` does so when one of them applies. -/
theorem evalRules_verdicts {call : N → Mark → Flow} (v : Verdict) (rs : List (Rule N C))
    (h : ∀ r ∈ rs, r.target.verdict = some v) (m : Mark) :
    evalRules holds call rs m = if rs.any (·.applies holds m) then .done v else .next m := by
  induction rs with
  | nil => rfl
  | cons r rs ih =>
    have ih' := ih fun r' hr => h r' (List.mem_cons_of_mem r hr)
    have hr := h r List.mem_cons_self
    cases ha : r.applies holds m with
    | false => rw [evalRules_skip ha, ih', List.any_cons, ha, Bool.false_or]
    | true =>
      simp only [evalRules, ha, if_true, List.any_cons, Bool.true_or]
      cases ht : r.target <;> simp_all [Target.verdict]

/-- A list of RETURN rules leaves the chain when one of them applies. -/
theorem evalRules_returns {call : N → Mark → Flow} (rs : List (Rule N C))
    (h : ∀ r ∈ rs, r.target = .ret) (m : Mark) :
    evalRules holds call rs m = if rs.any (·.applies holds m) then .ret m else .next m := by
  induction rs with
  | nil => rfl
  | cons r rs ih =>
    have ih' := ih fun r' hr => h r' (List.mem_cons_of_mem r hr)
    cases ha : r.applies holds m with
    | false => rw [evalRules_skip ha, ih', List.any_cons, ha, Bool.false_or]
    | true => simp [evalRules, ha, h r List.mem_cons_self]

/-- A list of jumps without mark tests calls the targets of those that apply, in order. -/
theorem evalRules_jumps {call : N → Mark → Flow} (rs : List (Rule N C))
    (h : ∀ r ∈ rs, r.markTest = none) (chain : Rule N C → N)
    (hj : ∀ r ∈ rs, r.target = .jump (chain r)) (m : Mark) :
    evalRules holds call rs m = callAll call ((rs.filter (·.conds.all holds)).map chain) m := by
  induction rs generalizing m with
  | nil => rfl
  | cons r rs ih =>
    have ih' := ih (fun r' hr => h r' (List.mem_cons_of_mem r hr))
      (fun r' hr => hj r' (List.mem_cons_of_mem r hr))
    have happ : r.applies holds m = r.conds.all holds := by
      simp [Rule.applies, h r List.mem_cons_self]
    cases hc : r.conds.all holds with
    | false => rw [evalRules_skip (happ.trans hc), ih', List.filter_cons, if_neg (by simp [hc])]
    | true =>
      have hfun : evalRules holds call rs =
          callAll call ((rs.filter (·.conds.all holds)).map chain) := funext ih'
      rw [List.filter_cons, if_pos (by simp [hc])]
      simp only [evalRules, happ, hc, if_true, hj r List.mem_cons_self, hfun,
        List.map_cons, callAll]

theorem callAll_map {α : Type} (call : N → Mark → Flow) (f : α → N) (xs : List α) (m : Mark) :
    callAll call (xs.map f) m = callAll (fun x => call (f x)) xs m := by
  induction xs generalizing m with
  | nil => rfl
  | cons x xs ih => simp only [List.map_cons, callAll, funext ih]

theorem callAll_append {α : Type} (call : α → Mark → Flow) (xs ys : List α) (m : Mark) :
    callAll call (xs ++ ys) m = (callAll call xs m).andThen (callAll call ys) := by
  induction xs generalizing m with
  | nil => rfl
  | cons x xs ih => simp only [List.cons_append, callAll, funext ih, Flow.andThen_assoc]

/-- Calls that are themselves sequences of calls. -/
theorem callAll_flatMap {α β : Type} {call : α → Mark → Flow} {step : β → Mark → Flow}
    (f : α → List β) (xs : List α) (h : ∀ x ∈ xs, ∀ m, call x m = callAll step (f x) m) (m : Mark) :
    callAll call xs m = callAll step (xs.flatMap f) m := by
  induction xs generalizing m with
  | nil => rfl
  | cons x xs ih =>
    have ih' : callAll call xs = callAll step (xs.flatMap f) :=
      funext (ih fun y hy => h y (List.mem_cons_of_mem x hy))
    rw [List.flatMap_cons, callAll_append, ← ih', ← h x List.mem_cons_self]
    rfl

/-! ## Rules that can only raise a mark bit -/

/-- Whatever the mark, `r` goes on with the next rule, raising the bits `k` exactly when `p`. -/
def Raises (holds : C → Bool) (call : N → Mark → Flow) (k : Mark) (p : Bool)
    (r : Rule N C) : Prop :=
  ∀ rs m, evalRules holds call (r :: rs) m =
    evalRules holds call rs (if p then m ||| k else m)

theorem xmark_self (k m : Mark) : xmark k k m = m ||| k := by
  ext i hi
  simp only [xmark, BitVec.getElem_xor, BitVec.getElem_and, BitVec.getElem_not, BitVec.getElem_or]
  cases m[i] <;> cases k[i] <;> rfl

theorem or_and_self (k m : Mark) : (m ||| k) &&& k = k := by
  ext i hi
  simp only [BitVec.getElem_and, BitVec.getElem_or]
  cases m[i] <;> cases k[i] <;> rfl

/-- Clearing bits forgets that they were raised. -/
theorem orMark_zero_or (k m : Mark) : orMark 0 k (m ||| k) = orMark 0 k m := by
  ext i hi
  simp only [orMark, BitVec.getElem_and, BitVec.getElem_or, BitVec.getElem_not]
  cases k[i] <;> cases m[i] <;> simp

/-- Raising the disjoint bits `a` leaves cleared bits `k` clear. -/
theorem orMark_orMark_and {a k : Mark} (h : a &&& k = 0) (m : Mark) :
    orMark a a (orMark 0 k m) &&& k = 0 := by
  ext i hi
  have hb : (a[i] && k[i]) = false := by simpa using congrArg (·[i]) h
  simp only [orMark, BitVec.getElem_and, BitVec.getElem_or, BitVec.getElem_not]
  revert hb
  cases a[i] <;> cases k[i] <;> cases m[i] <;> simp

theorem or_or_self (m k : Mark) : m ||| k ||| k = m ||| k := by
  rw [BitVec.or_assoc, BitVec.or_self]

/-- A list of such rules raises the bits exactly when one of them does. -/
theorem evalRules_markers {call : N → Mark → Flow} {k : Mark} {α : Type} (p : α → Bool)
    (rule : α → Rule N C) (xs : List α)
    (h : ∀ x ∈ xs, Raises holds call k (p x) (rule x)) (m : Mark) :
    evalRules holds call (xs.map rule) m = .next (if xs.any p then m ||| k else m) := by
  induction xs generalizing m with
  | nil => rfl
  | cons x xs ih =>
    rw [List.map_cons, h x List.mem_cons_self,
      ih fun y hy => h y (List.mem_cons_of_mem x hy)]
    cases hx : p x <;> cases hxs : xs.any p <;> simp [hx, hxs, or_or_self]

end Eval

end Filter
