/-
  Calls to a remote party that may fail.

  A call that succeeds changes the party's state, one that fails leaves it alone and stops the
  program. Which calls fail is given by their number, counted over the whole run. A program
  that makes a fixed list of calls either makes them all or stops behind a first part of them.

  Proved:
  * `exec_call`: one call.
  * `takes_call`: the same, as a step of a script.
  * `takes_call_ok`: where no call fails, nothing stops early.
  * `takes_call_sent`: the calls of a list that take effect are those in front of the first one
    that fails.
  * `sentAll_concat`, `madeAll_concat`: the same over programs run one behind the other.
-/
import KubeRouter.Lib.Program

namespace Program

variable {S C ε : Type}

/-- The party's state and the number of calls made so far. -/
structure Remote (S : Type) where
  state : S
  calls : Nat := 0
deriving DecidableEq, Repr

variable (apply : S → C → S) (fails : Nat → Option ε)

def call (c : C) : Prog (Remote S) ε PUnit := do
  let r ← get
  modify fun r => { r with calls := r.calls + 1 }
  match fails r.calls with
  | some e => throw e
  | none => modify fun r => { r with state := apply r.state c }

theorem exec_call (c : C) (r : Remote S) :
    Prog.exec (call apply fails c) r = match fails r.calls with
      | some e => (.error e, { r with calls := r.calls + 1 })
      | none => (.ok ⟨⟩, { state := apply r.state c, calls := r.calls + 1 }) := by
  show Prog.exec (match fails r.calls with
    | some e => throw e
    | none => modify fun r => { r with state := apply r.state c })
      { r with calls := r.calls + 1 } = _
  cases fails r.calls with
  | some e => rfl
  | none => rfl

/-- All calls of `l` were made. -/
def Done (s t : Remote S) (l : List C) : Prop := t.state = l.foldl apply s.state

/-- A first part of `l` was made. -/
def Cut (s t : Remote S) (l : List C) : Prop := ∃ pre, pre <+: l ∧ t.state = pre.foldl apply s.state

theorem script_done_cut : Script (Done apply) (Cut apply) where
  refl _ := rfl
  trans {s t u l m} h h' := by
    unfold Done at *
    rw [h', h, List.foldl_append]
  stop {s t u l m} h h' := by
    obtain ⟨pre, hpre, hu⟩ := h'
    refine ⟨l ++ pre, (List.prefix_append_right_inj l).mpr hpre, ?_⟩
    unfold Done at h
    rw [hu, h, List.foldl_append]
  early {s t l m} h := by
    obtain ⟨pre, hpre, ht⟩ := h
    exact ⟨pre, hpre.trans (List.prefix_append l m), ht⟩

theorem script_done : Script (Done apply) (fun _ _ _ => False) where
  refl _ := rfl
  trans h h' := (script_done_cut apply).trans h h'
  stop _ h := h
  early h := h

theorem takes_call (c : C) : Takes (Done apply) (Cut apply) (call apply fails c) [c] := by
  intro s
  unfold call
  rw [wp_bind, wp_get, wp_bind, wp_modify]
  cases fails s.calls with
  | some e => exact (wp_throw e).mpr ⟨[], List.nil_prefix, rfl⟩
  | none => exact (wp_modify _).mpr rfl

theorem takes_call_ok (hok : ∀ n, fails n = none) (c : C) :
    Takes (Done apply) (fun _ _ _ => False) (call apply fails c) [c] := by
  intro s
  unfold call
  rw [wp_bind, wp_get, wp_bind, wp_modify, hok s.calls]
  exact (wp_modify _).mpr rfl

/-! ### The calls that take effect -/

/-- The calls of a list, made from the `n`-th on, in front of the first one that fails. -/
def sent (n : Nat) : List C → List C
  | [] => []
  | c :: cs => if (fails n).isSome then [] else c :: sent (n + 1) cs

theorem length_sent_le (n : Nat) (l : List C) : (sent fails n l).length ≤ l.length := by
  induction l generalizing n with
  | nil => exact Nat.le_refl _
  | cons c l ih =>
    rw [sent]
    split
    · exact Nat.zero_le _
    · exact Nat.succ_le_succ (ih (n + 1))

/-- Where nothing fails, every call is sent. -/
theorem sent_of_ok (hok : ∀ n, fails n = none) (n : Nat) (l : List C) : sent fails n l = l := by
  induction l generalizing n with
  | nil => rfl
  | cons c l ih => rw [sent, hok, if_neg (by simp), ih]

theorem mem_of_mem_sent {n : Nat} {l : List C} {c : C} (h : c ∈ sent fails n l) : c ∈ l := by
  induction l generalizing n with
  | nil => exact h
  | cons a l ih =>
    rw [sent] at h
    split at h
    · cases h
    · obtain rfl | h := List.mem_cons.mp h
      · exact List.mem_cons_self
      · exact List.mem_cons_of_mem a (ih h)

theorem sent_append_of_all {n : Nat} {l : List C} (h : sent fails n l = l) (m : List C) :
    sent fails n (l ++ m) = l ++ sent fails (n + l.length) m := by
  induction l generalizing n with
  | nil => rfl
  | cons c l ih =>
    rw [sent] at h
    split at h
    · cases h
    · next hok =>
      rw [List.cons_append, sent, if_neg hok, ih (List.cons_inj_right c |>.mp h), List.length_cons,
        List.cons_append, Nat.add_assoc, Nat.add_comm 1]

theorem sent_append_of_cut {n : Nat} {l : List C} (h : sent fails n l ≠ l) (m : List C) :
    sent fails n (l ++ m) = sent fails n l := by
  induction l generalizing n with
  | nil => exact absurd rfl h
  | cons c l ih =>
    rw [List.cons_append, sent, sent]
    split
    · rfl
    · next hok =>
      rw [sent, if_neg hok] at h
      rw [ih fun heq => h (by rw [heq])]

/-- How many calls of a list are made, counting the one that fails. -/
def made (n : Nat) : List C → Nat
  | [] => 0
  | _ :: cs => if (fails n).isSome then 1 else made (n + 1) cs + 1

theorem made_append_of_all {n : Nat} {l : List C} (h : sent fails n l = l) (m : List C) :
    made fails n (l ++ m) = l.length + made fails (n + l.length) m := by
  induction l generalizing n with
  | nil => simp
  | cons c l ih =>
    rw [sent] at h
    split at h
    · cases h
    · next hok =>
      rw [List.cons_append, made, if_neg hok, ih (List.cons_inj_right c |>.mp h), List.length_cons,
        Nat.add_assoc n, Nat.add_comm 1]
      omega

theorem made_append_of_cut {n : Nat} {l : List C} (h : sent fails n l ≠ l) (m : List C) :
    made fails n (l ++ m) = made fails n l := by
  induction l generalizing n with
  | nil => exact absurd rfl h
  | cons c l ih =>
    rw [List.cons_append, made, made]
    split
    · rfl
    · next hok =>
      rw [sent, if_neg hok] at h
      rw [ih fun heq => h (by rw [heq])]

theorem made_of_all {n : Nat} {l : List C} (h : sent fails n l = l) :
    made fails n l = l.length := by
  have happend := made_append_of_all fails h []
  rwa [List.append_nil, made, Nat.add_zero] at happend

/-- All calls of `l` took effect. -/
def AllSent (s t : Remote S) (l : List C) : Prop :=
  sent fails s.calls l = l ∧ t.state = l.foldl apply s.state ∧ t.calls = s.calls + l.length

/-- Those in front of the first failure did. -/
def CutSent (s t : Remote S) (l : List C) : Prop :=
  sent fails s.calls l ≠ l ∧ t.state = (sent fails s.calls l).foldl apply s.state ∧
    t.calls = s.calls + made fails s.calls l

theorem script_sent : Script (AllSent apply fails) (CutSent apply fails) where
  refl _ := ⟨rfl, rfl, rfl⟩
  trans {s t u l m} h h' := by
    obtain ⟨hsent, hstate, hcalls⟩ := h
    obtain ⟨hsent', hstate', hcalls'⟩ := h'
    rw [hcalls] at hsent'
    refine ⟨?_, ?_, ?_⟩
    · rw [sent_append_of_all fails hsent, hsent']
    · rw [hstate', hstate, List.foldl_append]
    · rw [hcalls', hcalls, List.length_append, Nat.add_assoc]
  stop {s t u l m} h h' := by
    obtain ⟨hsent, hstate, hcalls⟩ := h
    obtain ⟨hcut, hstate', hcalls'⟩ := h'
    rw [hcalls] at hcut hstate' hcalls'
    refine ⟨?_, ?_, ?_⟩
    · rw [sent_append_of_all fails hsent]
      exact fun heq => hcut (List.append_cancel_left heq)
    · rw [sent_append_of_all fails hsent, hstate', hstate, List.foldl_append]
    · rw [made_append_of_all fails hsent, hcalls', Nat.add_assoc]
  early {s t l m} h := by
    obtain ⟨hcut, hstate, hcalls⟩ := h
    refine ⟨?_, ?_, ?_⟩
    · rw [sent_append_of_cut fails hcut]
      intro heq
      have hle := length_sent_le fails s.calls l
      obtain rfl : m = [] := by
        rw [heq, List.length_append] at hle
        exact List.eq_nil_of_length_eq_zero (by omega)
      exact hcut (by rw [heq, List.append_nil])
    · rw [sent_append_of_cut fails hcut, hstate]
    · rw [made_append_of_cut fails hcut, hcalls]

theorem takes_call_sent (c : C) :
    Takes (AllSent apply fails) (CutSent apply fails) (call apply fails c) [c] := by
  intro s
  unfold call
  rw [wp_bind, wp_get, wp_bind, wp_modify]
  cases h : fails s.calls with
  | some e => exact (wp_throw e).mpr ⟨by simp [sent, h], by simp [sent, h], by simp [made, h]⟩
  | none => exact (wp_modify _).mpr ⟨by simp [sent, h], rfl, rfl⟩

/-- However it ends, the calls that took effect are known. -/
theorem state_of_sent {x : Prog (Remote S) ε PUnit} {l : List C}
    (h : Takes (AllSent apply fails) (CutSent apply fails) x l) (s : Remote S) :
    (Prog.exec x s).2.state = (sent fails s.calls l).foldl apply s.state := by
  refine wp_state (P := fun t => t.state = (sent fails s.calls l).foldl apply s.state)
    (wp_mono (h s) (fun _ t ht => ?_) (fun _ t ht => ht.2.1))
  rw [ht.1]
  exact ht.2.1

theorem calls_of_sent {x : Prog (Remote S) ε PUnit} {l : List C}
    (h : Takes (AllSent apply fails) (CutSent apply fails) x l) (s : Remote S) :
    (Prog.exec x s).2.calls = s.calls + made fails s.calls l := by
  refine wp_state (P := fun t => t.calls = s.calls + made fails s.calls l)
    (wp_mono (h s) (fun _ t ht => ?_) (fun _ t ht => ht.2.2))
  rw [made_of_all fails ht.1]
  exact ht.2.2

/-- A program returns exactly when all of its calls take effect. -/
theorem ok_iff_sent {x : Prog (Remote S) ε PUnit} {l : List C}
    (h : Takes (AllSent apply fails) (CutSent apply fails) x l) (s : Remote S) :
    (∃ a, (Prog.exec x s).1 = .ok a) ↔ sent fails s.calls l = l := by
  have hwp := h s
  unfold wp at hwp
  split at hwp
  · next a t hexec =>
    rw [hexec]
    exact ⟨fun _ => hwp.1, fun _ => ⟨a, rfl⟩⟩
  · next e t hexec =>
    rw [hexec]
    exact ⟨fun hok => hok.elim fun a ha => (by cases ha), fun heq => absurd heq hwp.1⟩

/-! ### Programs in a row -/

/-- The calls that take effect when the lists are made one behind the other, from the `n`-th
call on, each up to its first failure. -/
def sentAll (n : Nat) : List (List C) → List C
  | [] => []
  | l :: ls => sent fails n l ++ sentAll (n + made fails n l) ls

/-- How many calls are made then. -/
def madeAll (n : Nat) : List (List C) → Nat
  | [] => 0
  | l :: ls => made fails n l + madeAll (n + made fails n l) ls

theorem madeAll_concat (n : Nat) (ls : List (List C)) (l : List C) :
    madeAll fails n (ls ++ [l]) = madeAll fails n ls + made fails (n + madeAll fails n ls) l := by
  induction ls generalizing n with
  | nil => simp [madeAll]
  | cons m ls ih => rw [List.cons_append, madeAll, madeAll, ih, ← Nat.add_assoc, Nat.add_assoc n]

theorem sentAll_concat (n : Nat) (ls : List (List C)) (l : List C) :
    sentAll fails n (ls ++ [l]) =
      sentAll fails n ls ++ sent fails (n + madeAll fails n ls) l := by
  induction ls generalizing n with
  | nil => simp [sentAll, madeAll]
  | cons m ls ih =>
    rw [List.cons_append, sentAll, sentAll, ih, madeAll, Nat.add_assoc n, List.append_assoc]

/-- A loop that makes one call for each item. -/
theorem takes_forM_call {ι : Type} {R F : Remote S → Remote S → List C → Prop} (hR : Script R F)
    (hcall : ∀ c, Takes R F (call apply fails c) [c]) (f : ι → C) (items : List ι) :
    Takes R F (items.forM fun i => call apply fails (f i)) (items.map f) := by
  have hloop := Takes.forM hR items fun i _ => hcall (f i)
  rwa [show (items.flatMap fun i => [f i]) = items.map f from
    List.flatMap_pure_eq_map f items] at hloop

end Program
