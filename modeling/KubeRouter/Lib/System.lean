/-
  Step systems: a state, actions, and a partial step function that refuses an action which is
  not possible in a state. A run is a list of actions.

  `Meets step C s as` says that every action of the run `as` from `s` is taken in a state that
  satisfies the condition `C` for it.

  Proved:
  * `run_concat`: one action more.
  * `forall_prefix_concat`: what holds of every action of a longer run.
  * `run_invariant`: what holds at the start and is kept by every step that meets the condition
    holds at the end of every run whose steps all meet it.
  * `run_history`: the same for what also depends on the actions so far.
-/
import Mathlib.Data.List.Basic

namespace System

variable {S A : Type} (step : S → A → Option S)

def run (s : S) : List A → Option S
  | [] => some s
  | a :: as => (step s a).bind fun t => run t as

def Meets (C : S → A → Prop) (s : S) (as : List A) : Prop :=
  ∀ before a t, before ++ [a] <+: as → run step s before = some t → C t a

variable {step}

theorem run_concat (s : S) (as : List A) (a : A) :
    run step s (as ++ [a]) = (run step s as).bind fun t => step t a := by
  induction as generalizing s with
  | nil =>
    show (step s a).bind some = step s a
    cases step s a <;> rfl
  | cons b as ih =>
    show (step s b).bind (fun t => run step t (as ++ [a])) = _
    simp only [ih]
    exact (Option.bind_assoc (step s b) (fun t => run step t as) fun t => step t a).symm

theorem Meets.head {C : S → A → Prop} {s : S} {a : A} {as : List A}
    (h : Meets step C s (a :: as)) : C s a :=
  h [] a s (List.prefix_append [a] as) rfl

theorem Meets.tail {C : S → A → Prop} {s t : S} {a : A} {as : List A}
    (h : Meets step C s (a :: as)) (ht : step s a = some t) : Meets step C t as := by
  intro before b u hpre hrun
  refine h (a :: before) b u ?_ ?_
  · exact List.cons_prefix_cons.mpr ⟨rfl, hpre⟩
  · show (step s a).bind (fun t => run step t before) = some u
    rw [ht]
    exact hrun

theorem meets_cons {C : S → A → Prop} {s : S} {a : A} {as : List A} :
    Meets step C s (a :: as) ↔ C s a ∧ ∀ t, step s a = some t → Meets step C t as := by
  constructor
  · intro h
    exact ⟨h.head, fun t ht => h.tail ht⟩
  · intro ⟨hC, htail⟩ before b u hpre hrun
    cases before with
    | nil =>
      cases hrun
      obtain ⟨rfl, _⟩ := List.cons_prefix_cons.mp hpre
      exact hC
    | cons c before =>
      obtain ⟨rfl, hrest⟩ := List.cons_prefix_cons.mp hpre
      obtain ⟨t, ht, hrun⟩ := Option.bind_eq_some_iff.mp hrun
      exact htail t ht before b u hrest hrun

/-- A decidable condition can be checked along a run. -/
instance decidableMeets {C : S → A → Prop} [∀ s a, Decidable (C s a)] :
    ∀ (s : S) (as : List A), Decidable (Meets step C s as)
  | _, [] => isTrue fun before a t hpre _ => by simp at hpre
  | s, a :: as =>
    have : Decidable (∀ t, step s a = some t → Meets step C t as) :=
      match h : step s a with
      | none => isTrue fun t ht => by cases ht
      | some u =>
        have := decidableMeets (C := C) u as
        decidable_of_iff (Meets step C u as) ⟨fun hu t ht => by cases ht; exact hu,
          fun hall => hall u rfl⟩
    decidable_of_iff _ meets_cons.symm

/-- The actions of a run with one more action, each with the actions in front of it. -/
theorem forall_prefix_concat {P : List A → A → Prop} {as : List A} {a : A} :
    (∀ before b, before ++ [b] <+: as ++ [a] → P before b) ↔
      (∀ before b, before ++ [b] <+: as → P before b) ∧ P as a := by
  constructor
  · intro h
    exact ⟨fun before b hpre => h before b (hpre.trans (List.prefix_append _ _)),
      h as a List.prefix_rfl⟩
  · intro ⟨h, hP⟩ before b hpre
    obtain heq | hpre := List.prefix_concat_iff.mp hpre
    · obtain ⟨rfl, hb⟩ := List.append_inj' heq rfl
      cases hb
      exact hP
    · exact h before b hpre

/-- The invariant rule. -/
theorem run_invariant {I : S → Prop} {C : S → A → Prop}
    (keep : ∀ s a t, I s → C s a → step s a = some t → I t) {s t : S} {as : List A}
    (h0 : I s) (hC : Meets step C s as) (hrun : run step s as = some t) : I t := by
  induction as generalizing s with
  | nil =>
    cases hrun
    exact h0
  | cons a as ih =>
    obtain ⟨u, hu, hrest⟩ := Option.bind_eq_some_iff.mp hrun
    exact ih (keep s a u h0 hC.head hu) (hC.tail hu) hrest

/-- The invariant rule, for an invariant that also speaks of the actions so far. -/
theorem run_history {I : List A → S → Prop} {C : S → A → Prop}
    (keep : ∀ before s a t, I before s → C s a → step s a = some t → I (before ++ [a]) t)
    {before as : List A} {s t : S} (h0 : I before s) (hC : Meets step C s as)
    (hrun : run step s as = some t) : I (before ++ as) t := by
  induction as generalizing before s with
  | nil =>
    cases hrun
    rwa [List.append_nil]
  | cons a as ih =>
    obtain ⟨u, hu, hrest⟩ := Option.bind_eq_some_iff.mp hrun
    have hlater := ih (keep before s a u h0 hC.head hu) (hC.tail hu) hrest
    rwa [List.append_assoc] at hlater

end System
