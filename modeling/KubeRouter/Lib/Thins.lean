/-
  Lists with elements left out.

  `Thins P l l'` says that `l'` is `l` without some elements, all of which satisfy `P`.

  Proved:
  * `Thins.mem`, `Thins.mem_or`: the shorter list holds elements of the longer one, and all it
    lacks satisfies `P`.
  * `Thins.filter_eq`, `Thins.filter_flatMap_eq`: what the elements left out add nothing to is
    the same for both lists.
  * `Thins.of_filterMap`: leaving out before a `filterMap` thins its result.
-/
import Mathlib.Data.List.Basic

/-- `l'` is `l` without some elements, all of which satisfy `P`. -/
inductive Thins {α : Type} (P : α → Prop) : List α → List α → Prop
  | nil : Thins P [] []
  | keep (a : α) {l l' : List α} (h : Thins P l l') : Thins P (a :: l) (a :: l')
  | drop (a : α) {l l' : List α} (ha : P a) (h : Thins P l l') : Thins P (a :: l) l'

namespace Thins

variable {α β : Type} {P : α → Prop} {l l' : List α}

theorem mem (h : Thins P l l') {a : α} (ha : a ∈ l') : a ∈ l := by
  induction h with
  | nil => exact ha
  | keep b h ih => exact List.mem_cons.mpr ((List.mem_cons.mp ha).imp id ih)
  | drop b hb h ih => exact List.mem_cons_of_mem b (ih ha)

theorem mem_or (h : Thins P l l') {a : α} (ha : a ∈ l) : a ∈ l' ∨ P a := by
  induction h with
  | nil => exact Or.inl ha
  | keep b h ih =>
    rcases List.mem_cons.mp ha with rfl | ha
    · exact Or.inl List.mem_cons_self
    · exact (ih ha).imp (List.mem_cons_of_mem b) id
  | drop b hb h ih =>
    rcases List.mem_cons.mp ha with rfl | ha
    · exact Or.inr hb
    · exact ih ha

/-- A filter that rejects what is left out. -/
theorem filter_eq (h : Thins P l l') {p : α → Bool} (hp : ∀ a, P a → p a = false) :
    l.filter p = l'.filter p := by
  induction h with
  | nil => rfl
  | keep a h ih => rw [List.filter_cons, List.filter_cons, ih]
  | drop a ha h ih => rw [List.filter_cons_of_neg (by simp [hp a ha]), ih]

/-- A filtered `flatMap` to which what is left out adds nothing. -/
theorem filter_flatMap_eq (h : Thins P l l') {p : α → Bool} {g : α → List β}
    (hg : ∀ a, P a → p a = true → g a = []) : (l.filter p).flatMap g = (l'.filter p).flatMap g := by
  induction h with
  | nil => rfl
  | keep a h ih =>
    rw [List.filter_cons, List.filter_cons]
    split
    · rw [List.flatMap_cons, List.flatMap_cons, ih]
    · exact ih
  | drop a ha h ih =>
    rw [List.filter_cons]
    split
    · rename_i hpa
      rw [List.flatMap_cons, hg a ha hpa, List.nil_append, ih]
    · exact ih

theorem of_filterMap {γ : Type} {f : γ → Option α} {keep : γ → Bool} (xs : List γ)
    (hP : ∀ x ∈ xs, keep x = false → ∀ a, f x = some a → P a) :
    Thins P (xs.filterMap f) ((xs.filter keep).filterMap f) := by
  induction xs with
  | nil => exact .nil
  | cons x xs ih =>
    have hrest := ih fun y hy => hP y (List.mem_cons_of_mem _ hy)
    cases hf : f x with
    | none =>
      rw [List.filterMap_cons_none hf]
      cases hk : keep x with
      | true => rwa [List.filter_cons_of_pos hk, List.filterMap_cons_none hf]
      | false => rwa [List.filter_cons_of_neg (by simp [hk])]
    | some a =>
      rw [List.filterMap_cons_some hf]
      cases hk : keep x with
      | true =>
        rw [List.filter_cons_of_pos hk, List.filterMap_cons_some hf]
        exact .keep a hrest
      | false =>
        rw [List.filter_cons_of_neg (by simp [hk])]
        exact .drop a (hP x List.mem_cons_self hk a hf) hrest

end Thins
