/-
  Walks through blocks of places, block after block, and back to the first one.

  The blocks have the lengths of a list. `place lens i o` is the number of steps to the `o`-th
  place of the `i`-th block. `Tours f pos lens` says that `f` goes from each place to the one behind
  it, from the last place of a block to the first of the next, and from the last block to the first.

  Proved:
  * `exists_place`: every step of a lap is at a place of a block.
  * `place_lt_iff`: places are met block by block, and in order within a block.
  * `Tours.iterate`, `Tours.back`: where the walk is after any number of steps of a lap, and that it
    is back at its start after all of them.
-/
import Mathlib.Algebra.GroupWithZero.Nat
import Mathlib.Algebra.Order.BigOperators.Group.List
import Mathlib.Dynamics.PeriodicPts.Defs

namespace Blocks

variable {lens : List Nat} {i j o o' len len' : Nat}

/-! ## Places -/

/-- Steps to the `o`-th place of the `i`-th block. -/
def place (lens : List Nat) (i o : Nat) : Nat := (lens.take i).sum + o

theorem place_succ (h : lens[i]? = some len) : place lens (i + 1) 0 = place lens i len := by
  obtain ⟨hi, hlen⟩ := List.getElem?_eq_some_iff.mp h
  unfold place
  rw [List.sum_take_succ lens i hi, hlen, Nat.add_zero]

/-- A later block starts behind the last place of an earlier one. -/
theorem place_le_of_lt (h : lens[i]? = some len) (hij : i < j) :
    place lens i len ≤ place lens j 0 := by
  rw [← place_succ h]
  unfold place
  exact Nat.add_le_add_right (List.Sublist.sum_le_sum
    (List.take_sublist_take_left (Nat.succ_le_of_lt hij)) fun _ _ => Nat.zero_le _) 0

theorem place_lt_iff (h : lens[i]? = some len) (ho : o < len) (h' : lens[j]? = some len')
    (ho' : o' < len') : place lens i o < place lens j o' ↔ i < j ∨ i = j ∧ o < o' := by
  rcases Nat.lt_trichotomy i j with hij | rfl | hji
  · have hle := place_le_of_lt h hij
    unfold place at hle ⊢
    omega
  · unfold place
    omega
  · have hle := place_le_of_lt h' hji
    unfold place at hle ⊢
    omega

theorem place_lt_sum (h : lens[i]? = some len) (ho : o < len) : place lens i o < lens.sum := by
  obtain ⟨hi, -⟩ := List.getElem?_eq_some_iff.mp h
  have hle := place_le_of_lt h hi
  unfold place at hle ⊢
  rw [List.take_length] at hle
  omega

theorem exists_place {k : Nat} (hk : k < lens.sum) :
    ∃ i len o, lens[i]? = some len ∧ o < len ∧ k = place lens i o := by
  induction lens generalizing k with
  | nil => exact absurd hk (Nat.not_lt_zero k)
  | cons len lens ih =>
    by_cases hfirst : k < len
    · exact ⟨0, len, k, rfl, hfirst, (Nat.zero_add k).symm⟩
    · rw [List.sum_cons] at hk
      obtain ⟨i, len', o, hi, ho, hplace⟩ := ih (k := k - len) (by omega)
      refine ⟨i + 1, len', o, hi, ho, ?_⟩
      unfold place at hplace ⊢
      rw [List.take_succ_cons, List.sum_cons]
      omega

/-! ## Walks -/

variable {σ : Type} {f : σ → σ} {pos : Nat → Nat → σ}

/-- The block behind the `i`-th one, in a circle. -/
def next (lens : List Nat) (i : Nat) : Nat := if i + 1 < lens.length then i + 1 else 0

theorem next_lt (hi : i < lens.length) : next lens i < lens.length := by
  unfold next
  split
  · assumption
  · exact Nat.zero_lt_of_lt hi

structure Tours (f : σ → σ) (pos : Nat → Nat → σ) (lens : List Nat) : Prop where
  inside : ∀ i len, lens[i]? = some len → ∀ o, o + 1 < len → f (pos i o) = pos i (o + 1)
  leave : ∀ i len, lens[i]? = some len → ∀ o, o + 1 = len → f (pos i o) = pos (next lens i) 0

namespace Tours

theorem iterate_block (h : Tours f pos lens) (hi : lens[i]? = some len) (ho : o < len) :
    f^[o] (pos i 0) = pos i o := by
  induction o with
  | zero => rfl
  | succ o ih => rw [Function.iterate_succ_apply', ih (by omega), h.inside i len hi o ho]

theorem iterate_leave (h : Tours f pos lens) (hi : lens[i]? = some len) (hpos : 0 < len) :
    f^[len] (pos i 0) = pos (next lens i) 0 := by
  obtain ⟨o, rfl⟩ := Nat.exists_eq_add_of_le' hpos
  rw [Function.iterate_succ_apply', h.iterate_block hi (Nat.lt_succ_self o), h.leave i _ hi o rfl]

/-- All blocks in front of the `i`-th one. -/
theorem iterate_start (h : Tours f pos lens) (hpos : ∀ len ∈ lens, 0 < len) (hi : i < lens.length) :
    f^[place lens i 0] (pos 0 0) = pos i 0 := by
  induction i with
  | zero => rfl
  | succ i ih =>
    have hblock : lens[i]? = some lens[i] := List.getElem?_eq_getElem (by omega)
    have hplace : place lens (i + 1) 0 = lens[i] + place lens i 0 := by
      rw [place_succ hblock]
      unfold place
      omega
    rw [hplace, Function.iterate_add_apply, ih (by omega),
      h.iterate_leave hblock (hpos _ (List.getElem_mem _)), next, if_pos hi]

theorem iterate (h : Tours f pos lens) (hpos : ∀ len ∈ lens, 0 < len) (hi : lens[i]? = some len)
    (ho : o < len) : f^[place lens i o] (pos 0 0) = pos i o := by
  obtain ⟨hlt, -⟩ := List.getElem?_eq_some_iff.mp hi
  have hplace : place lens i o = o + place lens i 0 := by
    unfold place
    omega
  rw [hplace, Function.iterate_add_apply, h.iterate_start hpos hlt, h.iterate_block hi ho]

/-- A lap ends where it began. -/
theorem back (h : Tours f pos lens) (hpos : ∀ len ∈ lens, 0 < len) (hne : lens ≠ []) :
    Function.IsPeriodicPt f lens.sum (pos 0 0) := by
  have hlast : lens.length - 1 + 1 = lens.length :=
    Nat.succ_pred_eq_of_pos (List.length_pos_of_ne_nil hne)
  have hlt : lens.length - 1 < lens.length := by omega
  obtain ⟨len, hblock⟩ : ∃ len, lens[lens.length - 1]? = some len :=
    ⟨_, List.getElem?_eq_getElem hlt⟩
  have hsum : lens.sum = len + place lens (lens.length - 1) 0 := by
    have hplace := place_succ hblock
    unfold place at hplace ⊢
    rw [hlast, List.take_length] at hplace
    omega
  unfold Function.IsPeriodicPt Function.IsFixedPt
  rw [hsum, Function.iterate_add_apply, h.iterate_start hpos hlt,
    h.iterate_leave hblock (hpos len (List.mem_of_getElem? hblock)), next, if_neg (by omega)]

end Tours

end Blocks
