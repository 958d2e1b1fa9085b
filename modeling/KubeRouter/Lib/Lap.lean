/-
  Scans of a sequence that stop where their first value comes again.

  A scan starts at a position, passes the values that are taken and stops at the first one that
  is not, or where the value it started from comes again. The next scan starts where the last
  one stopped. A scan that comes back has seen every value of the sequence only if the values
  come again in step.

  Proved:
  * `complete_iff_of_wrapped`: a scan is complete exactly when coming back means that every
    value is taken.
  * `complete_iff_even`: every scan that a run of scans can make is complete exactly when all
    values come again after the same number of places, and not before.
-/
import Mathlib.Data.Nat.Find
import Mathlib.Data.Nat.ModEq
import Mathlib.Data.Nat.Periodic
import Mathlib.Data.Finset.Card
import Mathlib.Order.Interval.Finset.Nat

namespace Lap

variable {α : Type} {s : Nat → α} {taken : List α} {p q : Nat}

/-! ## One scan -/

/-- From `p` to `q` the value at `p` does not come again. -/
structure Ahead (s : Nat → α) (p q : Nat) : Prop where
  le : p ≤ q
  fresh : ∀ i, p < i → i ≤ q → s i ≠ s p

/-- At `q` the value at `p` comes again for the first time. -/
structure Returns (s : Nat → α) (p q : Nat) : Prop where
  lt : p < q
  again : s q = s p
  fresh : ∀ i, p < i → i < q → s i ≠ s p

/-- The scan from `p` stops at a value that is not taken. -/
structure Found (s : Nat → α) (taken : List α) (p q : Nat) : Prop where
  ahead : Ahead s p q
  passed : ∀ i, p ≤ i → i < q → s i ∈ taken
  free : s q ∉ taken

/-- The scan from `p` comes back. -/
structure Wrapped (s : Nat → α) (taken : List α) (p q : Nat) : Prop where
  returns : Returns s p q
  passed : ∀ i, p ≤ i → i < q → s i ∈ taken

theorem Found.congr {taken' : List α} (h : Found s taken p q)
    (hmem : ∀ i, s i ∈ taken ↔ s i ∈ taken') : Found s taken' p q :=
  ⟨h.ahead, fun i hpi hiq => (hmem i).mp (h.passed i hpi hiq), fun hq => h.free ((hmem q).mpr hq)⟩

theorem Wrapped.congr {taken' : List α} (h : Wrapped s taken p q)
    (hmem : ∀ i, s i ∈ taken ↔ s i ∈ taken') : Wrapped s taken' p q :=
  ⟨h.returns, fun i hpi hiq => (hmem i).mp (h.passed i hpi hiq)⟩

/-- The values from `p` up to, and without, the one at `q`. -/
def passed (s : Nat → α) (p q : Nat) : List α := (List.range' p (q - p)).map s

theorem mem_passed {x : α} : x ∈ passed s p q ↔ ∃ i, p ≤ i ∧ i < q ∧ s i = x := by
  unfold passed
  rw [List.mem_map]
  constructor
  · rintro ⟨i, hi, rfl⟩
    obtain ⟨hle, hlt⟩ := List.mem_range'_1.mp hi
    exact ⟨i, hle, by omega, rfl⟩
  · rintro ⟨i, hpi, hiq, rfl⟩
    exact ⟨i, List.mem_range'_1.mpr ⟨hpi, by omega⟩, rfl⟩

theorem exists_returns (h : ∃ i, p < i ∧ s i = s p) : ∃ q, Returns s p q := by
  classical
  refine ⟨Nat.find h, (Nat.find_spec h).1, (Nat.find_spec h).2, ?_⟩
  intro i hlt hi heq
  exact Nat.find_min h hi ⟨hlt, heq⟩

namespace Returns

theorem ahead_iff (h : Returns s p q) {i : Nat} : Ahead s p i ↔ p ≤ i ∧ i < q := by
  constructor
  · intro hi
    refine ⟨hi.le, Nat.lt_of_not_le fun hqi => ?_⟩
    exact hi.fresh q h.lt hqi h.again
  · rintro ⟨hle, hlt⟩
    exact ⟨hle, fun j hpj hji => h.fresh j hpj (Nat.lt_of_le_of_lt hji hlt)⟩

/-- Every scan stops, at the latest where it comes back. -/
theorem stops (h : Returns s p q) (taken : List α) :
    (∃ i ≤ q, Found s taken p i) ∨ Wrapped s taken p q := by
  classical
  by_cases hfree : ∃ i, p ≤ i ∧ i < q ∧ s i ∉ taken
  · left
    obtain ⟨hle, hlt, hspec⟩ := Nat.find_spec hfree
    refine ⟨Nat.find hfree, Nat.le_of_lt hlt, h.ahead_iff.mpr ⟨hle, hlt⟩, ?_, hspec⟩
    intro i hpi hi
    by_contra hni
    exact Nat.find_min hfree hi ⟨hpi, Nat.lt_trans hi hlt, hni⟩
  · right
    refine ⟨h, fun i hpi hi => ?_⟩
    by_contra hni
    exact hfree ⟨i, hpi, hi, hni⟩

end Returns

/-! ## Complete scans -/

/-- Every value of the sequence lies between `p` and where its value comes again. -/
def Complete (s : Nat → α) (p : Nat) : Prop := ∀ t, ∃ q, Ahead s p q ∧ s q = s t

theorem complete_iff_of_wrapped (hret : Returns s p q) :
    Complete s p ↔ ∀ taken, Wrapped s taken p q → ∀ t, s t ∈ taken := by
  constructor
  · intro hc taken hw t
    obtain ⟨i, hi, heq⟩ := hc t
    obtain ⟨hle, hlt⟩ := hret.ahead_iff.mp hi
    rw [← heq]
    exact hw.passed i hle hlt
  · intro h t
    have hw : Wrapped s (passed s p q) p q :=
      ⟨hret, fun i hpi hiq => mem_passed.mpr ⟨i, hpi, hiq, rfl⟩⟩
    obtain ⟨i, hpi, hiq, heq⟩ := mem_passed.mp (h _ hw t)
    exact ⟨i, hret.ahead_iff.mpr ⟨hpi, hiq⟩, heq⟩

/-! ## Runs of scans -/

/-- Positions where a run of scans can stand. -/
inductive Reach (s : Nat → α) : Nat → Prop
  | start : Reach s 0
  | found {taken : List α} {p q : Nat} (hp : Reach s p) (h : Found s taken p q) : Reach s q
  | wrapped {taken : List α} {p q : Nat} (hp : Reach s p) (h : Wrapped s taken p q) : Reach s q

/-- All values come again after the same number of places, and not before. -/
def Even (s : Nat → α) : Prop := ∃ m, 0 < m ∧ ∀ i j, s i = s j ↔ i % m = j % m

theorem Even.complete (h : Even s) (p : Nat) : Complete s p := by
  obtain ⟨m, hm, hstep⟩ := h
  intro t
  have hmod : (p + (t + m - p % m) % m) % m = t % m := by
    have hp := Nat.mod_lt p hm
    rw [Nat.add_mod_mod, ← Nat.mod_add_mod]
    rw [show p % m + (t + m - p % m) = t + m by omega, Nat.add_mod_right]
  have hoff : (t + m - p % m) % m < m := Nat.mod_lt _ hm
  refine ⟨p + (t + m - p % m) % m, ⟨Nat.le_add_right _ _, ?_⟩, (hstep _ _).mpr hmod⟩
  intro i hpi hi heq
  have hdvd : m ∣ i - p := (Nat.modEq_iff_dvd' (Nat.le_of_lt hpi)).mp ((hstep i p).mp heq).symm
  have := Nat.le_of_dvd (by omega) hdvd
  omega

/-- A value passed for the first time is one a scan can stop at. -/
theorem Reach.of_ahead (hp : Reach s p) (ha : Ahead s p q)
    (hfirst : ∀ i, p ≤ i → i < q → s i ≠ s q) : Reach s q := by
  have hstop : Found s (passed s p q) p q := by
    refine ⟨ha, fun i hpi hiq => mem_passed.mpr ⟨i, hpi, hiq, rfl⟩, fun hmem => ?_⟩
    obtain ⟨i, hpi, hiq, heq⟩ := mem_passed.mp hmem
    exact hfirst i hpi hiq heq
  exact hp.found hstop

/-- Where all scans are complete, no value comes twice before a scan comes back: a scan that
starts at the first of the two would stop at the second, short of the value at `p`. -/
theorem injOn_of_complete (hall : ∀ p, Reach s p → Complete s p) (hp : Reach s p)
    (hret : Returns s p q) {i j : Nat} (hpi : p ≤ i) (hij : i < j) (hjq : j < q) :
    s i ≠ s j := by
  classical
  intro heq
  have hex : ∃ i, p ≤ i ∧ ∃ j, i < j ∧ j < q ∧ s i = s j := ⟨i, hpi, j, hij, hjq, heq⟩
  obtain ⟨hle, k, hk, hkq, hk_eq⟩ := Nat.find_spec hex
  have hfirst : ∀ i', p ≤ i' → i' < Nat.find hex → s i' ≠ s (Nat.find hex) := by
    intro i' hpi' hlt heq'
    exact Nat.find_min hex hlt ⟨hpi', Nat.find hex, hlt, by omega, heq'⟩
  have hne : Nat.find hex ≠ p := by
    intro hfind
    rw [hfind] at hk hk_eq
    exact hret.fresh k hk hkq hk_eq.symm
  have hreach : Reach s (Nat.find hex) :=
    hp.of_ahead (hret.ahead_iff.mpr ⟨hle, by omega⟩) hfirst
  obtain ⟨t, ht, ht_eq⟩ := hall _ hreach p
  have htq : q ≤ t := by
    apply Nat.le_of_not_lt
    intro htq
    have := ht.le
    exact hret.fresh t (by omega) htq ht_eq
  exact ht.fresh k hk (by omega) hk_eq.symm

/-- Where all scans are complete, each takes as many places as there are values. -/
theorem returns_length (hall : ∀ p, Reach s p → Complete s p) {p q p' q' : Nat}
    (hp : Reach s p) (hq : Returns s p q) (hp' : Reach s p') (hq' : Returns s p' q') :
    q - p ≤ q' - p' := by
  classical
  have hsub : (Finset.Ico p q).image s ⊆ (Finset.Ico p' q').image s := by
    intro x hx
    obtain ⟨i, hi, rfl⟩ := Finset.mem_image.mp hx
    obtain ⟨j, hj, heq⟩ := hall p' hp' i
    exact Finset.mem_image.mpr ⟨j, Finset.mem_Ico.mpr (hq'.ahead_iff.mp hj), heq⟩
  have hinj : Set.InjOn s (Finset.Ico p q) := by
    intro i hi j hj heq
    obtain ⟨hpi, hiq⟩ := Finset.mem_Ico.mp (Finset.mem_coe.mp hi)
    obtain ⟨hpj, hjq⟩ := Finset.mem_Ico.mp (Finset.mem_coe.mp hj)
    rcases Nat.lt_trichotomy i j with hij | rfl | hji
    · exact absurd heq (injOn_of_complete hall hp hq hpi hij hjq)
    · rfl
    · exact absurd heq.symm (injOn_of_complete hall hp hq hpj hji hiq)
  calc q - p = (Finset.Ico p q).card := (Nat.card_Ico p q).symm
    _ = ((Finset.Ico p q).image s).card := (Finset.card_image_of_injOn hinj).symm
    _ ≤ ((Finset.Ico p' q').image s).card := Finset.card_le_card hsub
    _ ≤ (Finset.Ico p' q').card := Finset.card_image_le
    _ = q' - p' := Nat.card_Ico p' q'

theorem reach_all (hrec : ∀ p, ∃ q, Returns s p q) (hall : ∀ p, Reach s p → Complete s p)
    (p : Nat) : Reach s p := by
  induction p with
  | zero => exact .start
  | succ p ih =>
    obtain ⟨q, hq⟩ := hrec p
    have hlt := hq.lt
    by_cases hlast : p + 1 = q
    · -- the value at `p` comes again at once
      subst hlast
      have hw : Wrapped s (passed s p (p + 1)) p (p + 1) :=
        ⟨hq, fun i hpi hi => mem_passed.mpr ⟨i, hpi, hi, rfl⟩⟩
      exact ih.wrapped hw
    · refine ih.of_ahead (hq.ahead_iff.mpr ⟨by omega, by omega⟩) fun i hpi hi => ?_
      exact injOn_of_complete hall ih hq hpi hi (by omega)

theorem even_of_complete (hrec : ∀ p, ∃ q, Returns s p q)
    (hall : ∀ p, Reach s p → Complete s p) : Even s := by
  have hreach := reach_all hrec hall
  obtain ⟨m, hm⟩ := hrec 0
  have hret : ∀ p, Returns s p (p + m) := by
    intro p
    obtain ⟨q, hq⟩ := hrec p
    have h₁ := returns_length hall (hreach p) hq (hreach 0) hm
    have h₂ := returns_length hall (hreach 0) hm (hreach p) hq
    have hlt := hq.lt
    rwa [show p + m = q by omega]
  have hpos := hm.lt
  have hperiod : ∀ p, s (p + m) = s p := fun p => (hret p).again
  have hmod : ∀ i, s (i % m) = s i := Function.Periodic.map_mod_nat hperiod
  refine ⟨m, hpos, fun i j => ⟨fun heq => ?_, fun heq => ?_⟩⟩
  · rw [← hmod i, ← hmod j] at heq
    have hi := Nat.mod_lt i hpos
    have hj := Nat.mod_lt j hpos
    rcases Nat.lt_trichotomy (i % m) (j % m) with hlt | he | hlt
    · exact absurd heq (injOn_of_complete hall .start hm (Nat.zero_le _) hlt hj)
    · exact he
    · exact absurd heq.symm (injOn_of_complete hall .start hm (Nat.zero_le _) hlt hi)
  · rw [← hmod i, ← hmod j, heq]

theorem complete_iff_even (hrec : ∀ p, ∃ q, Returns s p q) :
    (∀ p, Reach s p → Complete s p) ↔ Even s :=
  ⟨even_of_complete hrec, fun h p _ => h.complete p⟩

end Lap
