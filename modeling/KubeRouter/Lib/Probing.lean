/-
  Open addressing with a probe sequence for each key.

  A slot holds at most one key. A search for a key walks the key's probe sequence and stops at
  the first slot that is free or holds the key, within a limit. A table is `Rooted` when every
  key is found in the slots that hold it: this is what lets a second insertion of a key find the
  first one.

  Proved:
  * `search_eq_some_iff`: where a search stops.
  * `Rooted.unique`: in a rooted table no key has two slots.
  * `Rooted.insert`: inserting a key where its search stops keeps a table rooted.
  * `Rooted.remove_iff`: emptying a slot keeps a table rooted exactly when no other key's
    sequence visits that slot in front of its own.
-/
import Mathlib.Logic.Function.Basic
import Mathlib.Data.List.Basic

namespace Probing

variable {K M : Type} [DecidableEq K] [DecidableEq M]

/-- The slot holds another key. -/
def blocked (t : M → Option K) (k : K) (m : M) : Bool :=
  match t m with
  | some k' => decide (k' ≠ k)
  | none => false

/-- The first slot from probe `i` on that is not blocked, within `tries` probes. -/
def search (probe : K → Nat → M) (t : M → Option K) (k : K) : Nat → Nat → Option M
  | 0, _ => none
  | tries + 1, i =>
    if blocked t k (probe k i) then search probe t k tries (i + 1) else some (probe k i)

variable {probe : K → Nat → M} {t : M → Option K} {k : K} {m : M}

omit [DecidableEq M] in
theorem blocked_of_eq {k' : K} (h : t m = some k') (hne : k' ≠ k) : blocked t k m = true := by
  unfold blocked
  rw [h]
  simpa using hne

omit [DecidableEq M] in
theorem blocked_own (h : t m = some k) : blocked t k m = false := by
  unfold blocked
  rw [h]
  simp

omit [DecidableEq M] in
theorem blocked_iff : blocked t k m = true ↔ ∃ k', t m = some k' ∧ k' ≠ k := by
  unfold blocked
  cases t m with
  | none => simp
  | some k' => simp

omit [DecidableEq M] in
theorem search_eq_some_iff (tries i : Nat) :
    search probe t k tries i = some m ↔ ∃ j, i ≤ j ∧ j < i + tries ∧ probe k j = m ∧
      blocked t k m = false ∧ ∀ l, i ≤ l → l < j → blocked t k (probe k l) = true := by
  induction tries generalizing i with
  | zero =>
    constructor
    · intro h
      cases h
    · intro ⟨j, hij, hj, _⟩
      omega
  | succ tries ih =>
    unfold search
    by_cases hblocked : blocked t k (probe k i) = true
    · rw [if_pos hblocked, ih]
      constructor
      · intro ⟨j, hij, hj, hm, hfree, hbefore⟩
        refine ⟨j, by omega, by omega, hm, hfree, fun l hl hlj => ?_⟩
        by_cases hli : l = i
        · rw [hli]
          exact hblocked
        · exact hbefore l (by omega) hlj
      · intro ⟨j, hij, hj, hm, hfree, hbefore⟩
        have hne : j ≠ i := by
          intro heq
          rw [heq] at hm
          rw [hm, hfree] at hblocked
          cases hblocked
        exact ⟨j, by omega, by omega, hm, hfree, fun l hl hlj => hbefore l (by omega) hlj⟩
    · rw [if_neg hblocked]
      constructor
      · intro h
        cases h
        exact ⟨i, by omega, by omega, rfl, by simpa using hblocked, fun l hl hlj => by omega⟩
      · intro ⟨j, hij, hj, hm, _, hbefore⟩
        have hji : j = i := by
          by_contra hne
          exact hblocked (hbefore i (Nat.le_refl i) (by omega))
        rw [← hm, hji]

/-- Every key is found in each slot that holds it. -/
def Rooted (probe : K → Nat → M) (limit : Nat) (t : M → Option K) : Prop :=
  ∀ m k, t m = some k → search probe t k limit 0 = some m

variable {limit : Nat}

omit [DecidableEq M] in
theorem Rooted.unique (h : Rooted probe limit t) {m m' : M} (hm : t m = some k)
    (hm' : t m' = some k) : m = m' :=
  Option.some.inj ((h m k hm).symm.trans (h m' k hm'))

theorem Rooted.insert (h : Rooted probe limit t) (hm : search probe t k limit 0 = some m) :
    Rooted probe limit (Function.update t m (some k)) := by
  obtain ⟨j, _, hj, hprobe, hfree, hbefore⟩ := (search_eq_some_iff limit 0).mp hm
  -- a slot that was blocked for a key stays blocked for it
  have hkept : ∀ k₁ m₁, blocked t k₁ m₁ = true →
      blocked (Function.update t m (some k)) k₁ m₁ = true := by
    intro k₁ m₁ hb
    obtain ⟨k', hk', hne⟩ := blocked_iff.mp hb
    by_cases heq : m₁ = m
    · subst heq
      have hk : k' = k := by
        by_contra hkk
        rw [blocked_of_eq hk' hkk] at hfree
        cases hfree
      exact blocked_of_eq (Function.update_self ..) (hk ▸ hne)
    · exact blocked_of_eq ((Function.update_of_ne heq _ _).trans hk') hne
  intro m₁ k₁ hm₁
  by_cases heq : m₁ = m
  · subst heq
    rw [Function.update_self] at hm₁
    cases hm₁
    refine (search_eq_some_iff limit 0).mpr ⟨j, Nat.zero_le j, hj, hprobe, ?_, ?_⟩
    · exact blocked_own (Function.update_self ..)
    · intro l hl hlj
      exact hkept k _ (hbefore l hl hlj)
  · have hold : t m₁ = some k₁ := (Function.update_of_ne heq _ _).symm.trans hm₁
    obtain ⟨j₁, _, hj₁, hprobe₁, _, hbefore₁⟩ := (search_eq_some_iff limit 0).mp (h m₁ k₁ hold)
    refine (search_eq_some_iff limit 0).mpr ⟨j₁, Nat.zero_le j₁, hj₁, hprobe₁, blocked_own hm₁, ?_⟩
    intro l hl hlj
    exact hkept k₁ _ (hbefore₁ l hl hlj)

/-- No key held in another slot visits the slot `m` in front of its own. -/
def Unvisited (probe : K → Nat → M) (limit : Nat) (t : M → Option K) (m : M) : Prop :=
  ∀ m₁ k₁, t m₁ = some k₁ → m₁ ≠ m →
    ∀ l < limit, probe k₁ l = m → ∃ l' < l, probe k₁ l' = m₁

theorem Rooted.remove_iff (h : Rooted probe limit t) (m : M) :
    Rooted probe limit (Function.update t m none) ↔ Unvisited probe limit t m := by
  have hslot : ∀ k₁ m₁, m₁ ≠ m → blocked (Function.update t m none) k₁ m₁ = blocked t k₁ m₁ := by
    intro k₁ m₁ hne
    unfold blocked
    rw [Function.update_of_ne hne]
  have hempty : ∀ k₁, blocked (Function.update t m none) k₁ m = false := by
    intro k₁
    unfold blocked
    rw [Function.update_self]
  constructor
  · intro h' m₁ k₁ hm₁ hne l hl hprobe
    have hfound := h' m₁ k₁ ((Function.update_of_ne hne _ _).trans hm₁)
    obtain ⟨j, _, _, hj, _, hbefore⟩ := (search_eq_some_iff limit 0).mp hfound
    refine ⟨j, ?_, hj⟩
    -- the search stops in front of the emptied slot
    by_contra hjl
    obtain heq | hlt : l = j ∨ l < j := by omega
    · rw [heq, hj] at hprobe
      exact hne hprobe
    · have hb := hbefore l (Nat.zero_le l) hlt
      rw [hprobe, hempty] at hb
      cases hb
  · intro hun m₁ k₁ hm₁
    have hne : m₁ ≠ m := by
      intro heq
      rw [heq, Function.update_self] at hm₁
      cases hm₁
    have hold : t m₁ = some k₁ := (Function.update_of_ne hne _ _).symm.trans hm₁
    obtain ⟨j, _, hj, hprobe, hfree, hbefore⟩ := (search_eq_some_iff limit 0).mp (h m₁ k₁ hold)
    refine (search_eq_some_iff limit 0).mpr ⟨j, Nat.zero_le j, hj, hprobe, blocked_own hm₁, ?_⟩
    intro l hl hlj
    have hlm : probe k₁ l ≠ m := by
      intro heq
      obtain ⟨l', hl', hl'm⟩ := hun m₁ k₁ hold hne l (by omega) heq
      have hb := hbefore l' (Nat.zero_le l') (by omega)
      rw [hl'm, hfree] at hb
      cases hb
    rw [hslot k₁ _ hlm]
    exact hbefore l hl hlj

end Probing
