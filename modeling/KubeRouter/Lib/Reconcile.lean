/-
  Controllers that keep a record of what they did and apply the difference between it and what
  is desired.

  All four states are read one cell at a time. `Corrects before record desired after` says that
  the cells in which desired and record differ hold what is desired afterwards, and that the
  other cells were left alone.

  Proved:
  * `corrects_of_script`: a list of operations that writes exactly the cells of the difference.
  * `Corrects.exact_iff`: the result is as desired if and only if the record was true wherever
    the controller trusted it.
-/
import KubeRouter.Lib.Program

namespace Reconcile

open Program

variable {K V S Op : Type}

/-- Where `desired` and `record` differ, `after` is as desired; elsewhere it is as before. -/
structure Corrects (before record desired after : K → V) : Prop where
  changed : ∀ k, desired k ≠ record k → after k = desired k
  trusted : ∀ k, desired k = record k → after k = before k

theorem Corrects.exact_iff {before record desired after : K → V}
    (h : Corrects before record desired after) :
    (∀ k, after k = desired k) ↔ ∀ k, desired k = record k → before k = record k := by
  constructor
  · intro hexact k hk
    rw [← h.trusted k hk, hexact k, hk]
  · intro htrue k
    by_cases hk : desired k = record k
    · rw [h.trusted k hk, htrue k hk, hk]
    · exact h.changed k hk

/-- Operations whose writes are the difference. -/
theorem corrects_of_script {apply : S → Op → S} {read : K → S → V} {write : K → Op → Option V}
    (hw : ∀ k, Writes apply (read k) (write k)) {record desired : K → V} (ops : List Op) (s : S)
    (hwrites : ∀ k, ∀ op ∈ ops, ∀ v, write k op = some v → v = desired k ∧ desired k ≠ record k)
    (hall : ∀ k, desired k ≠ record k → ∃ op ∈ ops, (write k op).isSome = true) :
    Corrects (fun k => read k s) record desired (fun k => read k (ops.foldl apply s)) where
  changed k hk := read_foldl_agree (hw k) ops s (fun op hop v hv => (hwrites k op hop v hv).1)
    (Or.inr (hall k hk))
  trusted k hk := by
    refine read_foldl_untouched (hw k) ops s fun op hop => ?_
    cases hv : write k op with
    | none => rfl
    | some v => exact absurd hk (hwrites k op hop v hv).2

end Reconcile
