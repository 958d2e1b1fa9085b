/-
  Cutting lists at separators.

  A separator is an element that satisfies `p`. `trim` takes the separators off both ends,
  `once` cuts at the first one, `lastOnce` at the last one, `onceList` at the first occurrence of a
  list, and `words` keeps the non-empty parts between them.

  Proved:
  * `once_eq_some_iff`, `lastOnce_append`: where a list is cut.
  * `words_of_spaced`: the words of a list that was put together from them.
  * `splitOnP_or`: cutting at two kinds of separators is cutting twice.
  * `trimmedParts_of_trim`: a list that has no separator between its ends is one part.
  * `getElem?_flatMap_eq_some_iff`: a place in a list of lists, as the place of an element and one
    in its list.
-/
import Mathlib.Data.List.DropRight

namespace Split

variable {α : Type} {p q : α → Bool}

/-! ## Ends -/

def trim (p : α → Bool) (l : List α) : List α := (l.dropWhile p).rdropWhile p

theorem trim_eq_nil_iff {l : List α} : trim p l = [] ↔ ∀ a ∈ l, p a = true := by
  unfold trim
  rw [List.rdropWhile_eq_nil_iff]
  constructor
  · intro h
    have hnil : l.dropWhile p = [] := by
      by_contra hne
      obtain ⟨a, rest, heq⟩ := List.exists_cons_of_ne_nil hne
      have hout := List.dropWhile_get_zero_not p l (by rw [heq]; simp)
      simp only [heq, List.get_eq_getElem, List.getElem_cons_zero] at hout
      exact hout (h a (heq ▸ List.mem_cons_self))
    exact List.dropWhile_eq_nil_iff.mp hnil
  · intro h a ha
    exact h a (List.dropWhile_subset p ha)

theorem trim_eq_self {l : List α} (h : ∀ a ∈ l, p a = false) : trim p l = l := by
  have hdrop : l.dropWhile p = l := by
    cases l with
    | nil => rfl
    | cons a l => exact List.dropWhile_cons_of_neg (by simp [h a List.mem_cons_self])
  unfold trim
  rw [hdrop, List.rdropWhile_eq_self_iff]
  intro hne
  simp [h _ (List.getLast_mem hne)]

theorem trim_append_left {front : List α} (h : ∀ a ∈ front, p a = true) (l : List α) :
    trim p (front ++ l) = trim p l := by
  unfold trim
  rw [List.dropWhile_append_of_pos h]

theorem trim_append_right {back : List α} (h : ∀ a ∈ back, p a = true) (l : List α) :
    trim p (l ++ back) = trim p l := by
  have hrdrop : ∀ x : List α, (x ++ back).rdropWhile p = x.rdropWhile p := by
    intro x
    unfold List.rdropWhile
    rw [List.reverse_append, List.dropWhile_append_of_pos fun a ha => h a (List.mem_reverse.mp ha)]
  by_cases hl : ∀ a ∈ l, p a = true
  · rw [trim_eq_nil_iff.mpr hl]
    refine trim_eq_nil_iff.mpr fun a ha => ?_
    obtain ha | ha := List.mem_append.mp ha
    · exact hl a ha
    · exact h a ha
  · have hdrop : (l ++ back).dropWhile p = l.dropWhile p ++ back := by
      rw [List.dropWhile_append, if_neg]
      rw [List.isEmpty_iff, List.dropWhile_eq_nil_iff]
      exact hl
    unfold trim
    rw [hdrop, hrdrop]

/-- A list is its separators, what `trim` leaves, and separators. -/
theorem exists_trim (p : α → Bool) (l : List α) :
    ∃ front back, l = front ++ trim p l ++ back ∧ (∀ a ∈ front, p a = true) ∧
      ∀ a ∈ back, p a = true := by
  refine ⟨l.takeWhile p, (l.dropWhile p).rtakeWhile p, ?_, ?_, ?_⟩
  · unfold trim
    rw [List.append_assoc, List.rdropWhile_append_rtakeWhile, List.takeWhile_append_dropWhile]
  · exact fun a ha => List.mem_takeWhile_imp ha
  · exact fun a ha => List.mem_rtakeWhile_imp ha

theorem trim_trim (l : List α) : trim p (trim p l) = trim p l := by
  obtain ⟨front, back, hl, hfront, hback⟩ := exists_trim p l
  conv_rhs => rw [hl, List.append_assoc, trim_append_left hfront, trim_append_right hback]

/-! ## One cut -/

def once (p : α → Bool) : List α → Option (List α × List α)
  | [] => none
  | a :: l => if p a then some ([], l) else (once p l).map fun (x, y) => (a :: x, y)

def lastOnce (p : α → Bool) (l : List α) : Option (List α × List α) :=
  (once p l.reverse).map fun (x, y) => (y.reverse, x.reverse)

theorem once_append {x : List α} (hx : ∀ a ∈ x, p a = false) {c : α} (hc : p c = true)
    (y : List α) :
    once p (x ++ c :: y) = some (x, y) := by
  induction x with
  | nil => exact if_pos hc
  | cons a x ih =>
    obtain ⟨ha, hx⟩ := List.forall_mem_cons.mp hx
    rw [List.cons_append, once, if_neg (by simp [ha]), ih hx]
    rfl

theorem once_eq_none_iff {l : List α} : once p l = none ↔ ∀ a ∈ l, p a = false := by
  induction l with
  | nil => simp [once]
  | cons a l ih =>
    rw [once, List.forall_mem_cons]
    cases ha : p a with
    | true => simp
    | false => simp [ih]

theorem once_eq_some_iff {l x y : List α} :
    once p l = some (x, y) ↔ ∃ c, l = x ++ c :: y ∧ p c = true ∧ ∀ a ∈ x, p a = false := by
  constructor
  · intro h
    induction l generalizing x with
    | nil => cases h
    | cons a l ih =>
      rw [once] at h
      split at h
      · next ha =>
        cases h
        exact ⟨a, rfl, ha, by simp⟩
      · next ha =>
        obtain ⟨⟨x', y'⟩, hcut, heq⟩ := Option.map_eq_some_iff.mp h
        cases heq
        obtain ⟨c, rfl, hc, hx⟩ := ih hcut
        exact ⟨c, rfl, hc, List.forall_mem_cons.mpr ⟨by simpa using ha, hx⟩⟩
  · rintro ⟨c, rfl, hc, hx⟩
    exact once_append hx hc y

theorem lastOnce_append {y : List α} (hy : ∀ a ∈ y, p a = false) {c : α} (hc : p c = true)
    (x : List α) : lastOnce p (x ++ c :: y) = some (x, y) := by
  have hrev : (x ++ c :: y).reverse = y.reverse ++ c :: x.reverse := by simp
  unfold lastOnce
  rw [hrev, once_append (fun a ha => hy a (List.mem_reverse.mp ha)) hc]
  simp

/-- Cut at the first occurrence of a list. -/
def onceList [DecidableEq α] (sep : List α) : List α → Option (List α × List α)
  | [] => none
  | a :: l =>
    if sep <+: a :: l then some ([], (a :: l).drop sep.length)
    else (onceList sep l).map fun (x, y) => (a :: x, y)

theorem onceList_append [DecidableEq α] {c : α} {x : List α} (hx : c ∉ x) (sep y : List α) :
    onceList (c :: sep) (x ++ (c :: sep) ++ y) = some (x, y) := by
  induction x with
  | nil =>
    have hhead : c :: sep <+: c :: (sep ++ y) := List.prefix_append (c :: sep) y
    rw [List.nil_append, List.cons_append, onceList, if_pos hhead]
    simp
  | cons a x ih =>
    rw [List.mem_cons, not_or] at hx
    have hnot : ¬c :: sep <+: a :: (x ++ (c :: sep) ++ y) :=
      fun h => hx.1 (List.cons_prefix_cons.mp h).1
    rw [List.cons_append, List.cons_append, onceList, if_neg hnot, ih hx.2]
    rfl

/-! ## Words -/

def words (p : α → Bool) (l : List α) : List (List α) := (l.splitOnP p).filter (!·.isEmpty)

theorem words_nil : words p ([] : List α) = [] := rfl

/-- A separator ends the words in front of it. -/
theorem words_append_cons (x : List α) {c : α} (hc : p c = true) (y : List α) :
    words p (x ++ c :: y) = words p x ++ words p y := by
  unfold words
  rw [List.splitOnP_append_cons x y hc, List.filter_append]

theorem words_append {s : List α} (hs : ∀ a ∈ s, p a = true) (l : List α) :
    words p (s ++ l) = words p l := by
  induction s with
  | nil => rfl
  | cons a s ih =>
    obtain ⟨ha, hs⟩ := List.forall_mem_cons.mp hs
    have hcut := words_append_cons [] ha (s ++ l)
    rw [List.nil_append, words_nil, List.nil_append] at hcut
    rw [List.cons_append, hcut, ih hs]

theorem words_word {w : List α} (hne : w ≠ []) (hw : ∀ a ∈ w, p a = false) : words p w = [w] := by
  unfold words
  rw [List.splitOnP_eq_singleton hw, List.filter_cons_of_pos (by simpa using hne)]
  rfl

/-- A list that is empty or goes on with a separator does not lengthen the word in front of it. -/
theorem words_word_append {w : List α} (hne : w ≠ []) (hw : ∀ a ∈ w, p a = false) {t : List α}
    (hnext : ∀ c rest, t = c :: rest → p c = true) : words p (w ++ t) = w :: words p t := by
  cases t with
  | nil => rw [List.append_nil, words_word hne hw, words_nil]
  | cons c rest =>
    have hc := hnext c rest rfl
    have htail : words p (c :: rest) = words p rest := words_append_cons [] hc rest
    rw [words_append_cons w hc, words_word hne hw, htail]
    rfl

/-- The list consists of the words, in their order, with separators between them and, at will, in
front and behind. -/
inductive Spaced (p : α → Bool) : List (List α) → List α → Prop
  | nil {s : List α} (hs : ∀ a ∈ s, p a = true) : Spaced p [] s
  | cons {s w t : List α} {ws : List (List α)} (hs : ∀ a ∈ s, p a = true) (ht : Spaced p ws t)
      (hsep : ∀ c rest, t = c :: rest → p c = true) : Spaced p (w :: ws) (s ++ (w ++ t))

/-- Not empty, and without separators. -/
def IsWord (p : α → Bool) (w : List α) : Prop := w ≠ [] ∧ ∀ a ∈ w, p a = false

/-- A word by its elements one by one. -/
theorem isWord_of_all {w : List α} (hne : w ≠ []) (h : (w.all fun a => !p a) = true) :
    IsWord p w := by
  refine ⟨hne, fun a ha => ?_⟩
  simpa using List.all_eq_true.mp h a ha

theorem words_of_spaced {ws : List (List α)} {l : List α} (hws : ∀ w ∈ ws, IsWord p w)
    (h : Spaced p ws l) : words p l = ws := by
  induction h with
  | @nil s hs =>
    rw [← List.append_nil s, words_append hs, words_nil]
  | @cons s w t ws hs ht hsep ih =>
    obtain ⟨⟨hne, hw⟩, hws⟩ := List.forall_mem_cons.mp hws
    rw [words_append hs, words_word_append hne hw hsep, ih hws]

/-- A list consists of its words. -/
theorem spaced_words (l : List α) : Spaced p (words p l) l := by
  induction hn : l.length using Nat.strong_induction_on generalizing l with
  | _ n ih =>
    have hsep : ∀ a ∈ l.takeWhile p, p a = true := fun a ha => List.mem_takeWhile_imp ha
    have hl : l.takeWhile p ++ l.dropWhile p = l := List.takeWhile_append_dropWhile
    generalize l.takeWhile p = s at hsep hl
    cases hrest : l.dropWhile p with
    | nil =>
      rw [hrest, List.append_nil] at hl
      subst hl
      have hnone : words p s = [] := by rw [← List.append_nil s, words_append hsep, words_nil]
      rw [hnone]
      exact .nil hsep
    | cons c r =>
      have hc : p c = false := by
        have hhead := List.head_dropWhile_not p (w := by rw [hrest]; exact List.cons_ne_nil c r)
        simpa [hrest] using hhead
      -- the first word ends in front of the next separator
      have hcut : (c :: r).takeWhile (!p ·) ++ (c :: r).dropWhile (!p ·) = c :: r :=
        List.takeWhile_append_dropWhile
      have hne : (c :: r).takeWhile (!p ·) ≠ [] := by simp [hc]
      have hword : ∀ a ∈ (c :: r).takeWhile (!p ·), p a = false := fun a ha => by
        simpa using List.mem_takeWhile_imp ha
      have hnext : ∀ d rest, (c :: r).dropWhile (!p ·) = d :: rest → p d = true := by
        intro d rest heq
        have hhead := List.head_dropWhile_not (!p ·) (l := c :: r) (w := by simp [heq])
        simpa [heq] using hhead
      generalize (c :: r).takeWhile (!p ·) = w at hcut hne hword
      generalize (c :: r).dropWhile (!p ·) = t at hcut hnext
      have hwords : words p l = w :: words p t := by
        rw [← hl, hrest, ← hcut, words_append hsep, words_word_append hne hword hnext]
      have hshort : t.length < n := by
        have hlength := List.length_pos_iff.mpr hne
        rw [← hn, ← hl, hrest, ← hcut, List.length_append, List.length_append]
        omega
      rw [hwords]
      conv => rhs; rw [← hl, hrest, ← hcut]
      exact .cons hsep (ih t.length hshort t rfl) hnext

theorem Spaced.cons_separator {ws : List (List α)} {l : List α} (h : Spaced p ws l) {c : α}
    (hc : p c = true) : Spaced p ws (c :: l) := by
  cases h with
  | nil hs => exact .nil (List.forall_mem_cons.mpr ⟨hc, hs⟩)
  | @cons s w t ws hs ht hsep =>
    exact .cons (s := c :: s) (List.forall_mem_cons.mpr ⟨hc, hs⟩) ht hsep

theorem spaced_intercalate {c : α} (hc : p c = true) (ws : List (List α)) :
    Spaced p ws ([c].intercalate ws) := by
  induction ws with
  | nil => exact .nil (by simp)
  | cons w ws ih =>
    cases ws with
    | nil =>
      have hlast := Spaced.cons (p := p) (s := []) (w := w) (by simp) (.nil (s := []) (by simp))
        (by simp)
      rw [List.intercalate_singleton]
      simpa using hlast
    | cons v ws =>
      rw [List.intercalate_cons_cons, List.append_assoc]
      refine Spaced.cons (s := []) (by simp) (ih.cons_separator hc) ?_
      rintro d rest heq
      cases heq
      exact hc

/-! ## Two kinds of separators -/

theorem splitOnP_or (l : List α) :
    l.splitOnP (fun a => p a || q a) = (l.splitOnP p).flatMap (List.splitOnP q) := by
  induction l with
  | nil => rfl
  | cons a l ih =>
    obtain ⟨x, xs, hx⟩ := List.exists_cons_of_ne_nil (List.splitOnP_ne_nil p l)
    obtain ⟨y, ys, hy⟩ := List.exists_cons_of_ne_nil (List.splitOnP_ne_nil q x)
    rw [List.splitOnP_cons_eq_if_modifyHead, List.splitOnP_cons_eq_if_modifyHead, ih, hx]
    cases hp : p a with
    | true => simp
    | false =>
      cases hq : q a with
      | true => simp [List.splitOnP_cons_eq_if_modifyHead, hq]
      | false => simp [List.splitOnP_cons_eq_if_modifyHead, hq, hy]

/-! ## Trimmed parts -/

/-- The parts between the separators of `q`, each without the elements of `p` at its ends; empty
ones are left out. -/
def trimmedParts (q p : α → Bool) (l : List α) : List (List α) :=
  ((l.splitOnP q).map (trim p)).filter (!·.isEmpty)

theorem trimmedParts_or (r : α → Bool) (l : List α) :
    trimmedParts (fun a => q a || r a) p l = (l.splitOnP q).flatMap (trimmedParts r p) := by
  unfold trimmedParts
  rw [splitOnP_or, List.map_flatMap, List.filter_flatMap]

theorem trimmedParts_append_cons (x : List α) {c : α} (hc : q c = true) (y : List α) :
    trimmedParts q p (x ++ c :: y) = trimmedParts q p x ++ trimmedParts q p y := by
  unfold trimmedParts
  rw [List.splitOnP_append_cons x y hc, List.map_append, List.filter_append]

/-- A list without separators is one part. -/
theorem trimmedParts_uncut {l : List α} (h : ∀ a ∈ l, q a = false) :
    trimmedParts q p l = if trim p l = [] then [] else [trim p l] := by
  unfold trimmedParts
  rw [List.splitOnP_eq_singleton h]
  split
  · next hnil => simp [hnil]
  · next hne => simp [hne]

theorem trimmedParts_append_left {front : List α} (h : ∀ a ∈ front, p a = true) (l : List α) :
    trimmedParts q p (front ++ l) = trimmedParts q p l := by
  induction front with
  | nil => rfl
  | cons c front ih =>
    obtain ⟨hc, hfront⟩ := List.forall_mem_cons.mp h
    rw [List.cons_append, ← ih hfront]
    cases hq : q c with
    | true => exact trimmedParts_append_cons [] hq _
    | false =>
      obtain ⟨part, parts, hparts⟩ :=
        List.exists_cons_of_ne_nil (List.splitOnP_ne_nil q (front ++ l))
      have htrim : trim p ([c] ++ part) = trim p part :=
        trim_append_left (List.forall_mem_singleton.mpr hc) part
      unfold trimmedParts
      rw [List.splitOnP_cons_eq_if_modifyHead, hq, if_neg Bool.false_ne_true, hparts,
        List.modifyHead_cons, List.map_cons, List.map_cons, ← htrim]
      rfl

theorem trimmedParts_of_forall {l : List α} (h : ∀ a ∈ l, p a = true) :
    trimmedParts q p l = [] := by
  rw [← List.append_nil l, trimmedParts_append_left h]
  rfl

/-- A list with separators at its ends only is one part. -/
theorem trimmedParts_of_trim {l : List α} (h : ∀ a ∈ trim p l, q a = false) :
    trimmedParts q p l = if trim p l = [] then [] else [trim p l] := by
  obtain ⟨front, back, hl, hfront, hback⟩ := exists_trim p l
  have hpart : ∀ b : List α, (∀ a ∈ b, p a = true) → (∀ a ∈ b, q a = false) →
      trimmedParts q p (trim p l ++ b) = if trim p l = [] then [] else [trim p l] := by
    intro b hp hb
    rw [trimmedParts_uncut fun a ha => (List.mem_append.mp ha).elim (h a) (hb a),
      trim_append_right hp, trim_trim]
  conv_lhs => rw [hl, List.append_assoc, trimmedParts_append_left hfront]
  by_cases hcut : ∀ a ∈ back, q a = false
  · exact hpart back hback hcut
  · -- what stands behind the first separator is trimmed away
    cases honce : once q back with
    | none => exact absurd (once_eq_none_iff.mp honce) hcut
    | some parts =>
      obtain ⟨c, rfl, hc, hb⟩ := once_eq_some_iff.mp honce
      have hb1 : ∀ a ∈ parts.1, p a = true := fun a ha => hback a (List.mem_append_left _ ha)
      have hb2 : ∀ a ∈ parts.2, p a = true :=
        fun a ha => hback a (List.mem_append_right _ (List.mem_cons_of_mem c ha))
      rw [← List.append_assoc, trimmedParts_append_cons _ hc, hpart parts.1 hb1 hb,
        trimmedParts_of_forall hb2, List.append_nil]

/-! ## Places in a list of lists -/

/-- The `k`-th element of a list of lists stands in the list of one element, behind the lists of
the elements in front. -/
theorem getElem?_flatMap_eq_some_iff {β : Type} {f : α → List β} {l : List α} {k : Nat} {b : β} :
    (l.flatMap f)[k]? = some b ↔ ∃ j a r, l[j]? = some a ∧ (f a)[r]? = some b ∧
      k = ((l.take j).flatMap f).length + r := by
  induction l generalizing k with
  | nil => simp
  | cons a l ih =>
    rw [List.flatMap_cons, List.getElem?_append]
    split
    · next hk =>
      constructor
      · exact fun h => ⟨0, a, k, rfl, h, by simp⟩
      · rintro ⟨j, a', r, ha, hr, rfl⟩
        cases j with
        | zero =>
          obtain rfl := Option.some.inj ha
          simpa using hr
        | succ j =>
          rw [List.take_succ_cons, List.flatMap_cons, List.length_append] at hk
          omega
    · next hk =>
      rw [ih]
      constructor
      · rintro ⟨j, a', r, ha, hr, hplace⟩
        refine ⟨j + 1, a', r, ha, hr, ?_⟩
        rw [List.take_succ_cons, List.flatMap_cons, List.length_append]
        omega
      · rintro ⟨j, a', r, ha, hr, rfl⟩
        cases j with
        | zero =>
          obtain rfl := Option.some.inj ha
          have hlt := (List.getElem?_eq_some_iff.mp hr).1
          simp only [List.take_zero, List.flatMap_nil, List.length_nil] at hk
          omega
        | succ j =>
          refine ⟨j, a', r, ha, hr, ?_⟩
          rw [List.take_succ_cons, List.flatMap_cons, List.length_append]
          omega

end Split
