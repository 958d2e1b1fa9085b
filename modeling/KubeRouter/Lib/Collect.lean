/-
  Lists of results: collecting them up to the first one that is missing, skipping those, putting
  lists together, and adding only what is not there yet.

  Proved:
  * `mapM_eq_ok_iff`, `mapM_isOk_iff`: results that are collected up to the first error.
  * `filterMap_eq_filterMap_iff`: two lists whose results are all there.
  * `flatMap_eq_flatMap_iff`: two lists that are put together from parts.
  * `mem_pushAll`, `pushAll_nodup`: a list that takes in only what it does not hold.
-/
import Mathlib.Data.List.Basic
import Mathlib.Data.List.Forall2

namespace Collect

variable {α β γ ε : Type}

/-! ## Errors -/

theorem bind_eq_ok_iff {x : Except ε α} {f : α → Except ε β} {b : β} :
    (x >>= f) = .ok b ↔ ∃ a, x = .ok a ∧ f a = .ok b := by
  cases x with
  | error e => simp [bind, Except.bind]
  | ok a => simp [bind, Except.bind]

/-- Two computations succeed together. -/
def SameOk {δ : Type} (x : Except ε α) (y : Except δ β) : Prop :=
  (∃ a, x = .ok a) ↔ ∃ b, y = .ok b

theorem SameOk.bind {δ α' β' : Type} {x : Except ε α} {y : Except δ β} {f : α → Except ε α'}
    {g : β → Except δ β'} (h : SameOk x y) (hnext : ∀ a b, SameOk (f a) (g b)) :
    SameOk (x >>= f) (y >>= g) := by
  cases x with
  | error e =>
    cases y with
    | error e' => simp [SameOk, Bind.bind, Except.bind]
    | ok b => simp [SameOk] at h
  | ok a =>
    cases y with
    | error e' => simp [SameOk] at h
    | ok b => exact hnext a b

theorem sameOk_ok {δ : Type} (a : α) (b : β) : SameOk (.ok a : Except ε α) (.ok b : Except δ β) :=
  iff_of_true ⟨a, rfl⟩ ⟨b, rfl⟩

/-- Results are collected when there is one for every item. -/
theorem mapM_eq_ok_iff {f : α → Except ε β} {l : List α} {bs : List β} :
    l.mapM f = .ok bs ↔ List.Forall₂ (fun a b => f a = .ok b) l bs := by
  induction l generalizing bs with
  | nil =>
    rw [List.mapM_nil, List.forall₂_nil_left_iff]
    exact ⟨fun h => (Except.ok.inj h).symm, fun h => congrArg Except.ok h.symm⟩
  | cons a l ih =>
    rw [List.mapM_cons, List.forall₂_cons_left_iff]
    cases ha : f a with
    | error e => simp [bind, Except.bind]
    | ok b =>
      cases hl : l.mapM f with
      | error e =>
        constructor
        · intro h
          cases h
        · rintro ⟨b, bs, _, hbs, _⟩
          rw [ih.mpr hbs] at hl
          cases hl
      | ok cs =>
        constructor
        · intro h
          cases h
          exact ⟨b, cs, rfl, ih.mp hl, rfl⟩
        · rintro ⟨b', bs', hb, hbs, rfl⟩
          have hcs := ih.mpr hbs
          rw [hl] at hcs
          cases hb
          cases hcs
          rfl

theorem mapM_isOk_iff {f : α → Except ε β} {l : List α} :
    (∃ bs, l.mapM f = .ok bs) ↔ ∀ a ∈ l, ∃ b, f a = .ok b := by
  induction l with
  | nil => exact iff_of_true ⟨[], rfl⟩ (by simp)
  | cons a l ih =>
    rw [List.forall_mem_cons, ← ih]
    simp only [mapM_eq_ok_iff, List.forall₂_cons_left_iff]
    constructor
    · rintro ⟨bs, b, bs', hb, hbs, rfl⟩
      exact ⟨⟨b, hb⟩, bs', hbs⟩
    · rintro ⟨⟨b, hb⟩, bs', hbs⟩
      exact ⟨b :: bs', b, bs', hb, hbs, rfl⟩

theorem exists_of_forall₂ {R : α → β → Prop} {l : List α} {bs : List β} (h : List.Forall₂ R l bs) :
    ∀ a ∈ l, ∃ b ∈ bs, R a b := by
  induction h with
  | nil => simp
  | cons hab _ ih =>
    refine List.forall_mem_cons.mpr ⟨⟨_, List.mem_cons_self, hab⟩, fun a ha => ?_⟩
    obtain ⟨b, hb, hR⟩ := ih a ha
    exact ⟨b, List.mem_cons_of_mem _ hb, hR⟩

theorem forall₂_congr_mem {R S : α → β → Prop} {l : List α} {bs : List β}
    (h : ∀ a ∈ l, ∀ b ∈ bs, (R a b ↔ S a b)) : List.Forall₂ R l bs ↔ List.Forall₂ S l bs := by
  induction l generalizing bs with
  | nil => simp
  | cons a l ih =>
    cases bs with
    | nil => simp
    | cons b bs =>
      rw [List.forall₂_cons, List.forall₂_cons, h a List.mem_cons_self b List.mem_cons_self,
        ih fun a' ha' b' hb' => h a' (List.mem_cons_of_mem a ha') b' (List.mem_cons_of_mem b hb')]

/-! ## Missing results -/

theorem mapM_eq_some_filterMap {f : α → Option β} {l : List α}
    (h : ∀ a ∈ l, (f a).isSome = true) : l.mapM f = some (l.filterMap f) := by
  induction l with
  | nil => rfl
  | cons a l ih =>
    obtain ⟨ha, hl⟩ := List.forall_mem_cons.mp h
    obtain ⟨b, hb⟩ := Option.isSome_iff_exists.mp ha
    rw [List.mapM_cons, ih hl, List.filterMap_cons, hb]
    rfl

theorem mapM_eq_none {f : α → Option β} {l : List α} {a : α} (ha : a ∈ l)
    (hnone : f a = none) : l.mapM f = none := by
  induction l with
  | nil => cases ha
  | cons b l ih =>
    rw [List.mapM_cons]
    obtain rfl | ha := List.mem_cons.mp ha
    · rw [hnone]
      rfl
    · rw [ih ha]
      cases f b <;> rfl

theorem getElem?_filterMap_of_isSome {f : α → Option β} {l : List α}
    (h : ∀ a ∈ l, (f a).isSome = true) (i : Nat) : (l.filterMap f)[i]? = l[i]?.bind f := by
  induction l generalizing i with
  | nil => rfl
  | cons a l ih =>
    obtain ⟨ha, hl⟩ := List.forall_mem_cons.mp h
    obtain ⟨b, hb⟩ := Option.isSome_iff_exists.mp ha
    rw [List.filterMap_cons, hb]
    cases i with
    | zero => simp [hb]
    | succ i => simpa using ih hl i

/-- Two lists of values that are all there, item by item. -/
theorem filterMap_eq_filterMap_iff {f : α → Option γ} {g : β → Option γ} {l : List α}
    {m : List β} (hl : ∀ a ∈ l, (f a).isSome = true) (hm : ∀ b ∈ m, (g b).isSome = true) :
    l.filterMap f = m.filterMap g ↔ List.Forall₂ (fun a b => f a = g b) l m := by
  induction l generalizing m with
  | nil =>
    cases m with
    | nil => simp
    | cons b m =>
      obtain ⟨c, hc⟩ := Option.isSome_iff_exists.mp (hm b List.mem_cons_self)
      simp [hc]
  | cons a l ih =>
    obtain ⟨ha, hl⟩ := List.forall_mem_cons.mp hl
    obtain ⟨c, hc⟩ := Option.isSome_iff_exists.mp ha
    cases m with
    | nil => simp [hc]
    | cons b m =>
      obtain ⟨hb, hm⟩ := List.forall_mem_cons.mp hm
      obtain ⟨d, hd⟩ := Option.isSome_iff_exists.mp hb
      rw [List.filterMap_cons, List.filterMap_cons, hc, hd, List.forall₂_cons, hc, hd,
        List.cons.injEq, Option.some.injEq, ih hl hm]

/-! ## Parts -/

/-- Lists that are put together from parts, where the parts of one are those of the other or
empty. -/
theorem flatMap_eq_flatMap_iff {f g : α → List β} {l : List α}
    (h : ∀ a ∈ l, f a = g a ∨ f a = []) : l.flatMap g = l.flatMap f ↔ ∀ a ∈ l, g a = f a := by
  have hlen : ∀ m : List α, (∀ a ∈ m, f a = g a ∨ f a = []) →
      (m.flatMap f).length ≤ (m.flatMap g).length := by
    intro m hm
    induction m with
    | nil => exact Nat.le_refl 0
    | cons a m ih =>
      obtain ⟨ha, hm⟩ := List.forall_mem_cons.mp hm
      have ih := ih hm
      rw [List.flatMap_cons, List.flatMap_cons, List.length_append, List.length_append]
      obtain ha | ha := ha
      · rw [ha]
        omega
      · rw [ha, List.length_nil]
        omega
  induction l with
  | nil => simp
  | cons a l ih =>
    obtain ⟨ha, hl⟩ := List.forall_mem_cons.mp h
    have ih := ih hl
    rw [List.flatMap_cons, List.flatMap_cons, List.forall_mem_cons]
    obtain ha | ha := ha
    · rw [ha, List.append_cancel_left_eq]
      exact ⟨fun heq => ⟨rfl, ih.mp heq⟩, fun heq => ih.mpr heq.2⟩
    · rw [ha, List.nil_append]
      constructor
      · intro heq
        have hle := hlen l hl
        rw [← heq, List.length_append] at hle
        have hnil : g a = [] := List.length_eq_zero_iff.mp (by omega)
        rw [hnil, List.nil_append] at heq
        exact ⟨hnil, ih.mp heq⟩
      · rintro ⟨hnil, heq⟩
        rw [hnil, List.nil_append, ih.mpr heq]

/-! ## No item twice -/

section Push

variable [DecidableEq α]

/-- Add an item behind the list unless it is there. -/
def pushNew (l : List α) (a : α) : List α := if l.contains a then l else l ++ [a]

def pushAll (l items : List α) : List α := items.foldl pushNew l

theorem pushNew_of_mem {l : List α} {a : α} (h : a ∈ l) : pushNew l a = l :=
  if_pos (List.contains_iff_mem.mpr h)

theorem pushNew_of_not_mem {l : List α} {a : α} (h : a ∉ l) : pushNew l a = l ++ [a] :=
  if_neg (by simpa using h)

theorem mem_pushNew {l : List α} {a b : α} : b ∈ pushNew l a ↔ b ∈ l ∨ b = a := by
  by_cases ha : a ∈ l
  · rw [pushNew_of_mem ha]
    exact ⟨.inl, fun h => h.elim id fun heq => heq ▸ ha⟩
  · rw [pushNew_of_not_mem ha, List.mem_append, List.mem_singleton]

theorem mem_pushAll {l items : List α} {b : α} : b ∈ pushAll l items ↔ b ∈ l ∨ b ∈ items := by
  induction items generalizing l with
  | nil => simp [pushAll]
  | cons a items ih =>
    show b ∈ pushAll (pushNew l a) items ↔ _
    rw [ih, mem_pushNew, List.mem_cons, or_assoc]

theorem pushNew_nodup {l : List α} (h : l.Nodup) (a : α) : (pushNew l a).Nodup := by
  by_cases ha : a ∈ l
  · rw [pushNew_of_mem ha]
    exact h
  · rw [pushNew_of_not_mem ha]
    refine List.nodup_append.mpr ⟨h, by simp, fun b hb c hc heq => ?_⟩
    obtain rfl := List.mem_singleton.mp hc
    exact ha (heq ▸ hb)

theorem pushAll_nodup {l : List α} (h : l.Nodup) (items : List α) : (pushAll l items).Nodup := by
  induction items generalizing l with
  | nil => exact h
  | cons a items ih => exact ih (pushNew_nodup h a)

/-- A list without repetitions is taken as it is. -/
theorem pushAll_nil {items : List α} (h : items.Nodup) : pushAll [] items = items := by
  -- generalised to what is there already
  have main : ∀ items l : List α, (l ++ items).Nodup → pushAll l items = l ++ items := by
    intro items
    induction items with
    | nil => intro l _; rw [List.append_nil]; rfl
    | cons a items ih =>
      intro l hnodup
      have hnot : a ∉ l := fun ha =>
        (List.nodup_append.mp hnodup).2.2 a ha a List.mem_cons_self rfl
      show pushAll (pushNew l a) items = _
      rw [pushNew_of_not_mem hnot, ih (l ++ [a]) (by rw [List.append_assoc]; exact hnodup),
        List.append_assoc, List.singleton_append]
  exact main items [] h

/-- Nested loops that push are one loop. -/
theorem foldl_pushAll (g : β → List α) (bs : List β) (l : List α) :
    bs.foldl (fun l b => pushAll l (g b)) l = pushAll l (bs.flatMap g) := by
  induction bs generalizing l with
  | nil => rfl
  | cons b bs ih =>
    rw [List.foldl_cons, ih, List.flatMap_cons]
    unfold pushAll
    rw [List.foldl_append]

end Push

/-! ## The first item -/

/-- Items with nothing to say can be left out. -/
theorem findSome?_filter {f : α → Option β} {p : α → Bool} (l : List α)
    (h : ∀ a ∈ l, p a = false → f a = none) : (l.filter p).findSome? f = l.findSome? f := by
  induction l with
  | nil => rfl
  | cons a l ih =>
    have htail := ih fun b hb => h b (List.mem_cons_of_mem a hb)
    cases ha : p a with
    | true => rw [List.filter_cons_of_pos ha, List.findSome?_cons, List.findSome?_cons, htail]
    | false =>
      rw [List.filter_cons_of_neg (by simp [ha]), List.findSome?_cons, h a List.mem_cons_self ha,
        htail]

/-- Items that all say the same, where one says something. -/
theorem findSome?_agree {f : α → Option β} {l : List α} {v : β}
    (h : ∀ a ∈ l, ∀ b, f a = some b → b = v) (hit : ∃ a ∈ l, f a ≠ none) :
    l.findSome? f = some v := by
  obtain ⟨a, ha, hne⟩ := hit
  cases hfound : l.findSome? f with
  | none => exact absurd (List.findSome?_eq_none_iff.mp hfound a ha) hne
  | some b =>
    obtain ⟨c, hc, hb⟩ := List.exists_of_findSome?_eq_some hfound
    rw [h c hc b hb]

/-- Change the first item that satisfies `p`. -/
def modifyFirst (p : α → Bool) (f : α → α) : List α → List α
  | [] => []
  | a :: l => if p a then f a :: l else a :: modifyFirst p f l

theorem map_modifyFirst {g : α → β} {p : α → Bool} {q : β → Bool} {f : α → α} {f' : β → β}
    (hp : ∀ a, q (g a) = p a) (hf : ∀ a, g (f a) = f' (g a)) (l : List α) :
    (modifyFirst p f l).map g = modifyFirst q f' (l.map g) := by
  induction l with
  | nil => rfl
  | cons a l ih =>
    rw [modifyFirst, List.map_cons, modifyFirst, hp]
    cases p a with
    | true => simp [hf]
    | false => simp [ih]

/-- A second change overrides the first. -/
theorem modifyFirst_modifyFirst {p : α → Bool} {f f' : α → α} (hp : ∀ a, p (f a) = p a)
    (hf : ∀ a, f' (f a) = f' a) (l : List α) :
    modifyFirst p f' (modifyFirst p f l) = modifyFirst p f' l := by
  induction l with
  | nil => rfl
  | cons a l ih =>
    cases ha : p a with
    | true => simp [modifyFirst, hp, ha, hf]
    | false => simp [modifyFirst, ha, ih]

theorem any_modifyFirst {p : α → Bool} {f : α → α} (hp : ∀ a, p (f a) = p a) (l : List α) :
    (modifyFirst p f l).any p = l.any p := by
  induction l with
  | nil => rfl
  | cons a l ih =>
    cases ha : p a with
    | true => simp [modifyFirst, hp, ha]
    | false => simp [modifyFirst, ha, ih]

end Collect
