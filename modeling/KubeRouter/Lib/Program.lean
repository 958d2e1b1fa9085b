/-
  Programs that change a state and may stop with an error, and the writes they leave behind.

  `Prog σ ε α` keeps the state of a program that failed: what was done before the error stays
  done. `wp x Q E s` says that `x` started in `s` ends in a state that satisfies `Q`, or stops
  with an error in a state that satisfies `E`.

  The second half is about stores that are changed by a list of operations and read one cell
  at a time. Seen from one cell an operation either writes a value or does nothing, so a list
  whose writes to the cell all agree has a result that depends neither on their order nor on
  their number.

  Proved:
  * `wp_bind`, `wp_forM`: sequencing, and loops by an invariant over the items done.
  * `Ends.bind`, `Within.bind` and their loops: programs whose parts all keep a preorder.
  * `Takes.bind`, `Takes.forM`: a program whose steps do not depend on the state follows a
    script, and stops within it when it fails.
  * `read_foldl_agree`: agreeing writes.
  * `read_foldl_last`: writes of any kind, by the last one.
  * `read_foldl_move`: operations that all make one move on a cell.
  * `get_insert`, `get_erase`: the cells of a tree map.
-/
import Mathlib.Data.List.Basic
import Mathlib.Logic.Basic
import Mathlib.Logic.Function.Basic
import Std.Data.TreeMap

namespace Program

/-! ## Weakest preconditions -/

/-- A program over the state `σ` that may fail with an `ε`. -/
abbrev Prog (σ ε α : Type) := ExceptT ε (StateM σ) α

variable {σ ε α β ι : Type}

def Prog.exec (x : Prog σ ε α) (s : σ) : Except ε α × σ := x.run s

def wp (x : Prog σ ε α) (Q : α → σ → Prop) (E : ε → σ → Prop) (s : σ) : Prop :=
  match Prog.exec x s with
  | (.ok a, t) => Q a t
  | (.error e, t) => E e t

variable {Q : α → σ → Prop} {E : ε → σ → Prop} {s : σ}

theorem wp_pure (a : α) : wp (pure a) Q E s ↔ Q a s := Iff.rfl

theorem wp_throw (e : ε) : wp (throw e : Prog σ ε α) Q E s ↔ E e s := Iff.rfl

theorem wp_get {Q : σ → σ → Prop} : wp (get : Prog σ ε σ) Q E s ↔ Q s s := Iff.rfl

theorem wp_modify {Q : PUnit → σ → Prop} (f : σ → σ) :
    wp (modify f : Prog σ ε PUnit) Q E s ↔ Q ⟨⟩ (f s) := Iff.rfl

theorem wp_bind (x : Prog σ ε α) (f : α → Prog σ ε β) {Q : β → σ → Prop} :
    wp (x >>= f) Q E s ↔ wp x (fun a t => wp (f a) Q E t) E s := by
  have hrun : Prog.exec (x >>= f) s = match Prog.exec x s with
      | (.ok a, t) => Prog.exec (f a) t
      | (.error e, t) => (.error e, t) := by
    unfold Prog.exec
    simp only [bind, ExceptT.run, ExceptT.bind, ExceptT.mk, StateT.bind]
    show (match (x s : Except ε α × σ) with | (a, t) => ExceptT.bindCont f a t) = _
    cases x s with
    | mk r t => cases r <;> rfl
  unfold wp
  rw [hrun]
  cases Prog.exec x s with
  | mk r t => cases r <;> rfl

theorem wp_mono {Q' : α → σ → Prop} {E' : ε → σ → Prop} {x : Prog σ ε α} (h : wp x Q E s)
    (hq : ∀ a t, Q a t → Q' a t) (he : ∀ e t, E e t → E' e t) : wp x Q' E' s := by
  unfold wp at h ⊢
  split
  · next a t hx =>
    rw [hx] at h
    exact hq a t h
  · next e t hx =>
    rw [hx] at h
    exact he e t h

theorem wp_and {Q' : α → σ → Prop} {E' : ε → σ → Prop} {x : Prog σ ε α} (h : wp x Q E s)
    (h' : wp x Q' E' s) : wp x (fun a t => Q a t ∧ Q' a t) (fun e t => E e t ∧ E' e t) s := by
  unfold wp at *
  split
  · next a t hx =>
    rw [hx] at h h'
    exact ⟨h, h'⟩
  · next e t hx =>
    rw [hx] at h h'
    exact ⟨h, h'⟩

theorem wp_state {P : σ → Prop} {x : Prog σ ε α} (h : wp x (fun _ t => P t) (fun _ t => P t) s) :
    P (Prog.exec x s).2 := by
  unfold wp at h
  split at h
  · next a t hx => rw [hx]; exact h
  · next e t hx => rw [hx]; exact h

theorem wp_ok {x : Prog σ ε α} {a : α} (h : wp x Q E s) (hx : (Prog.exec x s).1 = .ok a) :
    Q a (Prog.exec x s).2 := by
  unfold wp at h
  split at h
  · next a' t hrun =>
    rw [hrun] at hx ⊢
    cases hx
    exact h
  · next e t hrun =>
    rw [hrun] at hx
    cases hx

/-- A program whose errors are impossible returns. -/
theorem wp_total {x : Prog σ ε α} (h : wp x Q (fun _ _ => False) s) :
    ∃ a, (Prog.exec x s).1 = .ok a := by
  unfold wp at h
  split at h
  · next a t hx => exact ⟨a, by rw [hx]⟩
  · exact h.elim

/-- Loop rule: `I done t` holds of every state `t` in which the items `done` are behind. -/
theorem wp_forM {f : ι → Prog σ ε PUnit} (I : List ι → σ → Prop) (items : List ι)
    (h0 : I [] s)
    (step : ∀ done i rest t, items = done ++ i :: rest → I done t →
      wp (f i) (fun _ u => I (done ++ [i]) u) E t) :
    wp (items.forM f) (fun _ t => I items t) E s := by
  -- generalised to a loop that starts behind `done`
  have main : ∀ rest done t, items = done ++ rest → I done t →
      wp (rest.forM f) (fun _ u => I items u) E t := by
    intro rest
    induction rest with
    | nil =>
      intro done t heq h
      rw [List.append_nil] at heq
      rw [heq]
      exact (wp_pure PUnit.unit).mpr h
    | cons i rest ih =>
      intro done t heq h
      have hcons : (i :: rest).forM f = (f i >>= fun _ => rest.forM f) := rfl
      rw [hcons, wp_bind]
      refine wp_mono (step done i rest t heq h) (fun _ u hu => ?_) (fun _ _ he => he)
      exact ih (done ++ [i]) u (by rw [heq, List.append_assoc]; rfl) hu
  exact main items [] s rfl h0

/-! ### Preorders -/

/-- The states before and after `x` are related by `R` when it returns and by `F` when it fails. -/
def Ends (R F : σ → σ → Prop) (x : Prog σ ε α) : Prop :=
  ∀ s, wp x (fun _ t => R s t) (fun _ t => F s t) s

namespace Ends

variable {R F : σ → σ → Prop}

theorem done (hrefl : ∀ s, R s s) (a : α) : Ends R F (pure a : Prog σ ε α) := fun s => hrefl s

theorem bind (htrans : ∀ s t u, R s t → R t u → R s u) (hstop : ∀ s t u, R s t → F t u → F s u)
    {x : Prog σ ε α} {f : α → Prog σ ε β} (hx : Ends R F x) (hf : ∀ a, Ends R F (f a)) :
    Ends R F (x >>= f) := by
  intro s
  rw [wp_bind]
  refine wp_mono (hx s) (fun a t ht => ?_) (fun _ _ ht => ht)
  exact wp_mono (hf a t) (fun _ _ hu => htrans _ _ _ ht hu) (fun _ _ hu => hstop _ _ _ ht hu)

theorem forM (hrefl : ∀ s, R s s) (htrans : ∀ s t u, R s t → R t u → R s u)
    (hstop : ∀ s t u, R s t → F t u → F s u) {f : ι → Prog σ ε PUnit} (items : List ι)
    (hf : ∀ i ∈ items, Ends R F (f i)) : Ends R F (items.forM f) := by
  induction items with
  | nil => exact done hrefl _
  | cons i items ih =>
    have htail := ih fun j hj => hf j (List.mem_cons_of_mem i hj)
    exact bind htrans hstop (hf i List.mem_cons_self) fun _ => htail

end Ends

/-- However `x` ends, its states before and after are related by `R`. -/
def Within (R : σ → σ → Prop) (x : Prog σ ε α) : Prop :=
  ∀ s, wp x (fun _ t => R s t) (fun _ t => R s t) s

namespace Within

variable {R : σ → σ → Prop}

theorem done (hrefl : ∀ s, R s s) (a : α) : Within R (pure a : Prog σ ε α) := Ends.done hrefl a

theorem bind (htrans : ∀ s t u, R s t → R t u → R s u) {x : Prog σ ε α} {f : α → Prog σ ε β}
    (hx : Within R x) (hf : ∀ a, Within R (f a)) : Within R (x >>= f) :=
  Ends.bind htrans htrans hx hf

theorem forM (hrefl : ∀ s, R s s) (htrans : ∀ s t u, R s t → R t u → R s u)
    {f : ι → Prog σ ε PUnit} (items : List ι) (hf : ∀ i ∈ items, Within R (f i)) :
    Within R (items.forM f) :=
  Ends.forM hrefl htrans htrans items hf

end Within

/-! ### Scripts -/

/-- Relations that compose along a list of steps: `R s t l` says that the steps `l` lead from
`s` to `t`, `F s t l` that a program with the script `l` stopped early in `t`. -/
structure Script (R F : σ → σ → List β → Prop) : Prop where
  refl : ∀ s, R s s []
  trans : ∀ {s t u l m}, R s t l → R t u m → R s u (l ++ m)
  stop : ∀ {s t u l m}, R s t l → F t u m → F s u (l ++ m)
  early : ∀ {s t l m}, F s t l → F s t (l ++ m)

/-- The program `x` takes the steps `l` whatever state it starts in, unless it stops early. -/
def Takes (R F : σ → σ → List β → Prop) (x : Prog σ ε PUnit) (l : List β) : Prop :=
  ∀ s, wp x (fun _ t => R s t l) (fun _ t => F s t l) s

namespace Takes

variable {R F : σ → σ → List β → Prop} (hR : Script R F)

include hR

theorem done : Takes R F (pure ⟨⟩ : Prog σ ε PUnit) [] := by
  intro s
  exact hR.refl s

theorem bind {x : Prog σ ε PUnit} {f : PUnit → Prog σ ε PUnit} {l m : List β} (hx : Takes R F x l)
    (hf : Takes R F (f ⟨⟩) m) : Takes R F (x >>= f) (l ++ m) := by
  intro s
  rw [wp_bind]
  refine wp_mono (hx s) (fun _ t ht => ?_) (fun _ _ ht => hR.early ht)
  refine wp_mono (hf t) (fun _ u hu => hR.trans ht hu) (fun _ u hu => hR.stop ht hu)

theorem forM {f : ι → Prog σ ε PUnit} {g : ι → List β} (items : List ι)
    (hf : ∀ i ∈ items, Takes R F (f i) (g i)) :
    Takes R F (items.forM f) (items.flatMap g) := by
  induction items with
  | nil => exact done hR
  | cons i items ih =>
    have htail := ih fun j hj => hf j (List.mem_cons_of_mem i hj)
    rw [List.flatMap_cons]
    exact bind hR (hf i List.mem_cons_self) htail

end Takes

/-! ## Agreeing writes -/

section Cells

variable {Op S V : Type} {apply : S → Op → S} {read : S → V} {write : Op → Option V}

/-- `write op` is what `op` stores in the cell that `read` looks at, if anything. -/
def Writes (apply : S → Op → S) (read : S → V) (write : Op → Option V) : Prop :=
  ∀ s op, read (apply s op) = (write op).getD (read s)

theorem read_foldl_untouched (hw : Writes apply read write) (ops : List Op) (s : S)
    (h : ∀ op ∈ ops, write op = none) : read (ops.foldl apply s) = read s := by
  induction ops generalizing s with
  | nil => rfl
  | cons op ops ih =>
    have htail := ih (apply s op) fun o ho => h o (List.mem_cons_of_mem op ho)
    rw [List.foldl_cons, htail, hw s op, h op List.mem_cons_self]
    rfl

/-- Writes that all store `v` leave `v` in the cell, as soon as there is one, or as soon as
the cell held `v` before. -/
theorem read_foldl_agree (hw : Writes apply read write) {v : V} (ops : List Op) (s : S)
    (h : ∀ op ∈ ops, ∀ u, write op = some u → u = v)
    (hv : read s = v ∨ ∃ op ∈ ops, (write op).isSome) : read (ops.foldl apply s) = v := by
  induction ops generalizing s with
  | nil =>
    obtain hs | ⟨op, hop, _⟩ := hv
    · exact hs
    · exact absurd hop List.not_mem_nil
  | cons op ops ih =>
    have htail : ∀ o ∈ ops, ∀ u, write o = some u → u = v :=
      fun o ho => h o (List.mem_cons_of_mem op ho)
    rw [List.foldl_cons]
    refine ih (apply s op) htail ?_
    rw [hw s op]
    cases hop : write op with
    | some u =>
      left
      exact h op List.mem_cons_self u hop
    | none =>
      obtain hs | ⟨o, ho, hsome⟩ := hv
      · left
        exact hs
      · right
        obtain rfl | ho := List.mem_cons.mp ho
        · rw [hop] at hsome
          simp at hsome
        · exact ⟨o, ho, hsome⟩

/-- The last write counts. -/
theorem read_foldl_last (hw : Writes apply read write) (ops : List Op) (s : S) :
    read (ops.foldl apply s) = (ops.filterMap write).getLast?.getD (read s) := by
  induction ops generalizing s with
  | nil => rfl
  | cons op ops ih =>
    rw [List.foldl_cons, ih, hw s op, List.filterMap_cons]
    cases write op with
    | none => rfl
    | some v =>
      rw [List.getLast?_cons]
      rfl

/-! ### Moves -/

/-- What an operation does to a cell that may be empty: nothing, fill it if it is empty, change
it if it is not, empty it. -/
inductive Move (α : Type) where
  | keep
  | put (v : α)
  | edit (v : α)
  | clear

def Move.run {α : Type} : Move α → Option α → Option α
  | keep, old => old
  | put v, old => old.or (some v)
  | edit v, old => old.map fun _ => v
  | clear, _ => none

theorem Move.run_idem {α : Type} (m : Move α) (old : Option α) : m.run (m.run old) = m.run old := by
  cases m <;> cases old <;> rfl

/-- `move op` is what `op` does to the cell that `read` looks at. -/
def Moves {α : Type} (apply : S → Op → S) (read : S → Option α) (move : Op → Move α) : Prop :=
  ∀ s op, read (apply s op) = (move op).run (read s)

/-- Operations that make one move or none make that move together, however many they are. -/
theorem read_foldl_move {α : Type} {read : S → Option α} {move : Op → Move α}
    (hm : Moves apply read move) (m : Move α) (ops : List Op) (s : S)
    (h : ∀ op ∈ ops, move op = .keep ∨ move op = m)
    (hit : m = .keep ∨ ∃ op ∈ ops, move op = m) : read (ops.foldl apply s) = m.run (read s) := by
  -- a cell that the move no longer changes stays
  have hfixed : ∀ (ops : List Op) (s : S), (∀ op ∈ ops, move op = .keep ∨ move op = m) →
      m.run (read s) = read s → read (ops.foldl apply s) = read s := by
    intro ops
    induction ops with
    | nil =>
      intro s _ _
      rfl
    | cons op ops ih =>
      intro s h hs
      have hop : read (apply s op) = read s := by
        rw [hm s op]
        obtain hkeep | hmove := h op List.mem_cons_self
        · rw [hkeep]
          rfl
        · rw [hmove, hs]
      rw [List.foldl_cons, ih _ (fun o ho => h o (List.mem_cons_of_mem op ho)) (by rw [hop, hs]),
        hop]
  induction ops generalizing s with
  | nil =>
    obtain rfl | ⟨op, hop, _⟩ := hit
    · rfl
    · exact absurd hop List.not_mem_nil
  | cons op ops ih =>
    have htail : ∀ o ∈ ops, move o = .keep ∨ move o = m :=
      fun o ho => h o (List.mem_cons_of_mem op ho)
    rw [List.foldl_cons]
    by_cases hop : move op = m
    · have hread : read (apply s op) = m.run (read s) := by rw [hm s op, hop]
      rw [hfixed ops _ htail (by rw [hread, m.run_idem]), hread]
    · have hkeep : move op = .keep := (h op List.mem_cons_self).resolve_right hop
      have hrest : m = .keep ∨ ∃ o ∈ ops, move o = m := by
        refine hit.imp_right fun ⟨o, ho, hom⟩ => ?_
        obtain rfl | ho := List.mem_cons.mp ho
        · exact absurd hom hop
        · exact ⟨o, ho, hom⟩
      rw [ih (apply s op) htail hrest, hm s op, hkeep]
      rfl

end Cells

/-! ### Tree maps -/

section TreeMaps

variable {κ ν : Type} {cmp : κ → κ → Ordering} [Std.TransCmp cmp] [Std.LawfulEqCmp cmp]
  [DecidableEq κ]

theorem get_insert (m : Std.TreeMap κ ν cmp) (k x : κ) (v : ν) :
    (m.insert k v)[x]? = Function.update (fun y => m[y]?) k (some v) x := by
  rw [Std.TreeMap.getElem?_insert, Function.update_apply]
  by_cases h : x = k
  · simp [h]
  · rw [if_neg h, if_neg]
    simpa using fun heq : k = x => h heq.symm

theorem get_erase (m : Std.TreeMap κ ν cmp) (k x : κ) :
    (m.erase k)[x]? = Function.update (fun y => m[y]?) k none x := by
  rw [Std.TreeMap.getElem?_erase, Function.update_apply]
  by_cases h : x = k
  · simp [h]
  · rw [if_neg h, if_neg]
    simpa using fun heq : k = x => h heq.symm

end TreeMaps

end Program
