/-
  Replacing a set line by line (`build_restore_payload` of `netpol/src/ipset.rs`).

  `ipset restore` runs the payload's lines in order and stops at the first one it refuses. The
  payload fills a TMP set and swaps it with the live one, so that traffic never sees a set half
  filled, whatever line the run is cut behind and whatever an interrupted run left in the TMP set.
  The TMP name is four characters longer than the set's, and `ipset` refuses to create a set
  whose name has more than 31.

  Proved:
  * `cut_old_or_new`: behind any number of lines the live set holds its old contents or the new
    ones.
  * `replaces_iff`: the payload runs to its end and leaves exactly the entries if and only if
    neither set has to be created under a name that is too long.
  * `inet6_local_pods_refused`: the IPv6 local-pods set of default-deny has such a name.
-/
import KubeRouter.Netpol.Install
import KubeRouter.Netpol.IpBlock

namespace KubeRouter.Netpol

/-! ## Lines -/

/-- The lines in order, up to the first one that is refused. -/
def runLines : List IpsetCmd → SetTable → SetTable
  | [], t => t
  | cmd :: cmds, t =>
    match cmd.exec t with
    | some t' => runLines cmds t'
    | none => t

theorem runLines_of_exec {cmds : List IpsetCmd} {t t' : SetTable}
    (h : execPayload cmds t = some t') : runLines cmds t = t' := by
  induction cmds generalizing t with
  | nil => exact Option.some.inj h
  | cons cmd cmds ih =>
    rw [execPayload, List.foldlM_cons, Option.bind_eq_bind, Option.bind_eq_some_iff] at h
    obtain ⟨t1, h1, hrest⟩ := h
    rw [runLines, h1]
    exact ih hrest

/-- The line writes no set but `n`. -/
def IpsetCmd.OnlyWrites (n : String) : IpsetCmd → Prop
  | create set _ _ | flush set | addIp set _ | addNet set _ _ | destroy set => set = n
  | swap _ _ => False

theorem OnlyWrites.exec_other {cmd : IpsetCmd} {n m : String} (h : cmd.OnlyWrites n) (hne : m ≠ n)
    {t t' : SetTable} (he : cmd.exec t = some t') : t' m = t m := by
  cases cmd with
  | create set typ fam =>
    obtain rfl : set = n := h
    exact (create_spec he).2 m hne
  | flush set =>
    obtain rfl : set = n := h
    simp only [IpsetCmd.exec, Option.map_eq_some_iff] at he
    obtain ⟨s, -, rfl⟩ := he
    exact Function.update_of_ne hne _ _
  | addIp set ip =>
    obtain rfl : set = n := h
    simp only [IpsetCmd.exec] at he
    split at he
    · split at he
      · rw [← Option.some.inj he]
        exact Function.update_of_ne hne _ _
      · cases he
    · cases he
  | addNet set net excluded =>
    obtain rfl : set = n := h
    simp only [IpsetCmd.exec] at he
    split at he
    · split at he
      · rw [← Option.some.inj he]
        exact Function.update_of_ne hne _ _
      · cases he
    · cases he
  | swap a b => exact h.elim
  | destroy set =>
    obtain rfl : set = n := h
    simp only [IpsetCmd.exec, Option.map_eq_some_iff] at he
    obtain ⟨s, -, rfl⟩ := he
    exact Function.update_of_ne hne _ _

theorem runLines_other {cmds : List IpsetCmd} {n m : String}
    (h : ∀ cmd ∈ cmds, cmd.OnlyWrites n) (hne : m ≠ n) (t : SetTable) :
    runLines cmds t m = t m := by
  induction cmds generalizing t with
  | nil => rfl
  | cons cmd cmds ih =>
    rw [runLines]
    cases he : cmd.exec t with
    | none => rfl
    | some t' =>
      exact (ih (fun c hc => h c (List.mem_cons_of_mem _ hc)) t').trans
        (OnlyWrites.exec_other (h cmd List.mem_cons_self) hne he)

theorem addCmds_onlyWrites (tmp : String) (body : SetBody) :
    ∀ cmd ∈ body.addCmds tmp, cmd.OnlyWrites tmp := by
  intro cmd hcmd
  cases body with
  | hashIp ips =>
    obtain ⟨ip, -, rfl⟩ := List.mem_map.mp hcmd
    rfl
  | hashNet nets =>
    obtain ⟨e, -, rfl⟩ := List.mem_map.mp hcmd
    rfl

/-! ## Contents -/

/-- The same entries; a net that was added twice has its last flag. -/
def SetBody.Same : SetBody → SetBody → Prop
  | hashIp l, hashIp l' => ∀ x, x ∈ l ↔ x ∈ l'
  | hashNet l, hashNet l' => ∀ n, netFlag l n = netFlag l' n
  | _, _ => False

theorem SetBody.Same.refl (body : SetBody) : body.Same body := by
  cases body with
  | hashIp ips => exact fun _ => Iff.rfl
  | hashNet nets => exact fun _ => rfl

/-- Sets with the same entries match the same addresses. -/
theorem SetBody.Same.mem_eq {b b' : SetBody} (h : b.Same b') (x : IpAddr) : b.mem x = b'.mem x := by
  cases b with
  | hashIp l =>
    cases b' with
    | hashIp l' =>
      rw [Bool.eq_iff_iff]
      simpa [SetBody.mem] using h x
    | hashNet l' => exact h.elim
  | hashNet l =>
    cases b' with
    | hashIp l' => exact h.elim
    | hashNet l' => exact hashNet_mem_congr h x

/-- The set of that name is absent, or of the family and type. -/
def Ready (t : SetTable) (n : String) (typ : SetType) (fam : IpFamily) : Prop :=
  ∀ s, t n = some s → s.family = fam ∧ s.body.setType = typ

/-- The complete old contents, empty if the set was not there. -/
def HoldsOld (t t' : SetTable) (set : String) (typ : SetType) (fam : IpFamily) : Prop :=
  t' set = t set ∨ t set = none ∧ t' set = some ⟨fam, .empty typ⟩

/-- Exactly the entries. -/
def HoldsNew (t' : SetTable) (set : String) (fam : IpFamily) (body : SetBody) : Prop :=
  ∃ s, t' set = some s ∧ s.family = fam ∧ s.body.Same body ∧ ∀ x, s.body.mem x = body.mem x

/-- What a restore is for. -/
structure Replaces (t : SetTable) (set : String) (fam : IpFamily) (body : SetBody) : Prop where
  runs : execPayload (buildRestorePayload set fam body) t =
    some (runLines (buildRestorePayload set fam body) t)
  live : HoldsNew (runLines (buildRestorePayload set fam body) t) set fam body
  tmp : runLines (buildRestorePayload set fam body) t (tmpName set) = none
  other : ∀ n, n ≠ set → n ≠ tmpName set →
    runLines (buildRestorePayload set fam body) t n = t n
  cut : ∀ i, HoldsOld t
      (runLines ((buildRestorePayload set fam body).take i) t) set body.setType fam ∨
    HoldsNew (runLines ((buildRestorePayload set fam body).take i) t) set fam body

/-! ## Every cut -/

section Cut

variable {t t' : SetTable} {set : String} {fam : IpFamily} {body : SetBody}

/-- The lines between the creation of the live set and the swap. -/
def fillLines (set : String) (fam : IpFamily) (body : SetBody) : List IpsetCmd :=
  .create (tmpName set) body.setType fam :: .flush (tmpName set) :: body.addCmds (tmpName set)

theorem buildRestorePayload_eq : buildRestorePayload set fam body =
    .create set body.setType fam :: (fillLines set fam body ++
      [.swap (tmpName set) set, .destroy (tmpName set)]) := rfl

theorem fillLines_onlyWrites : ∀ cmd ∈ fillLines set fam body, cmd.OnlyWrites (tmpName set) := by
  intro cmd hcmd
  simp only [fillLines, List.mem_cons] at hcmd
  rcases hcmd with rfl | rfl | hcmd
  · rfl
  · rfl
  · exact addCmds_onlyWrites _ _ cmd hcmd

/-- Filling the TMP set leaves the live one as its creation left it. -/
theorem fill_old (j : Nat) :
    HoldsOld t (runLines (.create set body.setType fam :: (fillLines set fam body).take j) t) set
      body.setType fam := by
  rw [runLines]
  cases hc : (IpsetCmd.create set body.setType fam).exec t with
  | none => exact Or.inl rfl
  | some t1 =>
    have hfill : runLines ((fillLines set fam body).take j) t1 set = t1 set :=
      runLines_other (fun cmd hcmd => fillLines_onlyWrites cmd (List.mem_of_mem_take hcmd))
        (tmpName_ne set).symm t1
    unfold HoldsOld
    dsimp only
    rw [hfill, (create_exec.mp hc).2]
    cases ht : t set with
    | none => exact Or.inr ⟨rfl, by simp⟩
    | some s => exact Or.inl ht

theorem holdsNew_restored : HoldsNew (restored t set fam body) set fam body :=
  ⟨_, restored_self, rfl, SetBody.Same.refl body, fun _ => rfl⟩

/-- Behind the swap the live set is the filled one. -/
theorem swap_new (h :
    execPayload (buildRestorePayload set fam body) t = some (restored t set fam body)) :
    HoldsNew (runLines (.create set body.setType fam :: (fillLines set fam body ++
      [.swap (tmpName set) set])) t) set fam body := by
  have hsplit : buildRestorePayload set fam body =
      (.create set body.setType fam :: (fillLines set fam body ++ [.swap (tmpName set) set])) ++
        [.destroy (tmpName set)] := by
    rw [buildRestorePayload_eq, List.cons_append, List.append_assoc]
    rfl
  rw [hsplit, execPayload_append, Option.bind_eq_some_iff] at h
  obtain ⟨t5, h5, hdestroy⟩ := h
  rw [runLines_of_exec h5]
  have hexec : (IpsetCmd.destroy (tmpName set)).exec t5 = some (restored t set fam body) := by
    simpa [execPayload] using hdestroy
  have honly : (IpsetCmd.destroy (tmpName set)).OnlyWrites (tmpName set) := rfl
  have hlive := OnlyWrites.exec_other honly (tmpName_ne set).symm hexec
  exact ⟨_, hlive.symm.trans restored_self, rfl, SetBody.Same.refl body, fun _ => rfl⟩

/-- Behind any number of lines the live set is complete, old or new. -/
theorem cut_old_or_new
    (h : execPayload (buildRestorePayload set fam body) t = some (restored t set fam body))
    (i : Nat) :
    HoldsOld t (runLines ((buildRestorePayload set fam body).take i) t) set body.setType fam ∨
      HoldsNew (runLines ((buildRestorePayload set fam body).take i) t) set fam body := by
  cases i with
  | zero => exact Or.inl (Or.inl rfl)
  | succ j =>
    rcases Nat.lt_trichotomy j ((fillLines set fam body).length + 1) with hlt | heq | hgt
    · refine Or.inl ?_
      rw [buildRestorePayload_eq, List.take_succ_cons, List.take_append_of_le_length (by omega)]
      exact fill_old j
    · refine Or.inr ?_
      have htake : (fillLines set fam body ++
          [IpsetCmd.swap (tmpName set) set, .destroy (tmpName set)]).take j =
            fillLines set fam body ++ [.swap (tmpName set) set] := by
        rw [heq, List.take_append, List.take_of_length_le (by omega)]
        congr 1
        rw [Nat.add_sub_cancel_left]
        rfl
      rw [buildRestorePayload_eq, List.take_succ_cons, htake]
      exact swap_new h
    · refine Or.inr ?_
      rw [List.take_of_length_le, runLines_of_exec h]
      · exact holdsNew_restored
      · rw [buildRestorePayload_eq]
        simp only [List.length_cons, List.length_append, List.length_nil]
        omega

end Cut

theorem Ready.canCreate_iff {t : SetTable} {n : String} {typ : SetType} {fam : IpFamily}
    (h : Ready t n typ fam) : CanCreate t n typ fam ↔ (t n = none → n.length ≤ maxSetName) := by
  unfold CanCreate
  cases ht : t n with
  | none => simp
  | some s => simpa using h s ht

/-- The payload replaces the set exactly when neither set must be created under too long a
name. -/
theorem replaces_iff {t : SetTable} {set : String} {fam : IpFamily} {body : SetBody}
    (hset : Ready t set body.setType fam) (htmp : Ready t (tmpName set) body.setType fam)
    (hfits : body.Fits fam) :
    Replaces t set fam body ↔ ∀ n ∈ [set, tmpName set], t n = none → n.length ≤ maxSetName := by
  have hnames : (∀ n ∈ [set, tmpName set], t n = none → n.length ≤ maxSetName) ↔
      CanCreate t set body.setType fam ∧ CanCreate t (tmpName set) body.setType fam := by
    rw [hset.canCreate_iff, htmp.canCreate_iff]
    simp
  rw [hnames]
  constructor
  · intro h
    obtain ⟨hc, hc', -⟩ := restore_exec.mp h.runs
    exact ⟨hc, hc'⟩
  · intro ⟨hc, hc'⟩
    have hexec : execPayload (buildRestorePayload set fam body) t =
      some (restored t set fam body) :=
      restore_exec.mpr ⟨hc, hc', hfits, rfl⟩
    have hrun := runLines_of_exec hexec
    refine ⟨hexec.trans (congrArg some hrun.symm), ?_, ?_, ?_, cut_old_or_new hexec⟩
    · rw [hrun]
      exact holdsNew_restored
    · rw [hrun, restored, Function.update_self]
    · intro n hn hn'
      rw [hrun, restored_other hn hn']

section Sample

/-- A TMP set left over by an interrupted run. -/
def leftover : SetTable :=
  Function.update (fun _ => none) "TMP-KUBE-SRC-A" (some ⟨.V4, .hashIp [.ofOctets 10 9 9 9]⟩)

theorem leftover_replaces :
    Replaces leftover "KUBE-SRC-A" .V4 (.hashIp [.ofOctets 10 0 0 1, .ofOctets 10 0 0 1]) := by
  have hname : tmpName "KUBE-SRC-A" = "TMP-KUBE-SRC-A" := by decide
  refine (replaces_iff ?_ ?_ ?_).mpr ?_
  · intro s hs
    simp [leftover] at hs
  · intro s hs
    rw [hname, leftover, Function.update_self, Option.some_inj] at hs
    rw [← hs]
    exact ⟨rfl, rfl⟩
  · simp [SetBody.Fits, IpAddr.family, IpAddr.ofOctets]
  · decide

/-- The TMP name of the IPv6 local-pods set has 32 characters. -/
theorem inet6_local_pods_refused :
    ¬ ∀ (t : SetTable) (set : String) (fam : IpFamily) (body : SetBody),
      Ready t set body.setType fam → Ready t (tmpName set) body.setType fam → body.Fits fam →
      Replaces t set fam body := by
  intro h
  have hreplaces := h (fun _ => none) (localPodsSet .V6) .V6 (.hashIp [])
    (fun _ hs => by cases hs) (fun _ hs => by cases hs) (fun _ hip => by cases hip)
  have hcreate := (restore_exec.mp hreplaces.runs).2.1
  have hlen : (tmpName (localPodsSet .V6)).length ≤ maxSetName := hcreate
  exact absurd hlen (by decide)

end Sample

end KubeRouter.Netpol
