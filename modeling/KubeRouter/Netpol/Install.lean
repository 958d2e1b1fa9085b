/-
  Installing a plan. Each tool call of `FirewallController::reconcile` gets a specification, and
  from these: after a successful pass every set and every chain of the plan is in the kernel
  exactly as planned, whatever was there before (`reconcile_installed`). The traversal of a
  declared chain then reads nothing else (`traverse_installed`): stale chains and sets of
  earlier passes stay in the kernel but no rule of the plan leads to them.

  Names. A set called like a TMP set would be destroyed by its own restore; the sets of a plan
  never are (`tmpName_ne_planned`). Sets of two families of one pass never share a name, since
  `create -exist` refuses a set of the other family.
-/
import KubeRouter.Netpol.Sets

namespace KubeRouter.Netpol

open Filter (Mark Flow)

/-! ## `ipset restore` -/

/-- `create -exist` succeeds. -/
def CanCreate (t : SetTable) (set : String) (typ : SetType) (fam : IpFamily) : Prop :=
  match t set with
  | none => set.length ≤ maxSetName
  | some s => s.family = fam ∧ s.body.setType = typ

/-- `ipset` takes every entry into a set of the family. -/
def SetBody.Fits (fam : IpFamily) : SetBody → Prop
  | hashIp ips => ∀ ip ∈ ips, ip.family = fam
  | hashNet nets => ∀ e ∈ nets, e.1.family = fam ∧ 1 ≤ e.1.prefixLen

theorem tmpName_ne (set : String) : tmpName set ≠ set := by
  intro h
  have hl := congrArg String.length h
  rw [tmpName, String.length_append] at hl
  have h4 : "TMP-".length = 4 := by decide
  omega

/-- The set table after a restore: the set replaced, its TMP set gone. -/
def restored (t : SetTable) (set : String) (fam : IpFamily) (body : SetBody) : SetTable :=
  Function.update (Function.update t set (some ⟨fam, body⟩)) (tmpName set) none

theorem create_exec {t t' : SetTable} {set : String} {typ : SetType} {fam : IpFamily} :
    (IpsetCmd.create set typ fam).exec t = some t' ↔ CanCreate t set typ fam ∧
      t' = match t set with
        | none => Function.update t set (some ⟨fam, .empty typ⟩)
        | some _ => t := by
  cases ht : t set with
  | none =>
    simp only [IpsetCmd.exec, CanCreate, ht]
    by_cases hl : set.length ≤ maxSetName
    · rw [if_pos hl, Option.some_inj, eq_comm]
      simp [hl]
    · simp [hl]
  | some s =>
    simp only [IpsetCmd.exec, CanCreate, ht]
    by_cases hs : s.family = fam ∧ s.body.setType = typ
    · rw [if_pos hs, Option.some_inj, eq_comm]
      simp [hs]
    · simp [hs]

/-- After `create -exist` the set is there with the asked type, and nothing else moved. -/
theorem create_spec {t t' : SetTable} {set : String} {typ : SetType} {fam : IpFamily}
    (h : (IpsetCmd.create set typ fam).exec t = some t') :
    (∃ s, t' set = some s ∧ s.family = fam ∧ s.body.setType = typ) ∧ ∀ n, n ≠ set → t' n = t n := by
  obtain ⟨hc, rfl⟩ := create_exec.mp h
  unfold CanCreate at hc
  cases ht : t set with
  | none =>
    refine ⟨⟨⟨fam, .empty typ⟩, by simp, rfl, by cases typ <;> rfl⟩, ?_⟩
    intro n hn
    simp [hn]
  | some s =>
    rw [ht] at hc
    exact ⟨⟨s, ht, hc⟩, fun n _ => rfl⟩

/-- Adding entries one by one appends them to the set. -/
theorem addIps_exec (tmp : String) (fam : IpFamily) (ips pre : List IpAddr) (t : SetTable)
    (ht : t tmp = some ⟨fam, .hashIp pre⟩) :
    execPayload (ips.map (.addIp tmp ·)) t =
      if ∀ ip ∈ ips, ip.family = fam then
        some (Function.update t tmp (some ⟨fam, .hashIp (pre ++ ips)⟩)) else none := by
  induction ips generalizing pre t with
  | nil => simp [execPayload, ← ht]
  | cons ip ips ih =>
    rw [List.map_cons, execPayload, List.foldlM_cons]
    simp only [IpsetCmd.exec, ht]
    by_cases hip : ip.family = fam
    · rw [if_pos hip, Option.bind_eq_bind, Option.bind_some, ← execPayload,
        ih (pre ++ [ip]) _ (by simp)]
      simp [hip]
    · simp [hip]

theorem addNets_exec (tmp : String) (fam : IpFamily) (nets pre : List (IpNet × Bool)) (t : SetTable)
    (ht : t tmp = some ⟨fam, .hashNet pre⟩) :
    execPayload (nets.map fun e => .addNet tmp e.1 e.2) t =
      if ∀ e ∈ nets, e.1.family = fam ∧ 1 ≤ e.1.prefixLen then
        some (Function.update t tmp (some ⟨fam, .hashNet (pre ++ nets)⟩)) else none := by
  induction nets generalizing pre t with
  | nil => simp [execPayload, ← ht]
  | cons e nets ih =>
    rw [List.map_cons, execPayload, List.foldlM_cons]
    simp only [IpsetCmd.exec, ht]
    by_cases he : e.1.family = fam ∧ 1 ≤ e.1.prefixLen
    · rw [if_pos he, Option.bind_eq_bind, Option.bind_some, ← execPayload,
        ih (pre ++ [(e.1, e.2)]) _ (by simp)]
      simp only [List.forall_mem_cons, he, true_and, List.append_assoc, List.singleton_append,
        Function.update_idem]
    · have hall : ¬ ∀ e' ∈ e :: nets, e'.1.family = fam ∧ 1 ≤ e'.1.prefixLen := fun h =>
        he (h e List.mem_cons_self)
      rw [if_neg he, if_neg hall]
      rfl

theorem addCmds_exec (tmp : String) (fam : IpFamily) (body : SetBody) (t t' : SetTable)
    (ht : t tmp = some ⟨fam, .empty body.setType⟩) :
    execPayload (body.addCmds tmp) t = some t' ↔
      body.Fits fam ∧ t' = Function.update t tmp (some ⟨fam, body⟩) := by
  cases body with
  | hashIp ips =>
    rw [SetBody.addCmds, addIps_exec tmp fam ips [] t ht, List.nil_append, SetBody.Fits]
    by_cases h : ∀ ip ∈ ips, ip.family = fam
    · rw [if_pos h, Option.some_inj]
      exact ⟨fun he => ⟨h, he.symm⟩, fun he => he.2.symm⟩
    · rw [if_neg h]
      exact iff_of_false (by simp) fun he => h he.1
  | hashNet nets =>
    rw [SetBody.addCmds, addNets_exec tmp fam nets [] t ht, List.nil_append, SetBody.Fits]
    by_cases h : ∀ e ∈ nets, e.1.family = fam ∧ 1 ≤ e.1.prefixLen
    · rw [if_pos h, Option.some_inj]
      exact ⟨fun he => ⟨h, he.symm⟩, fun he => he.2.symm⟩
    · rw [if_neg h]
      exact iff_of_false (by simp) fun he => h he.1

/-- The table in front of the `add` lines: both sets created, TMP empty. -/
structure Prepared (t t3 : SetTable) (set : String) (typ : SetType) (fam : IpFamily) : Prop where
  tmp : t3 (tmpName set) = some ⟨fam, .empty typ⟩
  live : ∃ s, t3 set = some s ∧ s.family = fam ∧ s.body.setType = typ
  other : ∀ n, n ≠ set → n ≠ tmpName set → t3 n = t n

theorem prepare_exec {t t3 : SetTable} {set : String} {typ : SetType} {fam : IpFamily}
    (h : execPayload [.create set typ fam, .create (tmpName set) typ fam, .flush (tmpName set)] t =
      some t3) :
    CanCreate t set typ fam ∧ CanCreate t (tmpName set) typ fam ∧ Prepared t t3 set typ fam := by
  have hne := tmpName_ne set
  simp only [execPayload, List.foldlM_cons, List.foldlM_nil, Option.bind_eq_bind,
    Option.bind_eq_some_iff, Option.pure_def, Option.some_inj] at h
  obtain ⟨t1, h1, t2, h2, t3', h3, rfl⟩ := h
  obtain ⟨⟨s, hs, hsf⟩, hother1⟩ := create_spec h1
  obtain ⟨⟨s2, hs2, hf2, ht2⟩, hother2⟩ := create_spec h2
  have hcan : CanCreate t (tmpName set) typ fam := by
    have hc := (create_exec.mp h2).1
    unfold CanCreate at hc ⊢
    rwa [hother1 _ hne] at hc
  simp only [IpsetCmd.exec, hs2, Option.map_some, Option.some_inj] at h3
  subst h3
  refine ⟨(create_exec.mp h1).1, hcan, ⟨?_, ⟨s, ?_, hsf⟩, ?_⟩⟩
  · rw [Function.update_self, hf2, ht2]
  · rw [Function.update_of_ne hne.symm, hother2 _ hne.symm, hs]
  · intro n hn hn'
    rw [Function.update_of_ne hn', hother2 n hn', hother1 n hn]

theorem exists_prepare {t : SetTable} {set : String} {typ : SetType} {fam : IpFamily}
    (h : CanCreate t set typ fam) (h' : CanCreate t (tmpName set) typ fam) :
    ∃ t3, execPayload [.create set typ fam, .create (tmpName set) typ fam, .flush (tmpName set)] t =
      some t3 := by
  have hne := tmpName_ne set
  have h1 : ∃ t1, (IpsetCmd.create set typ fam).exec t = some t1 := ⟨_, create_exec.mpr ⟨h, rfl⟩⟩
  obtain ⟨t1, h1⟩ := h1
  have hc : CanCreate t1 (tmpName set) typ fam := by
    unfold CanCreate at h' ⊢
    rwa [(create_spec h1).2 _ hne]
  have h2 : ∃ t2, (IpsetCmd.create (tmpName set) typ fam).exec t1 = some t2 :=
    ⟨_, create_exec.mpr ⟨hc, rfl⟩⟩
  obtain ⟨t2, h2⟩ := h2
  obtain ⟨⟨s2, hs2, -⟩, -⟩ := create_spec h2
  have h3 : (IpsetCmd.flush (tmpName set)).exec t2 =
      some (Function.update t2 (tmpName set) (some ⟨s2.family, .empty s2.body.setType⟩)) := by
    simp only [IpsetCmd.exec, hs2, Option.map_some]
  refine ⟨Function.update t2 (tmpName set) (some ⟨s2.family, .empty s2.body.setType⟩), ?_⟩
  simp only [execPayload, List.foldlM_cons, List.foldlM_nil, h1, h2, h3, Option.bind_eq_bind,
    Option.bind_some, Option.pure_def]

/-- Swapping the filled TMP set in and destroying it leaves `restored`. -/
theorem swap_destroy_exec {t t3 : SetTable} {set : String} {fam : IpFamily} {body : SetBody}
    (h : Prepared t t3 set body.setType fam) :
    execPayload [.swap (tmpName set) set, .destroy (tmpName set)]
        (Function.update t3 (tmpName set) (some ⟨fam, body⟩)) =
      some (restored t set fam body) := by
  have hne := tmpName_ne set
  obtain ⟨s, hs, hsf, hst⟩ := h.live
  simp only [execPayload, List.foldlM_cons, List.foldlM_nil, IpsetCmd.exec, Function.update_self,
    Function.update_of_ne hne.symm, hs, hsf, hst, and_self, if_true, Option.bind_eq_bind,
    Option.bind_some, Function.update_of_ne hne, Option.map_some, Option.pure_def, Option.some_inj]
  funext n
  unfold restored
  by_cases hn : n = tmpName set
  · rw [hn, Function.update_self, Function.update_self]
  · by_cases hn' : n = set
    · rw [hn', Function.update_of_ne hne.symm, Function.update_of_ne hne.symm,
        Function.update_self, Function.update_self]
    · rw [Function.update_of_ne hn, Function.update_of_ne hn, Function.update_of_ne hn',
        Function.update_of_ne hn', Function.update_of_ne hn, Function.update_of_ne hn,
        h.other n hn' hn]

theorem execPayload_append (a b : List IpsetCmd) (t : SetTable) :
    execPayload (a ++ b) t = (execPayload a t).bind (execPayload b) := List.foldlM_append

/-- One restore: it succeeds exactly when both sets can be created and all entries fit. -/
theorem restore_exec {t t' : SetTable} {set : String} {fam : IpFamily} {body : SetBody} :
    execPayload (buildRestorePayload set fam body) t = some t' ↔
      CanCreate t set body.setType fam ∧ CanCreate t (tmpName set) body.setType fam ∧
        body.Fits fam ∧ t' = restored t set fam body := by
  rw [buildRestorePayload, execPayload_append, execPayload_append, Option.bind_eq_some_iff]
  constructor
  · intro h
    obtain ⟨t4, h4, h5⟩ := h
    obtain ⟨t3, h3, h4⟩ := Option.bind_eq_some_iff.mp h4
    obtain ⟨hc, hc', hp⟩ := prepare_exec h3
    obtain ⟨hfits, rfl⟩ := (addCmds_exec _ fam body t3 t4 hp.tmp).mp h4
    rw [swap_destroy_exec hp, Option.some_inj] at h5
    exact ⟨hc, hc', hfits, h5.symm⟩
  · intro h
    obtain ⟨hc, hc', hfits, rfl⟩ := h
    obtain ⟨t3, h3⟩ := exists_prepare hc hc'
    obtain ⟨-, -, hp⟩ := prepare_exec h3
    exact ⟨_, Option.bind_eq_some_iff.mpr
      ⟨t3, h3, (addCmds_exec _ fam body t3 _ hp.tmp).mpr ⟨hfits, rfl⟩⟩, swap_destroy_exec hp⟩

/-! ## A pass as a run of tool calls -/

/-- The calls all succeed and lead from `k` to `k'`. -/
def Ran (calls : List ToolCall) (k k' : Kernel) : Prop := runCalls calls k = (k', true)

theorem ran_nil {k k' : Kernel} : Ran [] k k' ↔ k = k' := by simp [Ran, runCalls]

theorem ran_cons {call : ToolCall} {calls : List ToolCall} {k k' : Kernel} :
    Ran (call :: calls) k k' ↔ ∃ m, call.exec k = some m ∧ Ran calls m k' := by
  unfold Ran
  rw [runCalls]
  cases call.exec k with
  | none => simp
  | some m => simp

theorem ran_append {a b : List ToolCall} {k k' : Kernel} :
    Ran (a ++ b) k k' ↔ ∃ m, Ran a k m ∧ Ran b m k' := by
  induction a generalizing k with
  | nil => simp [ran_nil]
  | cons call a ih =>
    simp only [List.cons_append, ran_cons, ih]
    constructor
    · intro h
      obtain ⟨m, hm, n, hn, hb⟩ := h
      exact ⟨n, ⟨m, hm, hn⟩, hb⟩
    · intro h
      obtain ⟨n, ⟨m, hm, hn⟩, hb⟩ := h
      exact ⟨m, hm, n, hn, hb⟩

theorem ran_of_ok {calls : List ToolCall} {k : Kernel} (h : (runCalls calls k).2 = true) :
    Ran calls k (runCalls calls k).1 := Prod.ext rfl h

/-- What every call keeps, a run of them keeps. -/
theorem ran_invariant {I : Kernel → Prop} {calls : List ToolCall} {k k' : Kernel}
    (keep : ∀ call ∈ calls, ∀ m m', I m → call.exec m = some m' → I m') (h0 : I k)
    (h : Ran calls k k') : I k' := by
  induction calls generalizing k with
  | nil => exact ran_nil.mp h ▸ h0
  | cons call calls ih =>
    obtain ⟨m, hm, hrest⟩ := ran_cons.mp h
    exact ih (fun c hc => keep c (List.mem_cons_of_mem _ hc))
      (keep call List.mem_cons_self k m h0 hm)
      hrest

/-- A cut pass ran some prefix of its calls. -/
theorem exists_ran_take (calls : List ToolCall) (j : Nat) (k : Kernel) :
    ∃ i, Ran (calls.take i) k (runCalls (calls.take j) k).1 := by
  induction calls generalizing j k with
  | nil => exact ⟨0, by simp [Ran, runCalls]⟩
  | cons call calls ih =>
    cases j with
    | zero => exact ⟨0, by simp [Ran, runCalls]⟩
    | succ j =>
      rw [List.take_succ_cons, runCalls]
      cases hc : call.exec k with
      | none => exact ⟨0, by simp [Ran, runCalls]⟩
      | some m =>
        obtain ⟨i, hi⟩ := ih j m
        exact ⟨i + 1, ran_cons.mpr ⟨m, hc, hi⟩⟩

theorem ran_take_append {a b : List ToolCall} {i : Nat} {k k' : Kernel}
    (h : Ran ((a ++ b).take i) k k') :
    Ran (a.take i) k k' ∨ ∃ m, Ran a k m ∧ Ran (b.take (i - a.length)) m k' := by
  rw [List.take_append, ran_append] at h
  obtain ⟨m, ha, hb⟩ := h
  by_cases hi : a.length ≤ i
  · rw [List.take_of_length_le hi] at ha
    exact Or.inr ⟨m, ha, hb⟩
  · rw [show i - a.length = 0 by omega, List.take_zero, ran_nil] at hb
    exact Or.inl (hb ▸ ha)

/-- The restores of a list of sets. -/
def setCalls (sets : List IpsetPlan) : List ToolCall :=
  sets.map fun s => .ipsetRestore (buildRestorePayload s.name s.family s.body)

/-- The set table after the restores of `sets`. -/
def applySets (sets : List IpsetPlan) (t : SetTable) : SetTable :=
  sets.foldl (fun t s => restored t s.name s.family s.body) t

theorem restore_call_exec {k k' : Kernel} {s : IpsetPlan} :
    (ToolCall.ipsetRestore (buildRestorePayload s.name s.family s.body)).exec k = some k' ↔
      CanCreate k.sets s.name s.body.setType s.family ∧
      CanCreate k.sets (tmpName s.name) s.body.setType s.family ∧ s.body.Fits s.family ∧
      k' = { k with sets := restored k.sets s.name s.family s.body } := by
  simp only [ToolCall.exec, Option.map_eq_some_iff, restore_exec]
  constructor
  · intro h
    obtain ⟨t, ⟨hc, hc', hf, rfl⟩, rfl⟩ := h
    exact ⟨hc, hc', hf, rfl⟩
  · intro h
    obtain ⟨hc, hc', hf, rfl⟩ := h
    exact ⟨_, ⟨hc, hc', hf, rfl⟩, rfl⟩

theorem ran_setCalls {sets : List IpsetPlan} {k k' : Kernel} (h : Ran (setCalls sets) k k') :
    k' = { k with sets := applySets sets k.sets } := by
  induction sets generalizing k with
  | nil => exact (ran_nil.mp h).symm
  | cons s sets ih =>
    obtain ⟨m, hm, hrest⟩ := ran_cons.mp h
    obtain ⟨-, -, -, rfl⟩ := restore_call_exec.mp hm
    exact ih hrest

theorem restored_other {t : SetTable} {set n : String} {fam : IpFamily} {body : SetBody}
    (hn : n ≠ set) (ht : n ≠ tmpName set) : restored t set fam body n = t n := by
  rw [restored, Function.update_of_ne ht, Function.update_of_ne hn]

theorem restored_self {t : SetTable} {set : String} {fam : IpFamily} {body : SetBody} :
    restored t set fam body set = some ⟨fam, body⟩ := by
  rw [restored, Function.update_of_ne (tmpName_ne set).symm, Function.update_self]

/-- A name no restore uses as TMP holds the last set restored under it. -/
theorem applySets_apply (sets : List IpsetPlan) (t : SetTable) (n : String)
    (h : ∀ s ∈ sets, n ≠ tmpName s.name) :
    applySets sets t n = match sets.reverse.find? (·.name == n) with
      | some s => some s.toSet
      | none => t n := by
  induction sets using List.reverseRecOn with
  | nil => rfl
  | append_singleton sets s ih =>
    have ih' := ih fun u hu => h u (List.mem_append_left _ hu)
    have hstep : applySets (sets ++ [s]) t =
      restored (applySets sets t) s.name s.family s.body := by
      rw [applySets, List.foldl_append]
      rfl
    rw [hstep, List.reverse_append, List.reverse_singleton, List.singleton_append]
    by_cases hn : s.name = n
    · rw [List.find?_cons_of_pos (by simp [hn]), ← hn, restored_self]
      rfl
    · rw [List.find?_cons_of_neg (by simp [hn]), restored_other (Ne.symm hn) (h s (by simp)), ih']

/-! ## Names of a plan's sets -/

theorem planned_ne_tmp {cfg : Config} {w : PolicyWorld} {family : IpFamily} {s : IpsetPlan}
    (h : s ∈ (buildPlan cfg w family).ipsets) (x : String) : s.name ≠ tmpName x := by
  intro hx
  rcases mem_buildPlan_ipsets.mp h with ⟨pol, -, dir, -, k, body, -, rfl⟩ | ⟨-, rfl⟩
  · rw [k.name_eq] at hx
    have hl := congrArg String.toList hx
    rcases k.side_eq with hk' | hk' <;> rw [hk'] at hl <;>
      simp [srcPrefix, dstPrefix, tmpName] at hl
  · have hl := congrArg String.toList hx
    cases family <;> simp [localPodsSet, localPodsSetName, tmpName] at hl

/-! ## What a pass installs -/

/-- Every chain and every set of the plan is in the kernel as planned. -/
structure Installed (cfg : Config) (w : PolicyWorld) (family : IpFamily) (k : Kernel) : Prop where
  chains : ∀ c ∈ (buildPlan cfg w family).chainDecls,
    k.chains family c = some (chainOf (buildPlan cfg w family).rules c)
  sets : ∀ s ∈ (buildPlan cfg w family).ipsets, k.sets s.name =
    ((buildPlan cfg w family).ipsets.reverse.find? (·.name == s.name)).map (·.toSet)

/-- The calls of a family behind its restores: the document and the builtin jumps. -/
def docCalls (cfg : Config) (w : PolicyWorld) (family : IpFamily) : List ToolCall :=
  [.restoreFilter family (buildPlan cfg w family).chainDecls (buildPlan cfg w family).rules,
   .ensureJump family "INPUT" routerInput,
   .ensureJump family "FORWARD" routerForward,
   .ensureJump family "OUTPUT" routerOutput]

section Pass

variable {cfg : Config} {w : PolicyWorld} {f g : IpFamily} {k k' : Kernel}

theorem familyCalls_eq : familyCalls cfg w f =
    setCalls (buildPlan cfg w f).ipsets ++ docCalls cfg w f := rfl

theorem ensureJump_exec {b target : String}
    (h : (ToolCall.ensureJump f b target).exec k = some k') :
    k'.sets = k.sets ∧ k'.chains = k.chains := by
  simp only [ToolCall.exec] at h
  split at h
  · rw [← Option.some_inj.mp h]
    exact ⟨rfl, rfl⟩
  · split at h
    · rw [← Option.some_inj.mp h]
      exact ⟨rfl, rfl⟩
    · cases h

theorem restoreFilter_exec {decls : List String} {rules : List Rule}
    (h : (ToolCall.restoreFilter f decls rules).exec k = some k') :
    k'.sets = k.sets ∧
      k'.chains = Function.update k.chains f (restoreChains (k.chains f) decls rules) := by
  simp only [ToolCall.exec] at h
  split at h
  · rw [← Option.some_inj.mp h]
    exact ⟨rfl, rfl⟩
  · cases h

/-- Builtin jumps move neither sets nor our chains. -/
theorem ran_jumps {calls : List ToolCall}
    (hj : ∀ call ∈ calls, ∃ b target, call = .ensureJump f b target) (h : Ran calls k k') :
    k'.sets = k.sets ∧ k'.chains = k.chains := by
  induction calls generalizing k with
  | nil =>
    rw [← ran_nil.mp h]
    exact ⟨rfl, rfl⟩
  | cons call calls ih =>
    obtain ⟨m, hm, hrest⟩ := ran_cons.mp h
    obtain ⟨b, target, rfl⟩ := hj call List.mem_cons_self
    obtain ⟨hs, hc⟩ := ensureJump_exec hm
    obtain ⟨hs', hc'⟩ := ih (fun c hc => hj c (List.mem_cons_of_mem _ hc)) hrest
    exact ⟨hs'.trans hs, hc'.trans hc⟩

/-- The document replaces the declared chains of its family and touches no set; the jumps
    behind it, as far as they got, change nothing of this. -/
theorem ran_docCalls_take (i : Nat) (h : Ran ((docCalls cfg w f).take (i + 1)) k k') :
    k'.sets = k.sets ∧ ∀ c ∈ (buildPlan cfg w f).chainDecls,
      k'.chains f c = some (chainOf (buildPlan cfg w f).rules c) := by
  rw [docCalls, List.take_succ_cons, ran_cons] at h
  obtain ⟨k1, h1, hrest⟩ := h
  obtain ⟨hs1, hc1⟩ := restoreFilter_exec h1
  obtain ⟨hs2, hc2⟩ := ran_jumps (f := f) (fun call hcall => by
    have hm := List.mem_of_mem_take hcall
    simp only [List.mem_cons, List.not_mem_nil, or_false] at hm
    rcases hm with rfl | rfl | rfl <;> exact ⟨_, _, rfl⟩) hrest
  refine ⟨hs2.trans hs1, ?_⟩
  intro c hc
  rw [hc2, hc1, Function.update_self, restoreChains, if_pos hc]
  rfl

theorem ran_docCalls (h : Ran (docCalls cfg w f) k k') :
    k'.sets = k.sets ∧ ∀ c ∈ (buildPlan cfg w f).chainDecls,
      k'.chains f c = some (chainOf (buildPlan cfg w f).rules c) := ran_docCalls_take 3 h

theorem applySets_planned (t : SetTable) {s : IpsetPlan} (hs : s ∈ (buildPlan cfg w f).ipsets) :
    applySets (buildPlan cfg w f).ipsets t s.name =
      ((buildPlan cfg w f).ipsets.reverse.find? (·.name == s.name)).map (·.toSet) := by
  obtain ⟨u, -, hfind, -⟩ := exists_find_planned hs
  rw [applySets_apply _ _ _ fun u _ => planned_ne_tmp hs u.name, hfind]
  rfl

theorem family_installed (h : Ran (familyCalls cfg w f) k k') : Installed cfg w f k' := by
  rw [familyCalls_eq, ran_append] at h
  obtain ⟨m, hm, hd⟩ := h
  obtain ⟨hs, hc⟩ := ran_docCalls hd
  have hmsets : m.sets = applySets (buildPlan cfg w f).ipsets k.sets := by rw [ran_setCalls hm]
  refine ⟨hc, ?_⟩
  intro s hsm
  rw [hs, hmsets]
  exact applySets_planned k.sets hsm

/-- A call of a pass that works for another family than `f`. -/
inductive Foreign (f : IpFamily) : ToolCall → Prop
  | restore (s : IpsetPlan) (hs : s.family ≠ f) :
      Foreign f (.ipsetRestore (buildRestorePayload s.name s.family s.body))
  | filter (g : IpFamily) (decls : List String) (rules : List Rule) (hg : g ≠ f) :
      Foreign f (.restoreFilter g decls rules)
  | jump (g : IpFamily) (b target : String) : Foreign f (.ensureJump g b target)

theorem familyCalls_foreign (hgf : g ≠ f) : ∀ call ∈ familyCalls cfg w g, Foreign f call := by
  intro call hcall
  rw [familyCalls_eq, List.mem_append] at hcall
  rcases hcall with hcall | hcall
  · obtain ⟨s, hs, rfl⟩ := List.mem_map.mp hcall
    exact .restore s (by rw [ipsets_family hs]; exact hgf)
  · simp only [docCalls, List.mem_cons, List.not_mem_nil, or_false] at hcall
    rcases hcall with rfl | rfl | rfl | rfl
    · exact .filter _ _ _ hgf
    · exact .jump _ _ _
    · exact .jump _ _ _
    · exact .jump _ _ _

/-- Calls for another family that succeed leave the chains and the sets of `f` alone: a restore
    under the name of one of these sets would fail. -/
theorem foreign_ran {calls : List ToolCall} (hcalls : ∀ call ∈ calls, Foreign f call)
    (h : Ran calls k k') :
    k'.chains f = k.chains f ∧ ∀ n, (∀ x, n ≠ tmpName x) → ∀ s, k.sets n = some s → s.family = f →
      k'.sets n = some s := by
  induction calls generalizing k with
  | nil =>
    rw [← ran_nil.mp h]
    exact ⟨rfl, fun n _ s hs _ => hs⟩
  | cons call calls ih =>
    obtain ⟨m, hm, hrest⟩ := ran_cons.mp h
    obtain ⟨hchains, hsets⟩ := ih (fun c hc => hcalls c (List.mem_cons_of_mem _ hc)) hrest
    cases hcalls call List.mem_cons_self with
    | restore u hu =>
      obtain ⟨hc, -, -, rfl⟩ := restore_call_exec.mp hm
      refine ⟨hchains, ?_⟩
      intro n hn s hs hf
      have hne : n ≠ u.name := by
        intro he
        rw [CanCreate, ← he, hs] at hc
        exact hu (hc.1.symm.trans hf)
      exact hsets n hn s ((restored_other hne (hn u.name)).trans hs) hf
    | filter g decls rules hg =>
      obtain ⟨hs1, hc1⟩ := restoreFilter_exec hm
      refine ⟨?_, ?_⟩
      · rw [hchains, hc1, Function.update_of_ne hg.symm]
      · intro n hn s hs hf
        exact hsets n hn s (by rw [hs1]; exact hs) hf
    | jump g b target =>
      obtain ⟨hs1, hc1⟩ := ensureJump_exec hm
      refine ⟨by rw [hchains, hc1], ?_⟩
      intro n hn s hs hf
      exact hsets n hn s (by rw [hs1]; exact hs) hf

/-- What calls for other families keep. -/
theorem installed_foreign {calls : List ToolCall} (hi : Installed cfg w f k)
    (hcalls : ∀ call ∈ calls, Foreign f call) (h : Ran calls k k') : Installed cfg w f k' := by
  obtain ⟨hchains, hsets⟩ := foreign_ran hcalls h
  refine ⟨?_, ?_⟩
  · intro c hc
    rw [hchains]
    exact hi.chains c hc
  · intro s hs
    obtain ⟨u, hu, hfind, -⟩ := exists_find_planned hs
    have hk := hi.sets s hs
    rw [hfind] at hk ⊢
    exact hsets s.name (planned_ne_tmp hs) _ hk (ipsets_family hu)

theorem installed_preserved (hi : Installed cfg w f k) (h : Ran (familyCalls cfg w g) k k') :
    Installed cfg w f k' := by
  by_cases hgf : g = f
  · subst hgf
    exact family_installed h
  · exact installed_foreign hi (familyCalls_foreign hgf) h

/-- A successful pass installs the plan of every family it covers. -/
theorem pass_installed {families : List IpFamily} (h : Ran (passCalls cfg families w) k k') :
    ∀ f ∈ families, Installed cfg w f k' := by
  induction families generalizing k with
  | nil => exact fun f hf => absurd hf List.not_mem_nil
  | cons g families ih =>
    rw [passCalls, List.flatMap_cons, ran_append] at h
    obtain ⟨m, hm, hrest⟩ := h
    intro f hf
    rcases List.mem_cons.mp hf with rfl | hf
    · -- The families behind this one keep it installed.
      have hkeep : ∀ (fs : List IpFamily) (m : Kernel), Installed cfg w f m →
          Ran (fs.flatMap (familyCalls cfg w)) m k' → Installed cfg w f k' := by
        intro fs
        induction fs with
        | nil => exact fun m hi hr => ran_nil.mp hr ▸ hi
        | cons g fs ihf =>
          intro m hi hr
          rw [List.flatMap_cons, ran_append] at hr
          obtain ⟨m', hm', hr⟩ := hr
          exact ihf m' (installed_preserved hi hm') hr
      exact hkeep families m (family_installed hm) hrest
    · exact ih hrest f hf

/-! ## A traversal reads what the plan declares -/

/-- An installed plan decides packets as the plan on its own does. -/
theorem traverse_installed (pkt : Packet) (hi : Installed cfg w pkt.family k) {c : String}
    (hc : c ∈ (buildPlan cfg w pkt.family).chainDecls) (n : Nat) :
    k.traverse n c pkt = traverse (buildPlan cfg w pkt.family).rules
      (planView (buildPlan cfg w pkt.family).ipsets) n c pkt := by
  have hrules : ∀ c ∈ (buildPlan cfg w pkt.family).chainDecls,
      (k.chains pkt.family c).getD [] = chainOf (buildPlan cfg w pkt.family).rules c := by
    intro c hc
    rw [hi.chains c hc]
    rfl
  have hmem : ∀ c ∈ (buildPlan cfg w pkt.family).chainDecls,
      ∀ r ∈ (k.chains pkt.family c).getD [], r ∈ (buildPlan cfg w pkt.family).rules := by
    intro c hc r hr
    rw [hrules c hc] at hr
    exact (List.mem_filter.mp hr).1
  refine Filter.evalChain_congr (· ∈ (buildPlan cfg w pkt.family).chainDecls) hrules ?_ ?_ n c hc _
  · intro c hc r hr cond hcond
    cases hset : cond.setName with
    | none => exact holds_of_noSet hset _ _
    | some name =>
      obtain ⟨s, hs, hname, -⟩ := (buildPlan_declares (hmem c hc r hr)).set cond hcond name hset
      have hview : ∀ x, k.setView name x = planView (buildPlan cfg w pkt.family).ipsets name x := by
        intro x
        rw [Kernel.setView, planView, ← hname, hi.sets s hs]
        cases (buildPlan cfg w pkt.family).ipsets.reverse.find? (·.name == s.name) <;> rfl
      cases cond with
      | matchSet neg set side =>
        obtain rfl : set = name := Option.some.inj hset
        simp only [Cond.holds, hview]
      | _ => cases hset
  · intro c hc r hr d hd
    exact (buildPlan_declares (hmem c hc r hr)).jump d hd

theorem hook_declared (h : Hook) : h.chain ∈ (buildPlan cfg w f).chainDecls := by
  cases h <;> exact fixed_declared (by decide)

/-! ## A pass that succeeds succeeds on a clean kernel -/

/-- No set has a name longer than `ipset` takes. -/
def NamesFit (t : SetTable) : Prop := ∀ n s, t n = some s → n.length ≤ maxSetName

/-- Every set of `c` is in `t`, with the same family and type. -/
def Within (c t : SetTable) : Prop :=
  ∀ n s, c n = some s → ∃ s', t n = some s' ∧ s'.family = s.family ∧
      s'.body.setType = s.body.setType

theorem CanCreate.length_le {t : SetTable} {n : String} {typ : SetType} {fam : IpFamily}
    (h : CanCreate t n typ fam) (hfit : NamesFit t) : n.length ≤ maxSetName := by
  unfold CanCreate at h
  cases ht : t n with
  | none => rwa [ht] at h
  | some s => exact hfit n s ht

theorem CanCreate.within {c t : SetTable} {n : String} {typ : SetType} {fam : IpFamily}
    (h : CanCreate t n typ fam) (hfit : NamesFit t) (hw : Within c t) : CanCreate c n typ fam := by
  have hlen := h.length_le hfit
  unfold CanCreate at h ⊢
  cases hc : c n with
  | none => exact hlen
  | some s =>
    obtain ⟨s', hs', hfam, htyp⟩ := hw n s hc
    rw [hs'] at h
    exact ⟨hfam.symm.trans h.1, htyp.symm.trans h.2⟩

theorem restored_cases {t : SetTable} {set n : String} {fam : IpFamily} {body : SetBody} {s : IpSet}
    (h : restored t set fam body n = some s) :
    (n = set ∧ s = ⟨fam, body⟩) ∨ (n ≠ set ∧ n ≠ tmpName set ∧ t n = some s) := by
  by_cases ht : n = tmpName set
  · rw [ht, restored, Function.update_self] at h
    cases h
  · by_cases hn : n = set
    · rw [hn, restored_self] at h
      exact Or.inl ⟨hn, (Option.some.inj h).symm⟩
    · rw [restored_other hn ht] at h
      exact Or.inr ⟨hn, ht, h⟩

theorem NamesFit.restored {t : SetTable} {set : String} {fam : IpFamily} {body : SetBody}
    (hfit : NamesFit t) (hlen : set.length ≤ maxSetName) : NamesFit (restored t set fam body) := by
  intro n s h
  rcases restored_cases h with ⟨rfl, -⟩ | ⟨-, -, h⟩
  · exact hlen
  · exact hfit n s h

theorem Within.restored {c t : SetTable} {set : String} {fam : IpFamily} {body : SetBody}
    (hw : Within c t) : Within (restored c set fam body) (restored t set fam body) := by
  intro n s h
  rcases restored_cases h with ⟨rfl, rfl⟩ | ⟨hn, ht, h⟩
  · exact ⟨_, restored_self, rfl, rfl⟩
  · rw [restored_other hn ht]
    exact hw n s h

theorem ran_setCalls_within {sets : List IpsetPlan} {c : Kernel} (hfit : NamesFit k.sets)
    (hw : Within c.sets k.sets) (h : Ran (setCalls sets) k k') :
    NamesFit k'.sets ∧ ∃ c', Ran (setCalls sets) c c' ∧ Within c'.sets k'.sets := by
  induction sets generalizing k c with
  | nil =>
    rw [← ran_nil.mp h]
    exact ⟨hfit, c, ran_nil.mpr rfl, hw⟩
  | cons s sets ih =>
    obtain ⟨m, hm, hrest⟩ := ran_cons.mp h
    obtain ⟨hc, hc', hfits, rfl⟩ := restore_call_exec.mp hm
    obtain ⟨hfit', c', hc'', hw'⟩ := ih (hfit.restored (hc.length_le hfit))
      (hw.restored : Within (restored c.sets s.name s.family s.body) _)
      (c := { c with sets := restored c.sets s.name s.family s.body }) hrest
    have hexec := restore_call_exec.mpr
      ⟨hc.within hfit hw, hc'.within hfit hw, hfits, (rfl : _ = { c with sets := _ })⟩
    exact ⟨hfit', c', ran_cons.mpr ⟨_, hexec, hc''⟩, hw'⟩

theorem ensureJump_ok {b target : String} (h : (k.chains f target).isSome) :
    ∃ m, (ToolCall.ensureJump f b target).exec k = some m := by
  by_cases ht : target ∈ k.builtin f b
  · exact ⟨k, if_pos ht⟩
  · exact ⟨_, (if_neg ht).trans (if_pos h)⟩

/-- With the plan's sets in place its document is accepted. -/
theorem docCalls_ok (hsets : ∀ s ∈ (buildPlan cfg w f).ipsets,
    ∃ x, k.sets s.name = some x ∧ x.family = f) : ∃ m, Ran (docCalls cfg w f) k m := by
  have haccept : (buildPlan cfg w f).rules.all (acceptsRule k.sets f fun c =>
      c ∈ (buildPlan cfg w f).chainDecls || (k.chains f c).isSome) = true := by
    rw [List.all_eq_true]
    intro r hr
    have hdecl := buildPlan_declares hr
    have hconds : r.conds.all (fun c => c.setName.all fun s =>
      (k.sets s).any (·.family == f)) = true := by
      rw [List.all_eq_true]
      intro cond hcond
      cases hset : cond.setName with
      | none => rfl
      | some name =>
        obtain ⟨s, hs, rfl, -⟩ := hdecl.set cond hcond name hset
        obtain ⟨x, hx, hfam⟩ := hsets s hs
        simp [hx, hfam]
    rw [acceptsRule, Bool.and_eq_true, Bool.and_eq_true]
    refine ⟨⟨by simp [hdecl.chain], ?_⟩, hconds⟩
    cases ht : r.target with
    | jump c => simp [hdecl.jump c ht]
    | _ => rfl
  have h1 : ∃ m, (ToolCall.restoreFilter f (buildPlan cfg w f).chainDecls
      (buildPlan cfg w f).rules).exec k = some m := by
    simp only [ToolCall.exec]
    rw [if_pos haccept]
    exact ⟨_, rfl⟩
  obtain ⟨m1, h1⟩ := h1
  have hsome : ∀ h : Hook, (m1.chains f h.chain).isSome := by
    intro h
    rw [(restoreFilter_exec h1).2, Function.update_self, restoreChains, if_pos (hook_declared h)]
    rfl
  obtain ⟨m2, h2⟩ := ensureJump_ok (b := "INPUT") (hsome .input)
  have hc2 := (ensureJump_exec h2).2
  obtain ⟨m3, h3⟩ := ensureJump_ok (k := m2) (b := "FORWARD") (hc2 ▸ hsome .forward)
  have hc3 := (ensureJump_exec h3).2
  obtain ⟨m4, h4⟩ := ensureJump_ok (k := m3) (b := "OUTPUT") (hc3 ▸ hc2 ▸ hsome .output)
  refine ⟨m4, ?_⟩
  simp only [docCalls, ran_cons, ran_nil]
  exact ⟨m1, h1, m2, h2, m3, h3, m4, h4, rfl⟩

/-- Behind its restores the sets of a plan are in the kernel, with the plan's family. -/
theorem sets_in_place (h : Ran (setCalls (buildPlan cfg w f).ipsets) k k') :
    ∀ s ∈ (buildPlan cfg w f).ipsets, ∃ x, k'.sets s.name = some x ∧ x.family = f := by
  intro s hs
  have happ : k'.sets = applySets (buildPlan cfg w f).ipsets k.sets := by rw [ran_setCalls h]
  obtain ⟨u, hu, hfind, -⟩ := exists_find_planned hs
  refine ⟨u.toSet, ?_, ipsets_family hu⟩
  rw [happ, applySets_planned k.sets hs, hfind]
  rfl

theorem family_within {c : Kernel} (hfit : NamesFit k.sets) (hw : Within c.sets k.sets)
    (h : Ran (familyCalls cfg w f) k k') :
    NamesFit k'.sets ∧ ∃ c', Ran (familyCalls cfg w f) c c' ∧ Within c'.sets k'.sets := by
  rw [familyCalls_eq, ran_append] at h
  obtain ⟨m, hm, hd⟩ := h
  obtain ⟨hfit', c1, hc1, hw1⟩ := ran_setCalls_within hfit hw hm
  obtain ⟨c', hc'⟩ := docCalls_ok (sets_in_place hc1)
  rw [(ran_docCalls hd).1]
  refine ⟨hfit', c', ran_append.mpr ⟨c1, hc1, hc'⟩, ?_⟩
  rw [(ran_docCalls hc').1]
  exact hw1

theorem pass_within {families : List IpFamily} {c : Kernel} (hfit : NamesFit k.sets)
    (hw : Within c.sets k.sets) (h : Ran (passCalls cfg families w) k k') :
    NamesFit k'.sets ∧ ∃ c', Ran (passCalls cfg families w) c c' ∧ Within c'.sets k'.sets := by
  induction families generalizing k c with
  | nil =>
    rw [← ran_nil.mp h]
    exact ⟨hfit, c, ran_nil.mpr rfl, hw⟩
  | cons f families ih =>
    rw [passCalls, List.flatMap_cons, ran_append] at h
    obtain ⟨m, hm, hrest⟩ := h
    obtain ⟨hfit1, c1, hc1, hw1⟩ := family_within hfit hw hm
    obtain ⟨hfit2, c2, hc2, hw2⟩ := ih hfit1 hw1 hrest
    refine ⟨hfit2, c2, ?_, hw2⟩
    rw [passCalls, List.flatMap_cons, ran_append]
    exact ⟨c1, hc1, hc2⟩

end Pass

/-! ## Runs -/

/-- Passes over the worlds in order, and whether all of them returned `Ok`. -/
def reconcileAll (cfg : Config) (families : List IpFamily) :
    List PolicyWorld → Kernel → Kernel × Bool
  | [], k => (k, true)
  | w :: ws, k =>
    let r := reconcile cfg families w k
    let rest := reconcileAll cfg families ws r.1
    (rest.1, r.2 && rest.2)

section Runs

variable {cfg : Config} {families : List IpFamily} {w : PolicyWorld} {k : Kernel}

/-- Names keep fitting along a run of successful passes, and its last pass leaves its plan
    installed; on a clean kernel that pass succeeds too. -/
theorem reconcileAll_last (ws : List PolicyWorld) (hfit : NamesFit k.sets)
    (hok : (reconcileAll cfg families (ws ++ [w]) k).2 = true) :
    (∀ f ∈ families, Installed cfg w f (reconcileAll cfg families (ws ++ [w]) k).1) ∧
      (reconcile cfg families w .clean).2 = true := by
  induction ws generalizing k with
  | nil =>
    have hpass : (runCalls (passCalls cfg families w) k).2 = true := by
      simpa [reconcileAll, reconcile] using hok
    have hran := ran_of_ok hpass
    have hclean : Within Kernel.clean.sets k.sets := fun n s h => by cases h
    obtain ⟨-, c', hc', -⟩ := pass_within hfit hclean hran
    refine ⟨pass_installed hran, ?_⟩
    rw [reconcile, hc']
  | cons v ws ih =>
    have hok' : (runCalls (passCalls cfg families v) k).2 = true ∧
        (reconcileAll cfg families (ws ++ [w])
          (runCalls (passCalls cfg families v) k).1).2 = true := by
      simpa [reconcileAll, reconcile] using hok
    have hclean : Within Kernel.clean.sets k.sets := fun n s h => by cases h
    obtain ⟨hfit', -⟩ := pass_within hfit hclean (ran_of_ok hok'.1)
    exact ih hfit' hok'.2

/-- After a run of successful passes every packet of a configured family is decided as after
    one pass over the last world on a clean kernel. -/
theorem history_independent (ws : List PolicyWorld) (hfit : NamesFit k.sets)
    (hok : (reconcileAll cfg families (ws ++ [w]) k).2 = true) :
    (reconcile cfg families w .clean).2 = true ∧
      ∀ pkt : Packet, pkt.family ∈ families → ∀ (h : Hook) (n : Nat),
        (reconcileAll cfg families (ws ++ [w]) k).1.traverse n h.chain pkt =
          (reconcile cfg families w .clean).1.traverse n h.chain pkt := by
  obtain ⟨hinst, hclean⟩ := reconcileAll_last ws hfit hok
  refine ⟨hclean, ?_⟩
  intro pkt hpkt h n
  have hinst' : Installed cfg w pkt.family (reconcile cfg families w .clean).1 :=
    pass_installed (ran_of_ok hclean) _ hpkt
  rw [traverse_installed pkt (hinst _ hpkt) (hook_declared h),
    traverse_installed pkt hinst' (hook_declared h)]

/-- A pass over `frontWorld` in front of one over `allWorld` leaves no trace. -/
theorem history_independent_sample :
    (reconcile sampleConfig [.V4] allWorld .clean).2 = true ∧ ∀ (h : Hook) (n : Nat),
      (reconcileAll sampleConfig [.V4] ([frontWorld] ++ [allWorld]) .clean).1.traverse n h.chain
          (cartToPay 80) =
        (reconcile sampleConfig [.V4] allWorld .clean).1.traverse n h.chain (cartToPay 80) := by
  have hfit : NamesFit Kernel.clean.sets := fun n s h => by cases h
  have hrun : (reconcileAll sampleConfig [.V4] ([frontWorld] ++ [allWorld]) .clean).2 = true := by
    decide +kernel
  obtain ⟨hok, hsame⟩ := history_independent [frontWorld] hfit hrun
  exact ⟨hok, hsame (cartToPay 80) (by decide)⟩

end Runs

end KubeRouter.Netpol
