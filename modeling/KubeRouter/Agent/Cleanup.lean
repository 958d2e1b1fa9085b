/-
  Teardown (`cleanup.rs`): the command plan of `--cleanup-config`, its execution, and the sweep
  of the dynamically named chains.

  The node's filter tables and sets are lists here, in the order the tools list them, so that
  "in any order" is "for every list". A command that fails changes nothing: `-X` fails while the
  chain has rules or something jumps to it, `ipset destroy` while a rule matches the set. The
  commands for IPVS, interfaces, routes and the nat table touch nothing that is modelled.

  Proved:
  * `cleanup_removes_iff`: after any run of passes of the firewall controller, exactly when the
    teardown removes everything the controller owns.
  * `policy_sets_stay`: it does not in general.
-/
import KubeRouter.Netpol.Footprint
import KubeRouter.Netpol.Soundness
import KubeRouter.Agent.Config

namespace KubeRouter.Agent

open KubeRouter.Netpol

/-! ## The plan -/

structure CleanupCmd where
  desc : String
  prog : String
  args : List String
deriving DecidableEq, Repr

def cmd (desc prog : String) (args : List String) : CleanupCmd := ⟨desc, prog, args⟩

def firewallCmds : List CleanupCmd :=
  (["INPUT", "FORWARD", "OUTPUT"].map fun chain =>
    cmd "unhook KUBE-ROUTER filter jump" "iptables"
      ["-w", "-t", "filter", "-D", chain, "-j", "KUBE-ROUTER-" ++ chain]) ++
  (["KUBE-ROUTER-INPUT", "KUBE-ROUTER-FORWARD", "KUBE-ROUTER-OUTPUT"].flatMap fun chain =>
    [cmd "flush filter chain" "iptables" ["-w", "-t", "filter", "-F", chain],
     cmd "delete filter chain" "iptables" ["-w", "-t", "filter", "-X", chain]]) ++
  (["kube-router-local-pods", "inet6:kube-router-local-pods"].map fun set =>
    cmd "destroy ipset" "ipset" ["destroy", set])

def serviceProxyCmds : List CleanupCmd :=
  [cmd "clear all IPVS services" "ipvsadm" ["-C"],
   cmd "delete kube-dummy-if" "ip" ["link", "del", "kube-dummy-if"],
   cmd "unhook KUBE-ROUTER-SERVICES INPUT jump" "iptables"
     ["-w", "-t", "filter", "-D", "INPUT", "-j", "KUBE-ROUTER-SERVICES"],
   cmd "flush KUBE-ROUTER-SERVICES" "iptables" ["-w", "-t", "filter", "-F", "KUBE-ROUTER-SERVICES"],
   cmd "delete KUBE-ROUTER-SERVICES" "iptables" ["-w", "-t", "filter",
       "-X", "KUBE-ROUTER-SERVICES"],
   cmd "flush KUBE-ROUTER-HAIRPIN" "iptables" ["-w", "-t", "nat", "-F", "KUBE-ROUTER-HAIRPIN"],
   cmd "delete KUBE-ROUTER-HAIRPIN" "iptables" ["-w", "-t", "nat", "-X", "KUBE-ROUTER-HAIRPIN"]] ++
  (["kube-router-local-ips", "kube-router-svip", "kube-router-svip-prt",
    "inet6:kube-router-local-ips", "inet6:kube-router-svip", "inet6:kube-router-svip-prt"].map
    fun set => cmd "destroy ipset" "ipset" ["destroy", set])

def routerCmds : List CleanupCmd :=
  [cmd "flush DSR route table" "ip" ["route", "flush", "table", "78"],
   cmd "flush external-IP route table" "ip" ["route", "flush", "table", "79"],
   cmd "delete DSR ip rule" "ip" ["rule", "del", "table", "78"],
   cmd "delete external-IP ip rule" "ip" ["rule", "del", "table", "79"],
   cmd "delete kube-tunnel-if" "ip" ["link", "del", "kube-tunnel-if"],
   cmd "delete kube-tunnel-v6" "ip" ["link", "del", "kube-tunnel-v6"]]

/-- Proxy, then firewall, then router. -/
def cleanupPlan (config : KubeRouterConfig) : List CleanupCmd :=
  (if config.runServiceProxy then serviceProxyCmds else []) ++
  (if config.runFirewall then firewallCmds else []) ++
  (if config.runRouter then routerCmds else [])

/-! ## The node -/

/-- The sets, the user chains of the filter tables in listing order, and the jumps at the head
of the builtin chains. -/
structure Host where
  sets : List String
  chains : IpFamily → List (String × List Rule)
  builtin : IpFamily → String → List String

def builtinChains : List String := ["INPUT", "FORWARD", "OUTPUT"]

namespace Host

/-- The host lists what the kernel has. -/
structure Lists (h : Host) (k : Kernel) : Prop where
  sets : ∀ n, n ∈ h.sets ↔ (k.sets n).isSome = true
  chains : ∀ family c rs, (c, rs) ∈ h.chains family ↔ k.chains family c = some rs
  builtin : h.builtin = k.builtin

/-- The listing of what a run of passes left. -/
def ofPasses (passes : List Pass) : Host where
  sets := (passes.flatMap Pass.setNames).filter fun n => ((runPasses passes).sets n).isSome
  chains := fun family => (passes.flatMap Pass.chainNames).filterMap fun c =>
    ((runPasses passes).chains family c).map (c, ·)
  builtin := (runPasses passes).builtin

theorem ofPasses_lists (passes : List Pass) : (ofPasses passes).Lists (runPasses passes) where
  sets := by
    intro n
    rw [ofPasses, List.mem_filter]
    exact ⟨fun h => h.2, fun h => ⟨(runPasses_named passes).1 n h, h⟩⟩
  chains := by
    intro family c rs
    simp only [ofPasses, List.mem_filterMap, Option.map_eq_some_iff, Prod.mk.injEq]
    constructor
    · rintro ⟨d, -, rs', hrs, rfl, rfl⟩
      exact hrs
    · intro h
      exact ⟨c, (runPasses_named passes).2 family c (by rw [h]; rfl), rs, h, rfl, rfl⟩
  builtin := rfl

def jumpsTo (c : String) (r : Rule) : Bool := r.target == .jump c

def matchesSet (n : String) (r : Rule) : Bool := r.conds.any fun cond => cond.setName == some n

/-- A rule of the family's table jumps to the chain, or a builtin chain does. -/
def referenced (h : Host) (family : IpFamily) (c : String) : Bool :=
  (h.chains family).any (fun e => e.2.any (jumpsTo c)) ||
    builtinChains.any fun b => (h.builtin family b).contains c

/-- `-D <builtin> -j <target>`: the first such rule. -/
def unhook (h : Host) (family : IpFamily) (b target : String) : Host :=
  { h with
    builtin := Function.update h.builtin family
      (Function.update (h.builtin family) b ((h.builtin family b).erase target)) }

/-- `-F <chain>`. -/
def flush (h : Host) (family : IpFamily) (c : String) : Host :=
  { h with
    chains := Function.update h.chains family
      ((h.chains family).map fun e => if e.1 = c then (e.1, []) else e) }

/-- `-X <chain>`. -/
def delete (h : Host) (family : IpFamily) (c : String) : Host :=
  if (h.chains family).all (fun e => e.1 != c || e.2.isEmpty) && !h.referenced family c then
    { h with chains := Function.update h.chains family ((h.chains family).filter (·.1 != c)) }
  else h

/-- `ipset destroy <set>`. -/
def destroy (h : Host) (n : String) : Host :=
  if [IpFamily.V4, .V6].any fun family => (h.chains family).any fun e =>
      e.2.any (matchesSet n) then h
  else { h with sets := h.sets.filter (· != n) }

/-- `iptables` and `ip6tables` on the filter table. -/
def iptables (h : Host) (family : IpFamily) (args : List String) : Host :=
  match args with
  | ["-w", "-t", "filter", "-D", b, "-j", target] => h.unhook family b target
  | ["-w", "-t", "filter", "-F", c] => h.flush family c
  | ["-w", "-t", "filter", "-X", c] => h.delete family c
  | _ => h

end Host

def CleanupCmd.exec (c : CleanupCmd) (h : Host) : Host :=
  if c.prog = "iptables" then h.iptables .V4 c.args
  else if c.prog = "ip6tables" then h.iptables .V6 c.args
  else if c.prog = "ipset" then
    match c.args with
    | ["destroy", n] => h.destroy n
    | _ => h
  else h

def runPlan (plan : List CleanupCmd) (h : Host) : Host := plan.foldl (fun h c => c.exec h) h

/-- The chains `sweep_dynamic_chains` picks from the listing. -/
def sweptChains (h : Host) (family : IpFamily) : List String :=
  ((h.chains family).map (·.1)).filter fun c => isPodChain c || isPolicyChain c

def sweepFamily (h : Host) (family : IpFamily) : Host :=
  (sweptChains h family).foldl (fun h c => (h.flush family c).delete family c) h

def sweepDynamicChains (h : Host) : Host := sweepFamily (sweepFamily h .V4) .V6

/-- `cleanup::run`. -/
def cleanup (config : KubeRouterConfig) (h : Host) : Host :=
  let h := runPlan (cleanupPlan config) h
  if config.runFirewall then sweepDynamicChains h else h

/-- Nothing of the firewall controller is left. -/
structure Gone (h : Host) : Prop where
  chains : ∀ family, ∀ e ∈ h.chains family,
    e.1 ∉ topChains ∧ isPodChain e.1 = false ∧ isPolicyChain e.1 = false
  jumps : ∀ family, ∀ b ∈ builtinChains, ∀ t ∈ h.builtin family b,
    t ∉ topChains ∧ isPodChain t = false ∧ isPolicyChain t = false
  sets : ∀ n ∈ h.sets, isPolicySet n = false ∧ n ≠ localPodsSet .V4 ∧ n ≠ localPodsSet .V6

/-! ## Teardown only takes away -/

/-- Everything of `h'` is in `h`. -/
structure Host.Le (h' h : Host) : Prop where
  sets : ∀ n ∈ h'.sets, n ∈ h.sets
  chains : ∀ family, ∀ e ∈ h'.chains family, ∃ rs, (e.1, rs) ∈ h.chains family ∧ ∀ r ∈ e.2, r ∈ rs
  builtin : ∀ family b, ∀ t ∈ h'.builtin family b, t ∈ h.builtin family b

namespace Host

variable {h h' h'' : Host} {family : IpFamily} {c n : String}

theorem Le.refl (h : Host) : Le h h :=
  ⟨fun _ hn => hn, fun _ e he => ⟨e.2, he, fun _ hr => hr⟩, fun _ _ _ ht => ht⟩

theorem Le.trans (h1 : Le h'' h') (h2 : Le h' h) : Le h'' h where
  sets := fun n hn => h2.sets n (h1.sets n hn)
  chains := by
    intro family e he
    obtain ⟨rs, hrs, hsub⟩ := h1.chains family e he
    obtain ⟨rs', hrs', hsub'⟩ := h2.chains family (e.1, rs) hrs
    exact ⟨rs', hrs', fun r hr => hsub' r (hsub r hr)⟩
  builtin := fun family b t ht => h2.builtin family b t (h1.builtin family b t ht)

theorem flush_other {f : IpFamily} (hf : f ≠ family) : (h.flush family c).chains f = h.chains f :=
  Function.update_of_ne hf ..

theorem mem_flush {e : String × List Rule} :
    e ∈ (h.flush family c).chains family ↔
      (e ∈ h.chains family ∧ e.1 ≠ c) ∨ (e = (c, []) ∧ ∃ rs, (c, rs) ∈ h.chains family) := by
  simp only [flush, Function.update_self, List.mem_map]
  constructor
  · intro he
    obtain ⟨e', he', heq⟩ := he
    split at heq
    · rename_i hc
      subst hc
      exact Or.inr ⟨heq.symm, e'.2, he'⟩
    · rename_i hc
      subst heq
      exact Or.inl ⟨he', hc⟩
  · intro he
    rcases he with ⟨he, hc⟩ | ⟨rfl, rs, hrs⟩
    · exact ⟨e, he, if_neg hc⟩
    · exact ⟨(c, rs), hrs, if_pos rfl⟩

theorem delete_other {f : IpFamily} (hf : f ≠ family) :
    (h.delete family c).chains f = h.chains f := by
  unfold delete
  split
  · exact Function.update_of_ne hf ..
  · rfl

theorem mem_of_mem_delete {f : IpFamily} {e : String × List Rule}
    (he : e ∈ (h.delete family c).chains f) : e ∈ h.chains f := by
  unfold delete at he
  split at he
  · by_cases hf : f = family
    · subst hf
      simp only [Function.update_self] at he
      exact List.mem_of_mem_filter he
    · simpa only [Function.update_of_ne hf] using he
  · exact he

theorem mem_delete_of_ne {e : String × List Rule} (he : e ∈ h.chains family) (hne : e.1 ≠ c) :
    e ∈ (h.delete family c).chains family := by
  unfold delete
  split
  · simp only [Function.update_self, List.mem_filter]
    exact ⟨he, by simpa using hne⟩
  · exact he

theorem delete_sets : (h.delete family c).sets = h.sets := by
  unfold delete
  split <;> rfl

theorem delete_builtin : (h.delete family c).builtin = h.builtin := by
  unfold delete
  split <;> rfl

theorem mem_unhook {f : IpFamily} {b b' target t : String}
    (ht : t ∈ (h.unhook family b target).builtin f b') : t ∈ h.builtin f b' := by
  unfold unhook at ht
  by_cases hf : f = family
  · subst hf
    simp only [Function.update_self] at ht
    by_cases hb : b' = b
    · subst hb
      rw [Function.update_self] at ht
      exact List.mem_of_mem_erase ht
    · rwa [Function.update_of_ne hb] at ht
  · simpa only [Function.update_of_ne hf] using ht

theorem unhook_le (b target : String) : Le (h.unhook family b target) h :=
  ⟨fun _ hn => hn, fun _ e he => ⟨e.2, he, fun _ hr => hr⟩, fun _ _ _ ht => mem_unhook ht⟩

theorem flush_le : Le (h.flush family c) h where
  sets := fun _ hn => hn
  chains := by
    intro f e he
    by_cases hf : f = family
    · subst hf
      rcases mem_flush.mp he with ⟨he, -⟩ | ⟨rfl, rs, hrs⟩
      · exact ⟨e.2, he, fun _ hr => hr⟩
      · exact ⟨rs, hrs, fun r hr => absurd hr List.not_mem_nil⟩
    · rw [flush_other hf] at he
      exact ⟨e.2, he, fun _ hr => hr⟩
  builtin := fun _ _ _ ht => ht

theorem delete_le : Le (h.delete family c) h where
  sets := fun n hn => by rwa [delete_sets] at hn
  chains := fun _ e he => ⟨e.2, mem_of_mem_delete he, fun _ hr => hr⟩
  builtin := fun family b t ht => by rwa [delete_builtin] at ht

theorem destroy_le : Le (h.destroy n) h := by
  unfold destroy
  split
  · exact .refl h
  · exact ⟨fun _ hm => List.mem_of_mem_filter hm, fun _ e he => ⟨e.2, he, fun _ hr => hr⟩,
      fun _ _ _ ht => ht⟩

theorem iptables_le (args : List String) : Le (h.iptables family args) h := by
  unfold iptables
  split
  · exact unhook_le _ _
  · exact flush_le
  · exact delete_le
  · exact .refl h

theorem foldl_le {α : Type} {f : Host → α → Host} (hf : ∀ h a, Le (f h a) h)
    (l : List α) (h : Host) :
    Le (l.foldl f h) h := by
  induction l generalizing h with
  | nil => exact .refl h
  | cons a l ih => exact (ih (f h a)).trans (hf h a)

end Host

theorem CleanupCmd.exec_le (c : CleanupCmd) (h : Host) : Host.Le (c.exec h) h := by
  unfold exec
  split
  · exact Host.iptables_le _
  · split
    · exact Host.iptables_le _
    · split
      · split
        · exact Host.destroy_le
        · exact .refl h
      · exact .refl h

theorem runPlan_le (plan : List CleanupCmd) (h : Host) : Host.Le (runPlan plan h) h :=
  Host.foldl_le (fun h c => c.exec_le h) plan h

theorem runPlan_append (a b : List CleanupCmd) (h : Host) :
    runPlan (a ++ b) h = runPlan b (runPlan a h) := List.foldl_append

theorem sweep_step_le (h : Host) (family : IpFamily) (c : String) :
    Host.Le ((h.flush family c).delete family c) h := Host.delete_le.trans Host.flush_le

theorem sweepFamily_le (h : Host) (family : IpFamily) : Host.Le (sweepFamily h family) h :=
  Host.foldl_le (fun h c => sweep_step_le h family c) _ h

/-! ## What is taken away -/

/-- Nothing refers to the chain. -/
def Host.Free (h : Host) (family : IpFamily) (c : String) : Prop :=
  (∀ e ∈ h.chains family, ∀ r ∈ e.2, r.target ≠ .jump c) ∧
    ∀ b ∈ builtinChains, c ∉ h.builtin family b

section Removed

variable {h h' : Host} {family : IpFamily} {c n : String}

theorem Host.Le.builtin_nil (hle : Host.Le h' h) {b : String} (hnil : h.builtin family b = []) :
    h'.builtin family b = [] := by
  refine List.eq_nil_iff_forall_not_mem.mpr fun t ht => ?_
  have hold := hle.builtin family b t ht
  rw [hnil] at hold
  cases hold

theorem Host.Free.mono (hfree : h.Free family c) (hle : Host.Le h' h) : h'.Free family c := by
  refine ⟨?_, fun b hb ht => hfree.2 b hb (hle.builtin family b c ht)⟩
  intro e he r hr
  obtain ⟨rs, hrs, hsub⟩ := hle.chains family e he
  exact hfree.1 (e.1, rs) hrs r (hsub r hr)

theorem Host.Free.not_referenced (hfree : h.Free family c) : h.referenced family c = false := by
  rw [Host.referenced, Bool.or_eq_false_iff]
  constructor
  · rw [List.any_eq_false]
    intro e he
    rw [List.any_eq_true]
    rintro ⟨r, hr, hjump⟩
    exact hfree.1 e he r hr (by simpa [Host.jumpsTo] using hjump)
  · rw [List.any_eq_false]
    intro b hb
    simpa using hfree.2 b hb

/-- Flushing and deleting a chain nothing refers to removes it. -/
theorem flush_delete_gone (hfree : h.Free family c) :
    ∀ e ∈ ((h.flush family c).delete family c).chains family, e.1 ≠ c := by
  have hempty : ((h.flush family c).chains family).all (fun e => e.1 != c || e.2.isEmpty) =
      true := by
    rw [List.all_eq_true]
    intro e he
    rcases Host.mem_flush.mp he with ⟨-, hne⟩ | ⟨rfl, -⟩
    · simp [hne]
    · simp
  have hle : Host.Le (h.flush family c) h := Host.flush_le
  have href := (hfree.mono hle).not_referenced
  intro e he
  rw [Host.delete, hempty, href] at he
  simp only [Bool.not_false, Bool.and_self, if_true, Function.update_self, List.mem_filter] at he
  simpa using he.2

theorem Host.Le.chain_absent (hle : Host.Le h' h) (habs : ∀ e ∈ h.chains family, e.1 ≠ c) :
    ∀ e ∈ h'.chains family, e.1 ≠ c := by
  intro e he
  obtain ⟨rs, hrs, -⟩ := hle.chains family e he
  exact habs (e.1, rs) hrs

/-- The sweep removes every chain it lists when nothing refers to one of them, in whatever order
they are listed. -/
theorem sweep_gone (l : List String) (h : Host) (hfree : ∀ c ∈ l, h.Free family c) :
    ∀ e ∈ (l.foldl (fun h c => (h.flush family c).delete family c) h).chains family, e.1 ∉ l := by
  induction l generalizing h with
  | nil => exact fun e _ => List.not_mem_nil
  | cons c l ih =>
    have hstep := sweep_step_le h family c
    have hrest := ih ((h.flush family c).delete family c)
      fun c' hc' => (hfree c' (List.mem_cons_of_mem _ hc')).mono hstep
    have hgone := flush_delete_gone (hfree c List.mem_cons_self)
    intro e he
    rw [List.foldl_cons] at he
    have hle := Host.foldl_le (fun h c => sweep_step_le h family c) l
      ((h.flush family c).delete family c)
    exact List.not_mem_cons_of_ne_of_not_mem (hle.chain_absent hgone e he) (hrest e he)

/-- A set no rule matches is destroyed. -/
theorem destroy_gone (hfree : ∀ family, ∀ e ∈ h.chains family, ∀ r ∈ e.2,
    Host.matchesSet n r = false) : n ∉ (h.destroy n).sets := by
  have hnone : ([IpFamily.V4, .V6].any fun family =>
      (h.chains family).any fun e => e.2.any (Host.matchesSet n)) = false := by
    simp only [List.any_eq_false, List.any_eq_true, not_exists, not_and, Bool.not_eq_true]
    intro family _ e he r hr
    exact hfree family e he r hr
  rw [Host.destroy, hnone]
  simp

theorem Host.Le.unmatched (hle : Host.Le h' h) (hfree : ∀ family, ∀ e ∈ h.chains family,
    ∀ r ∈ e.2, Host.matchesSet n r = false) :
    ∀ family, ∀ e ∈ h'.chains family, ∀ r ∈ e.2, Host.matchesSet n r = false := by
  intro family e he r hr
  obtain ⟨rs, hrs, hsub⟩ := hle.chains family e he
  exact hfree family (e.1, rs) hrs r (hsub r hr)

end Removed

/-! ## The firewall part of the plan -/

def unhookAll (h : Host) : Host := hooks.foldl (fun h e => h.unhook .V4 e.1 e.2) h

def dropTop (h : Host) : Host :=
  topChains.foldl (fun h c => (h.flush .V4 c).delete .V4 c) h

section Commands

variable (h : Host) (desc : String)

theorem exec_unhook (b target : String) :
    (cmd desc "iptables" ["-w", "-t", "filter", "-D", b, "-j", target]).exec h =
      h.unhook .V4 b target := by
  simp [cmd, CleanupCmd.exec, Host.iptables]

theorem exec_flush (c : String) :
    (cmd desc "iptables" ["-w", "-t", "filter", "-F", c]).exec h = h.flush .V4 c := by
  simp [cmd, CleanupCmd.exec, Host.iptables]

theorem exec_delete (c : String) :
    (cmd desc "iptables" ["-w", "-t", "filter", "-X", c]).exec h = h.delete .V4 c := by
  simp [cmd, CleanupCmd.exec, Host.iptables]

theorem exec_destroy (n : String) : (cmd desc "ipset" ["destroy", n]).exec h = h.destroy n := by
  simp [cmd, CleanupCmd.exec]

end Commands

theorem runPlan_firewallCmds (h : Host) :
    runPlan firewallCmds h = ((dropTop (unhookAll h)).destroy (localPodsSet .V4)).destroy
      "inet6:kube-router-local-pods" := by
  have hnames : "KUBE-ROUTER-" ++ "INPUT" = routerInput ∧
      "KUBE-ROUTER-" ++ "FORWARD" = routerForward ∧
      "KUBE-ROUTER-" ++ "OUTPUT" = routerOutput := by decide
  simp only [runPlan, firewallCmds, List.map_cons, List.map_nil, List.flatMap_cons,
    List.flatMap_nil, List.append_nil, List.cons_append, List.nil_append, List.foldl_cons,
    List.foldl_nil, exec_unhook,
    exec_flush, exec_delete, exec_destroy, hnames]
  rfl

theorem unhookAll_le (h : Host) : Host.Le (unhookAll h) h :=
  Host.foldl_le (fun _ _ => Host.unhook_le _ _) hooks h

theorem unhookAll_builtin {h : Host} {b : String}
    (hook : h.builtin .V4 b = [] ∨ ∃ t, h.builtin .V4 b = [t] ∧ (b, t) ∈ hooks) :
    (unhookAll h).builtin .V4 b = [] := by
  rcases hook with hnil | ⟨t, ht, hmem⟩
  · exact (unhookAll_le h).builtin_nil hnil
  · simp only [hooks, List.mem_cons, List.not_mem_nil, or_false, Prod.mk.injEq] at hmem
    rcases hmem with ⟨rfl, rfl⟩ | ⟨rfl, rfl⟩ | ⟨rfl, rfl⟩ <;>
      simp [unhookAll, hooks, Host.unhook, ht]

/-! ## What stays -/

section Stays

variable {h : Host} {family : IpFamily} {c n : String} {rs : List Rule}

theorem iptables_keeps_chain {f : IpFamily} {args : List String} (hargs : c ∉ args)
    (hmem : (c, rs) ∈ h.chains f) : (c, rs) ∈ (h.iptables family args).chains f := by
  unfold Host.iptables
  split
  · exact hmem
  · rename_i d
    have hne : c ≠ d := fun heq => hargs (by simp [heq])
    by_cases hf : f = family
    · subst hf
      exact Host.mem_flush.mpr (Or.inl ⟨hmem, hne⟩)
    · rwa [Host.flush_other hf]
  · rename_i d
    have hne : c ≠ d := fun heq => hargs (by simp [heq])
    by_cases hf : f = family
    · subst hf
      exact Host.mem_delete_of_ne hmem hne
    · rwa [Host.delete_other hf]
  · exact hmem

theorem destroy_chains : (h.destroy n).chains = h.chains := by
  unfold Host.destroy
  split <;> rfl

/-- A command leaves a chain alone that it does not name. -/
theorem exec_keeps_chain {k : CleanupCmd} (hargs : c ∉ k.args) (hmem : (c, rs) ∈ h.chains family) :
    (c, rs) ∈ (k.exec h).chains family := by
  unfold CleanupCmd.exec
  split
  · exact iptables_keeps_chain hargs hmem
  · split
    · exact iptables_keeps_chain hargs hmem
    · split
      · split
        · rwa [destroy_chains]
        · exact hmem
      · exact hmem

theorem iptables_sets (args : List String) : (h.iptables family args).sets = h.sets := by
  unfold Host.iptables
  split
  · rfl
  · rfl
  · exact Host.delete_sets
  · rfl

/-- A set stays while a rule matches it. -/
def Host.InUse (h : Host) (n : String) : Prop :=
  ∃ family, ∃ e ∈ h.chains family, ∃ r ∈ e.2, Host.matchesSet n r = true

theorem destroy_keeps {m : String} (hkeep : n ≠ m ∨ h.InUse n) (hn : n ∈ h.sets) :
    n ∈ (h.destroy m).sets := by
  unfold Host.destroy
  split
  · exact hn
  · rename_i hfree
    rcases hkeep with hne | ⟨f, e, he, r, hr, hmatch⟩
    · exact List.mem_filter.mpr ⟨hn, by simpa using hne⟩
    · by_cases hnm : n = m
      · subst hnm
        refine absurd ?_ hfree
        simp only [List.any_eq_true]
        exact ⟨f, by cases f <;> simp, e, he, r, hr, hmatch⟩
      · exact List.mem_filter.mpr ⟨hn, by simpa using hnm⟩

theorem exec_keeps_set {k : CleanupCmd} (hkeep : n ∉ k.args ∨ h.InUse n) (hn : n ∈ h.sets) :
    n ∈ (k.exec h).sets := by
  unfold CleanupCmd.exec
  split
  · rwa [iptables_sets]
  · split
    · rwa [iptables_sets]
    · split
      · split
        · rename_i m hargs
          refine destroy_keeps (hkeep.imp_left fun hnot heq => hnot ?_) hn
          rw [hargs, heq]
          simp
        · exact hn
      · exact hn

theorem sweep_sets (h : Host) (family : IpFamily) (l : List String) :
    (l.foldl (fun h c => (h.flush family c).delete family c) h).sets = h.sets := by
  induction l generalizing h with
  | nil => rfl
  | cons c l ih =>
    rw [List.foldl_cons, ih, Host.delete_sets]
    rfl

theorem sweepDynamicChains_sets (h : Host) : (sweepDynamicChains h).sets = h.sets := by
  rw [sweepDynamicChains, sweepFamily, sweep_sets, sweepFamily, sweep_sets]

theorem iptables_other {f : IpFamily} (hf : f ≠ family) (args : List String) :
    (h.iptables family args).chains f = h.chains f := by
  unfold Host.iptables
  split
  · rfl
  · exact Host.flush_other hf
  · exact Host.delete_other hf
  · rfl

theorem exec_ipv6 {k : CleanupCmd} (hprog : k.prog ≠ "ip6tables") :
    (k.exec h).chains .V6 = h.chains .V6 := by
  unfold CleanupCmd.exec
  split
  · exact iptables_other (by decide) _
  · split
    · split
      · rw [destroy_chains]
      · rfl
    · rfl

theorem sweep_other {f : IpFamily} (hf : f ≠ family) (l : List String) (h : Host) :
    (l.foldl (fun h c => (h.flush family c).delete family c) h).chains f = h.chains f := by
  induction l generalizing h with
  | nil => rfl
  | cons c l ih => rw [List.foldl_cons, ih, Host.delete_other hf, Host.flush_other hf]

theorem sweep_keeps {l : List String} (hl : c ∉ l) (h : Host) (hmem : (c, rs) ∈ h.chains family) :
    (c, rs) ∈ (l.foldl (fun h c => (h.flush family c).delete family c) h).chains family := by
  induction l generalizing h with
  | nil => exact hmem
  | cons d l ih =>
    obtain ⟨hne, hl⟩ := not_or.mp (mt List.mem_cons.mpr hl)
    exact ih hl _ (Host.mem_delete_of_ne (Host.mem_flush.mpr (Or.inl ⟨hmem, hne⟩)) hne)

end Stays

theorem runPlan_invariant {I : Host → Prop} {plan : List CleanupCmd}
    (keep : ∀ k ∈ plan, ∀ h, I h → I (k.exec h)) {h : Host} (h0 : I h) : I (runPlan plan h) := by
  induction plan generalizing h with
  | nil => exact h0
  | cons k plan ih =>
    exact ih (fun k' hk' => keep k' (List.mem_cons_of_mem _ hk')) (keep k List.mem_cons_self h h0)

def allCmds : List CleanupCmd := serviceProxyCmds ++ firewallCmds ++ routerCmds

theorem mem_allCmds {config : KubeRouterConfig} {k : CleanupCmd} (h : k ∈ cleanupPlan config) :
    k ∈ allCmds := by
  simp only [cleanupPlan, List.mem_append, List.mem_ite_nil_right] at h
  simp only [allCmds, List.mem_append]
  rcases h with (⟨-, h⟩ | ⟨-, h⟩) | ⟨-, h⟩
  · exact Or.inl (Or.inl h)
  · exact Or.inl (Or.inr h)
  · exact Or.inr h

theorem allCmds_args : ∀ k ∈ allCmds, k.prog ≠ "ip6tables" ∧ nwplcyTail ∉ k.args ∧
    ∀ a ∈ k.args, isPolicySet a = false ∧ a ≠ localPodsSet .V6 := by
  decide +kernel

/-! ## The teardown after any run of passes -/

/-- What the teardown needs: no IPv6 document was installed, no policy has left a set, and no
rule of the IPv4 TAIL matches the local-pods set. -/
structure Removable (h : Host) : Prop where
  noIpv6 : ∀ e ∈ h.chains .V6, e.1 ∉ topChains
  noSets : ∀ n ∈ h.sets, isPolicySet n = false ∧ n ≠ localPodsSet .V6
  unmatched : localPodsSet .V4 ∈ h.sets → ∀ e ∈ h.chains .V4, e.1 = nwplcyTail →
    ∀ r ∈ e.2, Host.matchesSet (localPodsSet .V4) r = false

theorem cleanup_eq {config : KubeRouterConfig} (hfw : config.runFirewall = true) (h : Host) :
    cleanup config h = sweepDynamicChains (runPlan (cleanupPlan config) h) := if_pos hfw

section Stays

variable {config : KubeRouterConfig} {h : Host}

theorem stays_set {n : String} (hfw : config.runFirewall = true)
    (hn : isPolicySet n = true ∨ n = localPodsSet .V6) (hmem : n ∈ h.sets) :
    n ∈ (cleanup config h).sets := by
  rw [cleanup_eq hfw, sweepDynamicChains_sets]
  refine runPlan_invariant (I := fun h => n ∈ h.sets) ?_ hmem
  intro k hk h hmem
  refine exec_keeps_set (Or.inl fun hargs => ?_) hmem
  obtain ⟨hpol, hloc⟩ := (allCmds_args k (mem_allCmds hk)).2.2 n hargs
  rcases hn with hn | hn
  · rw [hpol] at hn
    cases hn
  · exact hloc hn

theorem stays_localPods (hfw : config.runFirewall = true) (hmem : localPodsSet .V4 ∈ h.sets)
    {rs : List Rule} (htail : (nwplcyTail, rs) ∈ h.chains .V4) {r : Rule} (hr : r ∈ rs)
    (hmatch : Host.matchesSet (localPodsSet .V4) r = true) :
    localPodsSet .V4 ∈ (cleanup config h).sets := by
  rw [cleanup_eq hfw, sweepDynamicChains_sets]
  refine (runPlan_invariant (I := fun h => localPodsSet .V4 ∈ h.sets ∧
    (nwplcyTail, rs) ∈ h.chains .V4) ?_ ⟨hmem, htail⟩).1
  rintro k hk h ⟨hmem, htail⟩
  exact ⟨exec_keeps_set (Or.inr ⟨.V4, _, htail, r, hr, hmatch⟩) hmem,
    exec_keeps_chain (allCmds_args k (mem_allCmds hk)).2.1 htail⟩

theorem stays_ipv6 (hfw : config.runFirewall = true) {t : String} (ht : t ∈ topChains)
    {rs : List Rule} (hmem : (t, rs) ∈ h.chains .V6) : (t, rs) ∈ (cleanup config h).chains .V6 := by
  have hplan : (runPlan (cleanupPlan config) h).chains .V6 = h.chains .V6 := by
    refine runPlan_invariant (I := fun h' => h'.chains .V6 = h.chains .V6) ?_ rfl
    intro k hk h' heq
    rw [exec_ipv6 (allCmds_args k (mem_allCmds hk)).1, heq]
  have hnot : isPodChain t = false ∧ isPolicyChain t = false := by
    simp only [topChains, List.mem_cons, List.not_mem_nil, or_false] at ht
    rcases ht with rfl | rfl | rfl <;> decide
  rw [cleanup_eq hfw, sweepDynamicChains]
  refine sweep_keeps ?_ _ ?_
  · intro hswept
    have hpick := (List.mem_filter.mp hswept).2
    rw [hnot.1, hnot.2] at hpick
    cases hpick
  · rw [sweepFamily, sweep_other (by decide), hplan]
    exact hmem

theorem removable_of_gone (hfw : config.runFirewall = true) (hgone : Gone (cleanup config h)) :
    Removable h where
  noIpv6 := fun e he ht => (hgone.chains .V6 e (stays_ipv6 hfw ht he)).1 ht
  noSets := by
    intro n hn
    constructor
    · rw [Bool.eq_false_iff]
      intro hpol
      exact absurd hpol (by simp [(hgone.sets n (stays_set hfw (Or.inl hpol) hn)).1])
    · intro heq
      exact (hgone.sets n (stays_set hfw (Or.inr heq) hn)).2.2 heq
  unmatched := by
    intro hmem e he htail r hr
    rw [Bool.eq_false_iff]
    intro hmatch
    rw [show e = (nwplcyTail, e.2) from Prod.ext htail rfl] at he
    exact (hgone.sets _ (stays_localPods hfw hmem he hr hmatch)).2.1 rfl

end Stays

/-- Every builtin chain holds at most its own jump. -/
def Host.Hooked (h : Host) : Prop :=
  ∀ family b, h.builtin family b = [] ∨ ∃ t, h.builtin family b = [t] ∧ (b, t) ∈ hooks

theorem Host.Hooked.unhook {h : Host} (hh : h.Hooked) (family : IpFamily) (b target : String) :
    (h.unhook family b target).Hooked := by
  intro f b'
  simp only [Host.unhook]
  by_cases hf : f = family
  · subst hf
    rw [Function.update_self]
    by_cases hb : b' = b
    · subst hb
      rw [Function.update_self]
      rcases hh f b' with hnil | ⟨t, ht, hmem⟩
      · exact Or.inl (by rw [hnil]; rfl)
      · by_cases heq : t = target
        · exact Or.inl (by simp [ht, heq])
        · exact Or.inr ⟨t, by simp [ht, heq], hmem⟩
    · rw [Function.update_of_ne hb]
      exact hh f b'
  · rw [Function.update_of_ne hf]
    exact hh f b'

theorem Host.Hooked.iptables {h : Host} (hh : h.Hooked) (family : IpFamily) (args : List String) :
    (h.iptables family args).Hooked := by
  unfold Host.iptables
  split
  · exact hh.unhook _ _ _
  · exact hh
  · intro f b
    rw [Host.delete_builtin]
    exact hh f b
  · exact hh

theorem Host.Hooked.exec {h : Host} (hh : h.Hooked) (k : CleanupCmd) : (k.exec h).Hooked := by
  unfold CleanupCmd.exec
  split
  · exact hh.iptables _ _
  · split
    · exact hh.iptables _ _
    · split
      · split
        · unfold Host.destroy
          split
          · exact hh
          · exact hh
        · exact hh
      · exact hh

section Removed

variable {passes : List Pass} {h : Host} {config : KubeRouterConfig}

theorem Host.Lists.chain_some (hl : h.Lists (runPasses passes)) {family : IpFamily}
    {e : String × List Rule} (he : e ∈ h.chains family) :
    ((runPasses passes).chains family e.1).isSome = true := by
  rw [(hl.chains family e.1 e.2).mp he]
  rfl

theorem Host.Lists.ruleShape (hl : h.Lists (runPasses passes)) {family : IpFamily}
    {e : String × List Rule} (he : e ∈ h.chains family) {r : Rule} (hr : r ∈ e.2) :
    RuleShape family e.1 r :=
  (footprint_of_passes passes).rule family e.1 e.2 ((hl.chains family e.1 e.2).mp he) r hr

theorem Host.Lists.hooked (hl : h.Lists (runPasses passes)) : h.Hooked := by
  intro family b
  rw [hl.builtin]
  rcases (footprint_of_passes passes).hook family b with hnil | ⟨t, ht, hmem, -⟩
  · exact Or.inl hnil
  · exact Or.inr ⟨t, ht, hmem⟩

variable (hl : h.Lists (runPasses passes)) (hrem : Removable h)

include hl hrem

/-- Without sets of policies there is no pod chain. -/
theorem Removable.chain_shape {family : IpFamily} {e : String × List Rule}
    (he : e ∈ h.chains family) :
    isPodChain e.1 = false ∧ (e.1 ∈ topChains ∨ isPolicyChain e.1 = true) := by
  have hsome := hl.chain_some he
  have hpod : isPodChain e.1 = false := by
    rw [Bool.eq_false_iff]
    intro hpod
    obtain ⟨n, hn, hpol⟩ := (footprint_of_passes passes).pods family e.1 hsome hpod
    rw [(hrem.noSets n ((hl.sets n).mpr hn)).1] at hpol
    cases hpol
  refine ⟨hpod, ?_⟩
  rcases (footprint_of_passes passes).chain family e.1 hsome with htop | hpol | hpod'
  · exact Or.inl htop
  · exact Or.inr hpol
  · rw [hpod] at hpod'
    cases hpod'

theorem Removable.ipv6_chain_none (c : String) :
    ¬ ((runPasses passes).chains .V6 c).isSome = true := by
  intro hc
  have hin : routerInput ∈ topChains := by decide
  have htop := (footprint_of_passes passes).top .V6 c hc routerInput hin
  obtain ⟨rs, hrs⟩ := Option.isSome_iff_exists.mp htop
  exact hrem.noIpv6 (routerInput, rs) ((hl.chains .V6 routerInput rs).mpr hrs) hin

theorem Removable.localPods_unmatched (hmem : localPodsSet .V4 ∈ h.sets) :
    ∀ family, ∀ e ∈ h.chains family, ∀ r ∈ e.2, Host.matchesSet (localPodsSet .V4) r = false := by
  intro family e he r hr
  rw [Bool.eq_false_iff]
  intro hmatch
  obtain ⟨cond, hcond, hname⟩ := List.any_eq_true.mp hmatch
  have hname : cond.setName = some (localPodsSet .V4) := by simpa using hname
  rcases (hl.ruleShape he hr).set cond hcond _ hname with hpol | ⟨htail, hfam⟩
  · exact absurd hpol (by decide)
  · cases family with
    | V4 => exact absurd hmatch (by simp [hrem.unmatched hmem e he htail r hr])
    | V6 => exact absurd hfam (by decide)

/-- Behind the firewall commands: no jump and no top-level chain of IPv4 is left, and the
local-pods set is gone. -/
theorem Removable.firewallCmds_remove {h1 : Host} (hle : Host.Le h1 h) (hooked : h1.Hooked) :
    (∀ b, (runPlan firewallCmds h1).builtin .V4 b = []) ∧
      (∀ e ∈ (runPlan firewallCmds h1).chains .V4, e.1 ∉ topChains) ∧
      localPodsSet .V4 ∉ (runPlan firewallCmds h1).sets := by
  have hunhook : ∀ b, (unhookAll h1).builtin .V4 b = [] := fun b => unhookAll_builtin (hooked .V4 b)
  have hle2 : Host.Le (unhookAll h1) h := (unhookAll_le h1).trans hle
  -- no rule jumps to a top-level chain
  have hfree : ∀ t ∈ topChains, (unhookAll h1).Free .V4 t := by
    intro t ht
    refine ⟨?_, fun b _ hmem => by rw [hunhook] at hmem; cases hmem⟩
    intro e he r hr hjump
    obtain ⟨rs, hrs, hsub⟩ := hle2.chains .V4 e he
    have hto : t = nwplcyTail ∨ isPodChain t = true ∨ isPolicyChain t = true := by
      rcases (hl.ruleShape hrs (hsub r hr)).jump t hjump with ⟨-, htail | hpod⟩ | ⟨-, hpol⟩
      · exact Or.inl htail
      · exact Or.inr (Or.inl hpod)
      · exact Or.inr (Or.inr hpol)
    simp only [topChains, List.mem_cons, List.not_mem_nil, or_false] at ht
    rcases ht with rfl | rfl | rfl <;> revert hto <;> decide
  have hdrop := sweep_gone topChains (unhookAll h1) hfree
  have hdrople : Host.Le (dropTop (unhookAll h1)) (unhookAll h1) :=
    Host.foldl_le (fun h c => sweep_step_le h .V4 c) topChains _
  rw [runPlan_firewallCmds]
  have hlast : Host.Le (((dropTop (unhookAll h1)).destroy (localPodsSet .V4)).destroy
      "inet6:kube-router-local-pods") (dropTop (unhookAll h1)) :=
    Host.destroy_le.trans Host.destroy_le
  refine ⟨?_, ?_, ?_⟩
  · exact fun b => (hlast.trans hdrople).builtin_nil (hunhook b)
  · intro e he
    obtain ⟨rs, hrs, -⟩ := hlast.chains .V4 e he
    exact hdrop (e.1, rs) hrs
  · intro hmem
    have hmem2 := Host.destroy_le.sets _ hmem
    have horig := ((hdrople.trans hle2).sets _ (Host.destroy_le.sets _ hmem2))
    have hunm := hrem.localPods_unmatched hl horig
    exact destroy_gone ((hdrople.trans hle2).unmatched hunm) hmem2

/-- The sweep takes the rest. -/
theorem Removable.sweep_removes {h3 : Host} (hle : Host.Le h3 h)
    (hjumps : ∀ b, h3.builtin .V4 b = []) (htops : ∀ e ∈ h3.chains .V4, e.1 ∉ topChains)
    (hlocal : localPodsSet .V4 ∉ h3.sets) : Gone (sweepDynamicChains h3) := by
  have hend : Host.Le (sweepDynamicChains h3) h3 :=
    (sweepFamily_le _ .V6).trans (sweepFamily_le h3 .V4)
  -- only the top-level chains and pod chains jump, and neither is left
  have hfree : ∀ c, h3.Free .V4 c := by
    intro c
    refine ⟨?_, fun b _ hmem => by rw [hjumps] at hmem; cases hmem⟩
    intro e he r hr hjump
    obtain ⟨rs, hrs, hsub⟩ := hle.chains .V4 e he
    rcases (hl.ruleShape hrs (hsub r hr)).jump c hjump with ⟨htop, -⟩ | ⟨hpod, -⟩
    · exact htops e he htop
    · rw [(hrem.chain_shape hl hrs).1] at hpod
      cases hpod
  have hswept := sweep_gone (sweptChains h3 .V4) h3 (fun c _ => hfree c)
  refine ⟨?_, ?_, ?_⟩
  · intro family e he
    obtain ⟨rs, hrs, -⟩ := hend.chains family e he
    obtain ⟨rs', hrs', -⟩ := hle.chains family (e.1, rs) hrs
    cases family with
    | V6 => exact absurd (hl.chain_some hrs') (hrem.ipv6_chain_none hl e.1)
    | V4 =>
      obtain ⟨hpod, -⟩ := hrem.chain_shape hl hrs'
      obtain ⟨rs4, hrs4, -⟩ := (sweepFamily_le (sweepFamily h3 .V4) .V6).chains .V4 e he
      have hnot := hswept (e.1, rs4) hrs4
      refine ⟨htops (e.1, rs) hrs, hpod, ?_⟩
      rw [Bool.eq_false_iff]
      intro hpol
      exact hnot (List.mem_filter.mpr ⟨List.mem_map.mpr ⟨(e.1, rs), hrs, rfl⟩, by simp [hpol]⟩)
  · intro family b _ t ht
    have hold := hend.builtin family b t ht
    cases family with
    | V4 =>
      rw [hjumps] at hold
      cases hold
    | V6 =>
      have hold := hle.builtin .V6 b t hold
      rw [hl.builtin] at hold
      rcases (footprint_of_passes passes).hook .V6 b with hnil | ⟨t', -, -, hsome⟩
      · rw [hnil] at hold
        cases hold
      · exact absurd hsome (hrem.ipv6_chain_none hl t')
  · intro n hn
    have hn3 := hend.sets n hn
    obtain ⟨hpol, h6⟩ := hrem.noSets n (hle.sets n hn3)
    exact ⟨hpol, fun heq => hlocal (heq ▸ hn3), h6⟩

theorem gone_of_removable (hfw : config.runFirewall = true) : Gone (cleanup config h) := by
  rw [cleanup_eq hfw, cleanupPlan, if_pos hfw, runPlan_append, runPlan_append]
  generalize (if config.runServiceProxy = true then serviceProxyCmds else []) = before
  generalize (if config.runRouter = true then routerCmds else []) = behind
  have hle1 := runPlan_le before h
  have hooked : (runPlan before h).Hooked := runPlan_invariant (fun k _ _ hh => hh.exec k) hl.hooked
  obtain ⟨hjumps, htops, hlocal⟩ := hrem.firewallCmds_remove hl hle1 hooked
  have hle2 := runPlan_le firewallCmds (runPlan before h)
  generalize runPlan firewallCmds (runPlan before h) = h2 at *
  have hle3 := runPlan_le behind h2
  refine hrem.sweep_removes hl (hle3.trans (hle2.trans hle1)) ?_ ?_ fun hn =>
      hlocal (hle3.sets _ hn)
  · exact fun b => hle3.builtin_nil (hjumps b)
  · intro e he
    obtain ⟨rs, hrs, -⟩ := hle3.chains .V4 e he
    exact htops (e.1, rs) hrs

end Removed

/-- After any run of passes, in whatever order the chains are listed, the teardown removes
everything the firewall controller owns exactly when no IPv6 document was installed, no policy
has left a set, and the IPv4 TAIL does not match the local-pods set. -/
theorem cleanup_removes_iff (passes : List Pass) {h : Host} (hl : h.Lists (runPasses passes))
    {config : KubeRouterConfig} (hfw : config.runFirewall = true) :
    Gone (cleanup config h) ↔ Removable h :=
  ⟨removable_of_gone hfw, fun hrem => gone_of_removable hl hrem hfw⟩

section Sample

/-- An IPv4 pass over a cluster without policies. -/
def quietPass : Pass := ⟨sampleConfig, [.V4], {}⟩

theorem quietPass_cleaned : Gone (cleanup {} (Host.ofPasses [quietPass])) := by
  refine (cleanup_removes_iff [quietPass] (Host.ofPasses_lists _) rfl).mpr ⟨?_, ?_, ?_⟩
  · decide +kernel
  · decide +kernel
  · decide +kernel

/-- An IPv4 pass over a cluster with one policy. -/
def policyPass : Pass := ⟨sampleConfig, [.V4], allWorld⟩

/-- The set of the policy's pods is never destroyed. -/
theorem policy_sets_stay :
    ¬ ∀ (passes : List Pass) (h : Host) (config : KubeRouterConfig), h.Lists (runPasses passes) →
      config.runFirewall = true → Gone (cleanup config h) := by
  intro hall
  have hgone := hall [policyPass] _ {} (Host.ofPasses_lists [policyPass]) rfl
  have hmem : "KUBE-DST-WINIKYPRKHKJFKN4" ∈ (cleanup {} (Host.ofPasses [policyPass])).sets := by
    decide +kernel
  exact absurd (hgone.sets _ hmem).1 (by decide)

end Sample

end KubeRouter.Agent
