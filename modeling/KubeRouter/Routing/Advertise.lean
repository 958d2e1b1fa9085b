/-
  Advertisement of prefixes to BGP peers (`routing/src/advertise.rs`), as driven by
  `advertise_service_vips_task` in `kube-router-rs/src/main.rs`.

  `sync` compares the desired prefixes with those on record, adds and withdraws the difference
  call by call, and replaces the record when every call succeeded. A failed call ends the sync
  and leaves the calls before it in the engine, off the record.

  Proved:
  * `syncs_exact_iff`: over every run with any calls failing, each sync that succeeds leaves
    exactly its desired prefixes in the engine if and only if, before each of them, engine and
    record agree on every prefix that this sync does not change.
  * `drift_run`: where engine and record differ, an earlier sync failed and left in the engine
    what it asked for; so a run without failures meets the condition.
  * `forgotten_prefix_stays`: a prefix added by a failed sync and then no longer desired is
    never withdrawn.
-/
import KubeRouter.Bgp.Engine
import KubeRouter.Lib.Reconcile
import KubeRouter.Lib.System

namespace KubeRouter.Routing

open Program Bgp

/-! ## Advertiser -/

structure Advertiser where
  advertised : Std.TreeSet IpNet := ∅
  communities : List UInt32 := []
  asPrepend : Option (UInt32 × UInt8) := none

namespace Advertiser

def desiredSet (desired : List IpNet) (enabled : Bool) : Std.TreeSet IpNet :=
  if enabled then .ofList desired else ∅

def toAdd (adv : Advertiser) (desired : Std.TreeSet IpNet) : List IpNet :=
  desired.toList.filter fun p => !adv.advertised.contains p

def toWithdraw (adv : Advertiser) (desired : Std.TreeSet IpNet) : List IpNet :=
  adv.advertised.toList.filter fun p => !desired.contains p

/-- The path advertised for a prefix. -/
def announcement (adv : Advertiser) (nextHop : IpAddr) (p : IpNet) : Path :=
  let b : PathBuilder := { pfx := p, nextHop := nextHop, communities := adv.communities }
  let b := match adv.asPrepend with
    | some (asn, count) => b.asPathPrepend asn count
    | none => b
  b.build

def withdrawal (nextHop : IpAddr) (p : IpNet) : Path :=
  PathBuilder.build { pfx := p, nextHop := nextHop, withdrawal := true }

/-- The two loops of `sync`. -/
def applyDiff (fails : Nat → Option BgpError) (adv : Advertiser) (nextHop : IpAddr)
    (desired : Std.TreeSet IpNet) : Prog (Remote Tables) BgpError PUnit := do
  (adv.toAdd desired).forM fun p =>
    call Tables.apply fails (.addPath (adv.announcement nextHop p))
  (adv.toWithdraw desired).forM fun p =>
      call Tables.apply fails (.deletePath (withdrawal nextHop p))

end Advertiser

/-- An advertiser and the engine it drives. -/
structure Announcer where
  adv : Advertiser := {}
  engine : Remote Tables := { state := {} }

/-- The arguments of one call of `sync`, next hop apart. -/
structure SyncArgs where
  desired : List IpNet
  enabled : Bool
deriving DecidableEq, Repr

namespace Announcer

/-- `Advertiser::sync`. -/
def sync (fails : Nat → Option BgpError) (nextHop : IpAddr) (s : Announcer) (args : SyncArgs) :
    Except BgpError (Nat × Nat) × Announcer :=
  let desired := Advertiser.desiredSet args.desired args.enabled
  match Prog.exec (s.adv.applyDiff fails nextHop desired) s.engine with
  | (.ok _, engine) =>
    (.ok ((s.adv.toAdd desired).length, (s.adv.toWithdraw desired).length),
      { adv := { s.adv with advertised := desired }, engine := engine })
  | (.error e, engine) => (.error e, { s with engine := engine })

/-- The prefixes of this advertiser in the engine. -/
def announces (s : Announcer) (p : IpNet) : Bool := s.engine.state.paths.contains p

/-- The prefixes on record. -/
def records (s : Announcer) (p : IpNet) : Bool := s.adv.advertised.contains p

def step (fails : Nat → Option BgpError) (nextHop : IpAddr) (s : Announcer) (args : SyncArgs) :
    Option Announcer := some (s.sync fails nextHop args).2

end Announcer

/-- The prefixes a call of `sync` asks for. -/
def SyncArgs.wants (args : SyncArgs) (p : IpNet) : Bool := args.enabled && args.desired.contains p

/-! ## One sync -/

namespace Advertiser

theorem contains_desiredSet (args : SyncArgs) (p : IpNet) :
    (desiredSet args.desired args.enabled).contains p = args.wants p := by
  unfold desiredSet SyncArgs.wants
  cases args.enabled with
  | false => simp
  | true => simp [Std.TreeSet.contains_ofList]

theorem mem_toAdd {adv : Advertiser} {desired : Std.TreeSet IpNet} {p : IpNet} :
    p ∈ adv.toAdd desired ↔ desired.contains p = true ∧ adv.advertised.contains p = false := by
  unfold toAdd
  rw [List.mem_filter, Std.TreeSet.mem_toList, Std.TreeSet.mem_iff_contains, Bool.not_eq_true']

theorem mem_toWithdraw {adv : Advertiser} {desired : Std.TreeSet IpNet} {p : IpNet} :
    p ∈ adv.toWithdraw desired ↔ adv.advertised.contains p = true ∧ desired.contains p = false := by
  unfold toWithdraw
  rw [List.mem_filter, Std.TreeSet.mem_toList, Std.TreeSet.mem_iff_contains, Bool.not_eq_true']

@[simp] theorem announcement_pfx (adv : Advertiser) (nextHop : IpAddr) (p : IpNet) :
    (adv.announcement nextHop p).pfx = p := by
  unfold announcement
  cases adv.asPrepend with
  | none => rfl
  | some prepend =>
    show (PathBuilder.asPathPrepend _ prepend.1 prepend.2).build.pfx = p
    unfold PathBuilder.asPathPrepend
    split <;> rfl

@[simp] theorem withdrawal_pfx (nextHop : IpAddr) (p : IpNet) :
    (withdrawal nextHop p).pfx = p := rfl

/-- The calls of a sync that succeeds. -/
def script (adv : Advertiser) (nextHop : IpAddr) (desired : Std.TreeSet IpNet) :
    List EngineCall :=
  (adv.toAdd desired).map (fun p => .addPath (adv.announcement nextHop p)) ++
    (adv.toWithdraw desired).map fun p => .deletePath (withdrawal nextHop p)

theorem takes_applyDiff (fails : Nat → Option BgpError) (adv : Advertiser) (nextHop : IpAddr)
    (desired : Std.TreeSet IpNet) :
    Takes (Done Tables.apply) (Cut Tables.apply) (adv.applyDiff fails nextHop desired)
      (adv.script nextHop desired) := by
  have hscript := script_done_cut Tables.apply
  have hcall := takes_call Tables.apply fails
  exact Takes.bind hscript (takes_forM_call _ _ hscript hcall _ _)
    (takes_forM_call _ _ hscript hcall _ _)

end Advertiser

/-- Whether a prefix is in the engine, as a cell. -/
theorem writes_contains (p : IpNet) :
    Writes Tables.apply (fun t : Tables => t.paths.contains p)
      (fun c => (pathWrite p c).map Option.isSome) := by
  intro t c
  have hcell : (t.apply c).paths[p]? = (pathWrite p c).getD t.paths[p]? := writes_paths p t c
  simp only [Std.TreeMap.contains_eq_isSome_getElem?]
  rw [hcell]
  cases pathWrite p c <;> rfl

namespace Announcer

variable {fails : Nat → Option BgpError} {nextHop : IpAddr} {s : Announcer} {args : SyncArgs}

/-- What a sync that succeeds leaves behind. -/
theorem sync_ok {n : Nat × Nat} (h : (s.sync fails nextHop args).1 = .ok n) :
    (s.sync fails nextHop args).2.adv.advertised =
        Advertiser.desiredSet args.desired args.enabled ∧
      (s.sync fails nextHop args).2.engine.state = (s.adv.script nextHop
        (Advertiser.desiredSet args.desired args.enabled)).foldl Tables.apply s.engine.state := by
  have hwp := s.adv.takes_applyDiff fails nextHop
    (Advertiser.desiredSet args.desired args.enabled) s.engine
  unfold wp at hwp
  unfold sync at h ⊢
  dsimp only at h ⊢
  split at hwp
  · next engine hexec =>
    rw [hexec]
    exact ⟨rfl, hwp⟩
  · next e engine hexec =>
    rw [hexec] at h
    cases h

/-- The calls of a sync that succeeds. -/
def script (nextHop : IpAddr) (s : Announcer) (args : SyncArgs) : List EngineCall :=
  s.adv.script nextHop (Advertiser.desiredSet args.desired args.enabled)

/-- A sync that stops early has made a first part of its calls. -/
theorem sync_cut : ∃ pre, pre <+: s.script nextHop args ∧
    (s.sync fails nextHop args).2.engine.state = pre.foldl Tables.apply s.engine.state := by
  have hwp := s.adv.takes_applyDiff fails nextHop
    (Advertiser.desiredSet args.desired args.enabled) s.engine
  unfold wp at hwp
  unfold sync
  dsimp only
  split at hwp
  · next engine hexec =>
    rw [hexec]
    exact ⟨_, List.prefix_rfl, hwp⟩
  · next e engine hexec =>
    rw [hexec]
    exact hwp

/-- Where no call fails, the sync succeeds. -/
theorem sync_reliable (hok : ∀ n, fails n = none) :
    ∃ n, (s.sync fails nextHop args).1 = .ok n := by
  have hcall := takes_call_ok Tables.apply fails hok
  have hscript := script_done Tables.apply
  have hdiff : Takes (Done Tables.apply) (fun _ _ _ => False)
      (s.adv.applyDiff fails nextHop (Advertiser.desiredSet args.desired args.enabled))
      (s.script nextHop args) :=
    Takes.bind hscript (takes_forM_call _ _ hscript hcall _ _)
      (takes_forM_call _ _ hscript hcall _ _)
  obtain ⟨_, hexec⟩ := wp_total (hdiff s.engine)
  unfold sync
  dsimp only
  split
  · exact ⟨_, rfl⟩
  · next e engine herr =>
    rw [herr] at hexec
    cases hexec

/-- A sync writes only prefixes in which its arguments and the record differ, and what is
wanted. -/
theorem script_writes (p : IpNet) (c : EngineCall) (hc : c ∈ s.script nextHop args) (v : Bool)
    (hv : (pathWrite p c).map Option.isSome = some v) :
    v = args.wants p ∧ args.wants p ≠ s.records p := by
  have hwants := Advertiser.contains_desiredSet args
  obtain hc | hc := List.mem_append.mp hc
  · obtain ⟨q, hq, rfl⟩ := List.mem_map.mp hc
    obtain ⟨hd, ha⟩ := Advertiser.mem_toAdd.mp hq
    by_cases heq : q = p
    · subst heq
      have hv : true = v := by simpa [pathWrite] using hv
      rw [hwants] at hd
      exact ⟨hv ▸ hd.symm, by rw [hd]; unfold records; rw [ha]; decide⟩
    · simp [pathWrite, heq] at hv
  · obtain ⟨q, hq, rfl⟩ := List.mem_map.mp hc
    obtain ⟨ha, hd⟩ := Advertiser.mem_toWithdraw.mp hq
    by_cases heq : q = p
    · subst heq
      have hv : false = v := by simpa [pathWrite] using hv
      rw [hwants] at hd
      exact ⟨hv ▸ hd.symm, by rw [hd]; unfold records; rw [ha]; decide⟩
    · simp [pathWrite, heq] at hv

/-- A sync writes every prefix in which its arguments and the record differ. -/
theorem script_covers (p : IpNet) (hdiff : args.wants p ≠ s.records p) :
    ∃ c ∈ s.script nextHop args, ((pathWrite p c).map Option.isSome).isSome = true := by
  have hwants := Advertiser.contains_desiredSet args
  cases hd : args.wants p with
  | true =>
    have ha : s.adv.advertised.contains p = false :=
      Bool.eq_false_of_not_eq_true fun h => hdiff (hd.trans h.symm)
    have hmem : p ∈ s.adv.toAdd (Advertiser.desiredSet args.desired args.enabled) :=
      Advertiser.mem_toAdd.mpr ⟨(hwants p).trans hd, ha⟩
    exact ⟨_, List.mem_append_left _ (List.mem_map_of_mem hmem), by simp [pathWrite]⟩
  | false =>
    have ha : s.adv.advertised.contains p = true :=
      Bool.eq_true_of_not_eq_false fun h => hdiff (hd.trans h.symm)
    have hmem : p ∈ s.adv.toWithdraw (Advertiser.desiredSet args.desired args.enabled) :=
      Advertiser.mem_toWithdraw.mpr ⟨ha, (hwants p).trans hd⟩
    exact ⟨_, List.mem_append_right _ (List.mem_map_of_mem hmem), by simp [pathWrite]⟩

/-- A sync that succeeds writes exactly the prefixes in which its arguments and the record
differ. -/
theorem sync_corrects {n : Nat × Nat} (h : (s.sync fails nextHop args).1 = .ok n) :
    Reconcile.Corrects s.announces s.records args.wants
      (s.sync fails nextHop args).2.announces := by
  have hafter : (s.sync fails nextHop args).2.announces = fun p =>
      ((s.script nextHop args).foldl Tables.apply s.engine.state).paths.contains p := by
    funext p
    unfold announces
    rw [(sync_ok h).2]
    rfl
  rw [hafter]
  exact Reconcile.corrects_of_script writes_contains (s.script nextHop args) s.engine.state
    script_writes script_covers

end Announcer

/-! ## Runs -/

namespace Announcer

/-- If this sync succeeds, the engine has exactly the prefixes asked for, and so has the
record. -/
def Exact (fails : Nat → Option BgpError) (nextHop : IpAddr) (s : Announcer)
    (args : SyncArgs) : Prop :=
  ∀ n, (s.sync fails nextHop args).1 = .ok n →
    (∀ p, (s.sync fails nextHop args).2.announces p = args.wants p) ∧
      ∀ p, (s.sync fails nextHop args).2.records p = args.wants p

/-- If this sync succeeds, engine and record agreed before on every prefix on which record and
arguments agree. -/
def Trusted (fails : Nat → Option BgpError) (nextHop : IpAddr) (s : Announcer)
    (args : SyncArgs) : Prop :=
  ∀ n, (s.sync fails nextHop args).1 = .ok n →
    ∀ p, args.wants p = s.records p → s.announces p = s.records p

theorem exact_iff_trusted (fails : Nat → Option BgpError) (nextHop : IpAddr) (s : Announcer)
    (args : SyncArgs) : Exact fails nextHop s args ↔ Trusted fails nextHop s args := by
  constructor
  · intro h n hn
    exact (sync_corrects hn).exact_iff.mp (h n hn).1
  · intro h n hn
    refine ⟨(sync_corrects hn).exact_iff.mpr (h n hn), fun p => ?_⟩
    unfold records
    rw [(sync_ok hn).1]
    exact Advertiser.contains_desiredSet args p

variable {fails : Nat → Option BgpError} {nextHop : IpAddr} {s : Announcer} {args : SyncArgs}

/-- So what the engine has off the record must be what this sync asks for. -/
theorem trusted_iff_drift : Trusted fails nextHop s args ↔
    ∀ n, (s.sync fails nextHop args).1 = .ok n →
      ∀ p, s.announces p ≠ s.records p → args.wants p = s.announces p := by
  refine forall_congr' fun n => forall_congr' fun _ => forall_congr' fun p => ?_
  cases args.wants p <;> cases s.records p <;> cases s.announces p <;> decide

theorem sync_error {e : BgpError} (h : (s.sync fails nextHop args).1 = .error e) :
    (s.sync fails nextHop args).2.adv = s.adv := by
  unfold sync at h ⊢
  dsimp only at h ⊢
  split at h
  · cases h
  · rfl

/-- What a sync that stops early does to a prefix, it does as asked. -/
theorem sync_cut_wants (p : IpNet) :
    (s.sync fails nextHop args).2.announces p = s.announces p ∨
      (s.sync fails nextHop args).2.announces p = args.wants p := by
  obtain ⟨pre, hpre, hstate⟩ := @sync_cut fails nextHop s args
  unfold announces
  rw [hstate]
  have hwrites : ∀ c ∈ pre, ∀ v, (pathWrite p c).map Option.isSome = some v → v = args.wants p :=
    fun c hc v hv => (script_writes p c (hpre.subset hc) v hv).1
  by_cases htouch : ∃ c ∈ pre, ((pathWrite p c).map Option.isSome).isSome
  · exact Or.inr (read_foldl_agree (writes_contains p) pre s.engine.state hwrites (Or.inr htouch))
  · refine Or.inl (read_foldl_untouched (writes_contains p) pre s.engine.state fun c hc => ?_)
    exact Option.not_isSome_iff_eq_none.mp fun hsome => htouch ⟨c, hc, hsome⟩

/-- Where engine and record differ, an earlier sync failed and left there what it asked for. -/
def DriftExplained (fails : Nat → Option BgpError) (nextHop : IpAddr) (start : Announcer)
    (before : List SyncArgs) (s : Announcer) : Prop :=
  ∀ p, s.announces p ≠ s.records p → ∃ first args rest u e, before = first ++ args :: rest ∧
    System.run (step fails nextHop) start first = some u ∧
    (u.sync fails nextHop args).1 = .error e ∧ args.wants p = s.announces p

/-- An explanation stays one when a sync is made behind it that leaves the prefix as it is. -/
theorem DriftExplained.later {start : Announcer} {before : List SyncArgs}
    (h : DriftExplained fails nextHop start before s) {p : IpNet}
    (hne : s.announces p ≠ s.records p)
    {t : Announcer} (hsame : t.announces p = s.announces p) (last : SyncArgs) :
    ∃ first failed rest u e, before ++ [last] = first ++ failed :: rest ∧
      System.run (step fails nextHop) start first = some u ∧
      (u.sync fails nextHop failed).1 = .error e ∧ failed.wants p = t.announces p := by
  obtain ⟨first, failed, rest, u, e, hsplit, hu, herr, hwants⟩ := h p hne
  exact ⟨first, failed, rest ++ [last], u, e, by rw [hsplit, List.append_assoc]; rfl, hu, herr,
    hwants.trans hsame.symm⟩

/-- A sync that succeeds leaves no difference it touches; one that fails explains those it makes. -/
theorem DriftExplained.sync {start : Announcer} {before : List SyncArgs}
    (hrun : System.run (step fails nextHop) start before = some s)
    (h : DriftExplained fails nextHop start before s) (args : SyncArgs) :
    DriftExplained fails nextHop start (before ++ [args]) (s.sync fails nextHop args).2 := by
  intro p hp
  cases hres : (s.sync fails nextHop args).1 with
  | ok n =>
    have hrec : (s.sync fails nextHop args).2.records p = args.wants p := by
      unfold records
      rw [(sync_ok hres).1]
      exact Advertiser.contains_desiredSet args p
    rw [hrec] at hp
    by_cases hw : args.wants p = s.records p
    · have hsame := (sync_corrects hres).trusted p hw
      exact h.later (by rwa [hsame, hw] at hp) hsame args
    · exact absurd ((sync_corrects hres).changed p hw) hp
  | error e =>
    rcases @sync_cut_wants fails nextHop s args p with hsame | hwants
    · refine h.later ?_ hsame args
      unfold records at hp ⊢
      rwa [sync_error hres, hsame] at hp
    · exact ⟨before, args, [], s, e, rfl, hrun, hres, hwants.symm⟩

theorem drift_run {start : Announcer} (hstart : start.announces = start.records)
    {before : List SyncArgs} (hrun : System.run (step fails nextHop) start before = some s) :
    DriftExplained fails nextHop start before s := by
  have hkeep : ∀ (done : List SyncArgs) (u : Announcer) (args : SyncArgs) (v : Announcer),
      System.run (step fails nextHop) start done = some u ∧
        DriftExplained fails nextHop start done u → True → step fails nextHop u args = some v →
      System.run (step fails nextHop) start (done ++ [args]) = some v ∧
        DriftExplained fails nextHop start (done ++ [args]) v := by
    rintro done u args v ⟨hu, hdrift⟩ _ hstep
    cases hstep
    exact ⟨by rw [System.run_concat, hu]; rfl, hdrift.sync hu args⟩
  have hzero : System.run (step fails nextHop) start [] = some start ∧
      DriftExplained fails nextHop start [] start :=
    ⟨rfl, fun p hp => absurd (congrFun hstart p) hp⟩
  have hall : System.Meets (step fails nextHop) (fun _ _ => True) start before :=
    fun _ _ _ _ _ => trivial
  have hend := System.run_history
    (I := fun done u => System.run (step fails nextHop) start done = some u ∧
      DriftExplained fails nextHop start done u) hkeep hzero hall hrun
  exact hend.2

/-- A run without failures trusts the engine rightly throughout. -/
theorem trusted_without_failures (hok : ∀ n, fails n = none) {start : Announcer}
    (hstart : start.announces = start.records) (calls : List SyncArgs) :
    System.Meets (step fails nextHop) (Trusted fails nextHop) start calls := by
  intro before args t _ hrun
  rw [trusted_iff_drift]
  intro n _ p hp
  obtain ⟨_, failed, _, u, e, _, _, herr, _⟩ := drift_run hstart hrun p hp
  obtain ⟨m, hm⟩ := @sync_reliable fails nextHop u failed hok
  rw [hm] at herr
  cases herr

end Announcer

/-- In a run of syncs, any of whose calls may fail, every sync that succeeds leaves exactly the
prefixes it asks for in the engine and on record if and only if, before each of them, engine and
record agree on every prefix on which the record and the arguments agree. -/
theorem syncs_exact_iff (fails : Nat → Option BgpError) (nextHop : IpAddr)
    (communities : List UInt32) (asPrepend : Option (UInt32 × UInt8)) (calls : List SyncArgs) :
    let start : Announcer := { adv := { communities := communities, asPrepend := asPrepend } }
    System.Meets (Announcer.step fails nextHop) (Announcer.Exact fails nextHop) start calls ↔
      System.Meets (Announcer.step fails nextHop)
        (Announcer.Trusted fails nextHop) start calls := by
  intro start
  constructor
  · intro h before args t hpre hrun
    exact (Announcer.exact_iff_trusted fails nextHop t args).mp (h before args t hpre hrun)
  · intro h before args t hpre hrun
    exact (Announcer.exact_iff_trusted fails nextHop t args).mpr (h before args t hpre hrun)

/-! ## A sync that fails half way -/

section Sample

/-- 10.96.0.10/32. -/
def vipA : IpNet := ⟨.ofOctets 10 96 0 10, 32, by decide⟩

/-- 10.96.0.11/32. -/
def vipB : IpNet := ⟨.ofOctets 10 96 0 11, 32, by decide⟩

/-- The engine's second call fails. -/
def secondCallFails : Nat → Option BgpError :=
  fun n => if n = 1 then some (.Engine "unavailable") else none

def thisNode : IpAddr := .ofOctets 192 168 32 3

/-- Two prefixes, the second of which cannot be added; then the second one only. -/
def shrinkingList : List SyncArgs := [⟨[vipA, vipB], true⟩, ⟨[vipB], true⟩]

end Sample

theorem forgotten_prefix_stays :
    ¬∀ (fails : Nat → Option BgpError) (nextHop : IpAddr) (calls : List SyncArgs),
      System.Meets (Announcer.step fails nextHop) (Announcer.Exact fails nextHop) {} calls := by
  intro h
  have hlast := h secondCallFails thisNode shrinkingList [⟨[vipA, vipB], true⟩] ⟨[vipB], true⟩
    (Announcer.sync secondCallFails thisNode {} ⟨[vipA, vipB], true⟩).2 (List.prefix_refl _) rfl
    (1, 0) (by decide +kernel)
  have hstale := hlast.1 vipA
  revert hstale
  decide +kernel

end KubeRouter.Routing
