/-
  Which destinations a pass can give to an address.

  A pass writes destinations in two places: the IPVS table, under the services of the desired
  state, and the FWMARK services of the DSR stage, each under the mark of its address. Whatever
  the environment answers and whatever was recorded before, every such write comes from the last
  claim of its address or from a DSR item whose mark was assigned; and each of these is written by
  some pass. A destination whose weight is set to 0 is on its way out and is not counted.

  The DSR stage goes through its items in order and stops when the registry has no mark left for
  one of them; `Reached` says that some registry lets it come to an item.

  Proved:
  * `pass_sound`: what the calls of a pass come from, however it ends.
  * `pass_complete_table`, `pass_complete_dsr`: what a pass without failures writes.
  * `given_iff`, `created_iff`: the destinations that passes give to an address, and the addresses
    they create FWMARK services for.
-/
import KubeRouter.Proxy.Claims
import KubeRouter.Proxy.Dsr

namespace KubeRouter.Proxy

open Program

/-- What a client addresses: an address, a protocol and a port. -/
abbrev Address := IpAddr × Protocol × UInt16

/-- The key of the FWMARK registry. -/
def markKey (a : Address) : String := DsrTuple.key ⟨a.1, a.2.1, a.2.2⟩

def DsrItem.address (i : DsrItem) : Address := (i.tuple.vip, i.tuple.protocol, i.tuple.port)

theorem markKey_address {i : DsrItem} {a : Address} : markKey a = i.tuple.key ↔ i.address = a := by
  constructor
  · intro h
    have htuple := DsrTuple.key_inj h
    rw [DsrItem.address, ← htuple]
  · rintro rfl
    rfl

/-! ## Marks -/

/-- The marks of the items, one after another. -/
def assignAll (reg : FwMarkRegistry) (items : List DsrItem) : Except String FwMarkRegistry :=
  items.foldlM (fun reg i => do
    let (_, reg) ← reg.assign i.tuple.vip.toText i.tuple.protocol i.tuple.port
    return reg) reg

theorem assignAll_append {reg reg' : FwMarkRegistry} {l m : List DsrItem} :
    assignAll reg (l ++ m) = .ok reg' ↔
      ∃ r, assignAll reg l = .ok r ∧ assignAll r m = .ok reg' := by
  unfold assignAll
  rw [List.foldlM_append]
  cases h : List.foldlM (m := Except String) _ reg l with
  | error e => simp [bind, Except.bind]
  | ok r => simp [bind, Except.bind]

theorem assignAll_singleton {reg reg' : FwMarkRegistry} {i : DsrItem} :
    assignAll reg [i] = .ok reg' ↔
      ∃ m, reg.assign i.tuple.vip.toText i.tuple.protocol i.tuple.port = .ok (m, reg') := by
  unfold assignAll
  cases h : reg.assign i.tuple.vip.toText i.tuple.protocol i.tuple.port with
  | error e => simp [h, bind, Except.bind]
  | ok res => simp [h, bind, Except.bind, pure, Except.pure, Prod.ext_iff]

/-- A mark that is taken stays with its key. -/
theorem assign_grows {reg reg' : FwMarkRegistry} {i : DsrItem} {m : UInt32}
    (h : reg.assign i.tuple.vip.toText i.tuple.protocol i.tuple.port = .ok (m, reg')) :
    reg'.slots m = some i.tuple.key ∧
      ∀ x k, reg.slots x = some k → reg'.slots x = some k := by
  obtain ⟨hslot, rfl⟩ := @FwMarkRegistry.assign_slot _ i.tuple.identity _ _ h
  rw [FwMarkRegistry.slots_insert]
  refine ⟨Function.update_self .., fun x k hx => ?_⟩
  by_cases hxm : x = m
  · subst hxm
    obtain ⟨_, _, _, _, hfree, _⟩ := (Probing.search_eq_some_iff _ _).mp hslot
    rw [Function.update_self]
    by_contra hne
    have hblocked := Probing.blocked_of_eq (k := i.tuple.identity.key) hx
      fun heq => hne (congrArg some heq.symm)
    rw [hblocked] at hfree
    cases hfree
  · rw [Function.update_of_ne hxm, hx]

theorem assignAll_grows {reg reg' : FwMarkRegistry} {items : List DsrItem}
    (h : assignAll reg items = .ok reg') {x : UInt32} {k : String} (hx : reg.slots x = some k) :
    reg'.slots x = some k := by
  induction items generalizing reg with
  | nil =>
    cases h
    exact hx
  | cons i items ih =>
    obtain ⟨r, hr, hrest⟩ := assignAll_append (l := [i]).mp h
    obtain ⟨m, hm⟩ := assignAll_singleton.mp hr
    exact ih hrest ((assign_grows hm).2 x k hx)

/-! ## The DSR stage -/

/-- A call of the DSR stage for one of the items, under the mark the registry holds for it. -/
def DsrCall (reg : FwMarkRegistry) (items : List DsrItem) : Call → Prop
  | .addFwmarkService m _ _ => ∃ i ∈ items, reg.slots m = some i.tuple.key
  | .addFwmarkDestination m d => ∃ i ∈ items, reg.slots m = some i.tuple.key ∧ d ∈ i.dests
  | .mangleAppend _ _ _ => True
  | _ => False

theorem DsrCall.mono {reg reg' : FwMarkRegistry} {items items' : List DsrItem} {c : Call}
    (h : DsrCall reg items c) (hreg : ∀ x k, reg.slots x = some k → reg'.slots x = some k)
    (hitems : items ⊆ items') : DsrCall reg' items' c := by
  cases c with
  | addFwmarkService m sch p =>
    obtain ⟨i, hi, hm⟩ := h
    exact ⟨i, hitems hi, hreg m _ hm⟩
  | addFwmarkDestination m d =>
    obtain ⟨i, hi, hm, hd⟩ := h
    exact ⟨i, hitems hi, hreg m _ hm, hd⟩
  | mangleAppend ipv6 chain args => exact trivial
  | _ => exact h.elim

/-- Marks were assigned to the items, and the calls `cs` are for them. -/
structure Marked (s t : World) (items : List DsrItem) (cs : List Call) : Prop where
  calls : t.calls = s.calls ++ cs
  assigned : assignAll s.sync.dsrRegistry items = .ok t.sync.dsrRegistry
  sources : ∀ c ∈ cs, DsrCall t.sync.dsrRegistry items c

/-- The service and the destinations of every item are among the calls. -/
def Written (reg : FwMarkRegistry) (items : List DsrItem) (cs : List Call) : Prop :=
  ∀ i ∈ items, ∃ m, reg.slots m = some i.tuple.key ∧ (∃ sch p, .addFwmarkService m sch p ∈ cs) ∧
    ∀ d ∈ i.dests, .addFwmarkDestination m d ∈ cs

/-- All items are done. -/
def StageDone (s t : World) (items : List DsrItem) : Prop :=
  ∃ cs, Marked s t items cs ∧ Written t.sync.dsrRegistry items cs

/-- Some first part is done; where no call fails, because no mark is left for the next item. -/
def StageStopped (b : Backend) (s t : World) (items : List DsrItem) : Prop :=
  ∃ done cs, done <+: items ∧ Marked s t done cs ∧
    ((∀ n, b.fails n = none) → Written t.sync.dsrRegistry done cs ∧
      ∃ i, done ++ [i] <+: items ∧ ∀ r, assignAll s.sync.dsrRegistry (done ++ [i]) ≠ .ok r)

theorem Marked.trans {s t u : World} {l m : List DsrItem} {cs cs' : List Call}
    (h : Marked s t l cs) (k : Marked t u m cs') : Marked s u (l ++ m) (cs ++ cs') := by
  refine ⟨?_, assignAll_append.mpr ⟨_, h.assigned, k.assigned⟩, fun c hc => ?_⟩
  · rw [k.calls, h.calls, List.append_assoc]
  · obtain hc | hc := List.mem_append.mp hc
    · exact (h.sources c hc).mono (fun _ _ => assignAll_grows k.assigned)
        (List.subset_append_left l m)
    · exact (k.sources c hc).mono (fun _ _ hx => hx) (List.subset_append_right l m)

theorem Written.mono {reg reg' : FwMarkRegistry} {items items' : List DsrItem} {cs cs' : List Call}
    (h : Written reg items cs) (hreg : ∀ x k, reg.slots x = some k → reg'.slots x = some k)
    (hitems : items' ⊆ items) (hcs : cs ⊆ cs') : Written reg' items' cs' := by
  intro i hi
  obtain ⟨m, hm, ⟨sch, p, hsvc⟩, hd⟩ := h i (hitems hi)
  exact ⟨m, hreg m _ hm, ⟨sch, p, hcs hsvc⟩, fun d hdi => hcs (hd d hdi)⟩

theorem Written.append {t u : World} {l m : List DsrItem} {cs cs' : List Call}
    (k : Marked t u m cs') (hl : Written t.sync.dsrRegistry l cs)
    (hm : Written u.sync.dsrRegistry m cs') : Written u.sync.dsrRegistry (l ++ m) (cs ++ cs') := by
  intro i hi
  obtain hi | hi := List.mem_append.mp hi
  · exact hl.mono (fun _ _ => assignAll_grows k.assigned) (List.Subset.refl l)
      (List.subset_append_left cs cs') i hi
  · exact hm.mono (fun _ _ hx => hx) (List.Subset.refl m) (List.subset_append_right cs cs') i hi

theorem stage_script (b : Backend) : Script StageDone (StageStopped b) where
  refl s := ⟨[], ⟨by simp, rfl, by simp⟩, by simp [Written]⟩
  trans := by
    rintro s t u l m ⟨cs, h, hw⟩ ⟨cs', k, kw⟩
    exact ⟨cs ++ cs', h.trans k, hw.append k kw⟩
  stop := by
    rintro s t u l m ⟨cs, h, hw⟩ ⟨done, cs', hpre, k, hcalm⟩
    refine ⟨l ++ done, cs ++ cs', (List.prefix_append_right_inj l).mpr hpre, h.trans k,
      fun hb => ?_⟩
    obtain ⟨kw, i, hi, hfull⟩ := hcalm hb
    refine ⟨hw.append k kw, i, ?_, fun r hr => ?_⟩
    · rw [List.append_assoc]
      exact (List.prefix_append_right_inj l).mpr hi
    · rw [List.append_assoc, assignAll_append] at hr
      obtain ⟨r', hr', hrest⟩ := hr
      rw [h.assigned] at hr'
      cases hr'
      exact hfull r hrest
  early := by
    rintro s t l m ⟨done, cs, hpre, h, hcalm⟩
    refine ⟨done, cs, hpre.trans (List.prefix_append l m), h, fun hb => ?_⟩
    obtain ⟨hw, i, hi, hfull⟩ := hcalm hb
    exact ⟨hw, i, hi.trans (List.prefix_append l m), hfull⟩

/-- Items that all got marks came before the one that got none. -/
theorem prefix_of_full {reg r : FwMarkRegistry} {items l done : List DsrItem} {j : DsrItem}
    (hl : l <+: items) (hr : assignAll reg l = .ok r) (hj : done ++ [j] <+: items)
    (hfull : ∀ r, assignAll reg (done ++ [j]) ≠ .ok r) : l <+: done := by
  obtain hle | hle := List.prefix_or_prefix_of_prefix hl hj
  · obtain heq | hle := List.prefix_concat_iff.mp hle
    · rw [heq] at hr
      exact absurd hr (hfull r)
    · exact hle
  · obtain ⟨rest, hrest⟩ := hle
    rw [← hrest, assignAll_append] at hr
    obtain ⟨r', hr', _⟩ := hr
    exact absurd hr' (hfull r')

/-! ### Calls and the registry -/

/-- The registry stays, and every call on the way satisfies `P`. -/
def Emits (P : Call → Prop) (s t : World) : Prop :=
  t.sync.dsrRegistry = s.sync.dsrRegistry ∧ ∃ cs, t.calls = s.calls ++ cs ∧ ∀ c ∈ cs, P c

namespace Emits

variable {P : Call → Prop}

theorem refl (s : World) : Emits P s s := ⟨rfl, [], by simp, by simp⟩

theorem trans (s t u : World) (h : Emits P s t) (k : Emits P t u) : Emits P s u := by
  obtain ⟨hreg, cs, hcs, hP⟩ := h
  obtain ⟨kreg, cs', kcs, kP⟩ := k
  refine ⟨kreg.trans hreg, cs ++ cs', by rw [kcs, hcs, List.append_assoc], fun c hc => ?_⟩
  obtain hc | hc := List.mem_append.mp hc
  · exact hP c hc
  · exact kP c hc

theorem call (b : Backend) (err : String → SyncError) {c : Call} (hc : P c) :
    Within (Emits P) (call b err c) := by
  intro w
  unfold Proxy.call ask
  simp only [wp_bind, wp_get, wp_modify, wp_pure]
  split
  · exact ⟨rfl, [], by simp, by simp⟩
  · rw [wp_modify]
    exact ⟨rfl, [c], rfl, fun c' hc' => List.mem_singleton.mp hc' ▸ hc⟩

theorem walks (b : Backend) (D : Desired) : Walks b D (Emits (TableCall D)) where
  refl := refl
  trans := trans
  ask := fun _ _ => ⟨rfl, [], by simp, by simp⟩
  sync := fun _ _ hf => ⟨hf, [], by simp, by simp⟩
  call := fun _ c hc => ⟨rfl, [c], rfl, fun _ hc' => List.mem_singleton.mp hc' ▸ hc⟩

end Emits

section Stage

variable (b : Backend)

/-- What is done for an address once it has its mark. -/
def programVip (ipv6 : Bool) (job : DsrJob) (vip : IpAddr) (fwmark : UInt32) : Pass Unit := do
  dsrIpvs b (.addFwmarkService fwmark job.scheduler job.persistent)
  (job.endpoints.filter (·.ready)).forM fun ep =>
    dsrIpvs b (.addFwmarkDestination fwmark (tunnelDest ep))
  dsrMangle b (.mangleAppend ipv6 "PREROUTING" (dsrMarkArgs vip job.protocol job.port fwmark))
  dsrMangle b (.mangleAppend ipv6 "OUTPUT" (dsrMarkArgs vip job.protocol job.port fwmark))

theorem follows_programVip (ipv6 : Bool) (job : DsrJob) (vip : IpAddr) (fwmark : UInt32) :
    Follows b (programVip b ipv6 job vip fwmark) ((vipCalls ipv6 job vip fwmark).map .call) := by
  have hS := script_issued b
  unfold programVip vipCalls
  rw [List.map_append, List.map_append, List.map_append, List.map_flatMap]
  refine Takes.bind hS (follows_call b _ _) ?_
  refine Takes.bind hS (Takes.forM hS _ fun ep _ => follows_call b _ _) ?_
  exact Takes.bind hS (follows_call b _ _) (follows_call b _ _)

theorem emits_programVip (ipv6 : Bool) (job : DsrJob) (vip : IpAddr) (fwmark : UInt32) :
    Within (Emits fun _ => True) (programVip b ipv6 job vip fwmark) := by
  have hcall : ∀ err c, Within (Emits fun _ => True) (call b err c) :=
    fun err c => Emits.call b err trivial
  refine .bind Emits.trans (hcall _ _) fun _ => ?_
  refine .bind Emits.trans (.forM Emits.refl Emits.trans _ fun ep _ => hcall _ _) fun _ => ?_
  exact .bind Emits.trans (hcall _ _) fun _ => hcall _ _

theorem vipCalls_sources {ipv6 : Bool} {job : DsrJob} {vip : IpAddr} {fwmark : UInt32}
    {reg : FwMarkRegistry} (hm : reg.slots fwmark = some (job.item vip).tuple.key) {c : Call}
    (hc : c ∈ vipCalls ipv6 job vip fwmark) : DsrCall reg [job.item vip] c := by
  have hitem : job.item vip ∈ [job.item vip] := List.mem_singleton_self _
  simp only [vipCalls, List.mem_append, List.mem_singleton, List.mem_flatMap] at hc
  obtain rfl | ⟨ep, hep, rfl⟩ | rfl | rfl := hc
  · exact ⟨_, hitem, hm⟩
  · exact ⟨_, hitem, hm, List.mem_map.mpr ⟨ep, hep, rfl⟩⟩
  · exact trivial
  · exact trivial

theorem callsOf_map_call (cs : List Call) : callsOf (cs.map .call) = cs := by
  simp [callsOf, List.filterMap_map, Function.comp_def, Event.call?]

theorem takes_configureDsrVip (ipv6 : Bool) (job : DsrJob) (vip : IpAddr) :
    Takes StageDone (StageStopped b) (configureDsrVip b ipv6 job vip) [job.item vip] := by
  intro w
  unfold configureDsrVip
  rw [wp_bind, wp_get]
  split
  · next msg hmsg =>
    refine ⟨[], [], List.nil_prefix, ⟨by simp, rfl, by simp⟩, fun _ => ⟨by simp [Written], ?_⟩⟩
    refine ⟨job.item vip, by simp, fun r hr => ?_⟩
    obtain ⟨m, hm⟩ := assignAll_singleton.mp hr
    exact absurd (hmsg.symm.trans hm) (by simp)
  · next fwmark reg hassign =>
    have hassigned : assignAll w.sync.dsrRegistry [job.item vip] = .ok reg :=
      assignAll_singleton.mpr ⟨fwmark, hassign⟩
    have hm := (assign_grows (i := job.item vip) hassign).1
    unfold modifySync
    rw [wp_bind, wp_modify]
    refine wp_mono (wp_and (follows_programVip b ipv6 job vip fwmark _)
      (emits_programVip b ipv6 job vip fwmark _)) ?_ ?_
    · rintro _ t ⟨hissued, hreg, _⟩
      have hreg : t.sync.dsrRegistry = reg := hreg
      have hcalls : t.calls = w.calls ++ vipCalls ipv6 job vip fwmark := by
        rw [hissued.calls, callsOf_map_call]
      refine ⟨vipCalls ipv6 job vip fwmark, ⟨hcalls, hreg ▸ hassigned, fun c hc => ?_⟩, ?_⟩
      · exact vipCalls_sources (hreg ▸ hm) hc
      · intro i hi
        rw [List.mem_singleton.mp hi]
        refine ⟨fwmark, hreg ▸ hm, ⟨job.scheduler, job.persistent, by simp [vipCalls]⟩, ?_⟩
        exact fun d hd => mem_vipCalls_dest.mpr ⟨rfl, hd⟩
    · rintro _ t ⟨⟨⟨n, msg, hfail⟩, done, hpre, hissued⟩, hreg, _⟩
      have hreg : t.sync.dsrRegistry = reg := hreg
      have hsub : ∀ c ∈ callsOf done, c ∈ vipCalls ipv6 job vip fwmark := by
        intro c hc
        rw [← callsOf_map_call (vipCalls ipv6 job vip fwmark)]
        exact (hpre.filterMap Event.call?).subset hc
      refine ⟨[job.item vip], callsOf done, List.prefix_rfl, ⟨hissued.calls, hreg ▸ hassigned, ?_⟩,
        fun hb => ?_⟩
      · exact fun c hc => vipCalls_sources (hreg ▸ hm) (hsub c hc)
      · rw [hb n] at hfail
        cases hfail

/-- A clamp rule is for no item. -/
theorem takes_ensureTcpmss (ipv6 : Bool) (ip : IpAddr) (port : UInt16) (mtu : Int) :
    Takes StageDone (StageStopped b) (ensureTcpmss b ipv6 ip port mtu) [] := by
  intro w
  have hkeeps := Emits.call b (P := fun _ => True) (fun msg => .Dsr ("mangle error: " ++ msg))
    (c := .mangleAppend ipv6 "PREROUTING" (tcpmssMangleArgs ip port (tcpMss mtu ip.isIpv6))) trivial
  refine wp_mono (wp_and (follows_call b _ _ w) (hkeeps w)) ?_ ?_
  · rintro _ t ⟨hissued, hreg, _⟩
    refine ⟨_, ⟨hissued.calls, by rw [hreg]; rfl, fun c hc => ?_⟩, by simp [Written]⟩
    rw [List.mem_singleton.mp hc]
    exact trivial
  · rintro _ t ⟨⟨⟨n, msg, hfail⟩, done, hpre, hissued⟩, hreg, _⟩
    refine ⟨[], callsOf done, List.prefix_rfl, ⟨hissued.calls, by rw [hreg]; rfl, fun c hc => ?_⟩,
      fun hb => ?_⟩
    · have hmem := (hpre.filterMap Event.call?).subset hc
      rw [List.mem_singleton.mp hmem]
      exact trivial
    · rw [hb n] at hfail
      cases hfail

theorem takes_processDsrJobs (cfg : Config) (jobs : List DsrJob) :
    Takes StageDone (StageStopped b) (processDsrJobs b cfg jobs) (handledItems cfg jobs) := by
  have hS := stage_script b
  refine Takes.forM hS jobs fun job _ => Takes.forM hS cfg.dsrMangle fun ipv6 _ => ?_
  have hvips : Takes StageDone (StageStopped b)
      ((job.vips.filter fun v => v.isIpv6 == ipv6).forM (configureDsrVip b ipv6 job))
      (familyItems job ipv6) := by
    have hall := Takes.forM hS (job.vips.filter fun v => v.isIpv6 == ipv6)
      fun vip _ => takes_configureDsrVip b ipv6 job vip
    rw [← List.map_eq_flatMap] at hall
    exact hall
  have hclamps := Takes.forM hS (job.vips.filter fun v => v.isIpv6 == ipv6)
    fun vip _ => takes_ensureTcpmss b ipv6 vip job.port cfg.dsrMtu
  have hjob := Takes.bind hS (f := fun _ => _) hvips hclamps
  rw [List.flatMap_eq_nil_iff.mpr fun _ _ => rfl, List.append_nil] at hjob
  exact hjob

end Stage

/-! ## A pass -/

/-- The calls of a pass from `w` to `t`, whose DSR stage came to the end of `done`. -/
structure PassCalls (cfg : Config) (snapshot : Snapshot) (w t : World) (done : List DsrItem)
    (cs : List Call) : Prop where
  part : done <+: dsrHandled cfg snapshot
  calls : t.calls = w.calls ++ cs
  assigned : assignAll w.sync.dsrRegistry done = .ok t.sync.dsrRegistry
  sources : ∀ c ∈ cs, TableCall (desired cfg snapshot) c ∨ DsrCall t.sync.dsrRegistry done c

section Pass

variable (b : Backend) (cfg : Config) (full : Bool) (snapshot : Snapshot) (w : World)

theorem passCalls_of_marked {cfg : Config} {snapshot : Snapshot} {w t u v : World}
    {done : List DsrItem} {cs : List Call} (hfront : Emits (TableCall (desired cfg snapshot)) w t)
    (hpart : done <+: dsrHandled cfg snapshot) (hstage : Marked t u done cs)
    (hback : Emits (TableCall (desired cfg snapshot)) u v) :
    ∃ cs', PassCalls cfg snapshot w v done cs' := by
  obtain ⟨hreg, front, hcalls, hsrc⟩ := hfront
  obtain ⟨hreg', back, hcalls', hsrc'⟩ := hback
  refine ⟨front ++ cs ++ back, hpart, ?_, ?_, fun c hc => ?_⟩
  · rw [hcalls', hstage.calls, hcalls]
    simp
  · rw [← hreg, hreg', hstage.assigned]
  · obtain hc | hc := List.mem_append.mp hc
    · obtain hc | hc := List.mem_append.mp hc
      · exact .inl (hsrc c hc)
      · rw [hreg']
        exact .inr (hstage.sources c hc)
    · exact .inl (hsrc' c hc)

/-- However the pass ends. -/
theorem pass_sound : ∃ done cs,
    PassCalls cfg snapshot w (passWorld b cfg w (full, snapshot)) done cs := by
  have hwalk := Emits.walks b (desired cfg snapshot)
  have hidle : ∀ t : World, Marked t t [] [] := fun t => ⟨by simp, rfl, by simp⟩
  refine wp_state (P := fun t => ∃ done cs, PassCalls cfg snapshot w t done cs) ?_
  refine hwalk.wp_front cfg full snapshot rfl w (fun _ t ht _ => ?_) fun t ht => ?_
  · exact ⟨[], passCalls_of_marked ht List.nil_prefix (hidle t) (Emits.refl t)⟩
  rw [wp_bind]
  refine wp_mono (takes_processDsrJobs b cfg _ t) ?_ ?_
  · rintro _ u ⟨cs, hmarked, _⟩
    refine wp_mono (hwalk.syncOthers u) (fun _ v hv => ?_) (fun _ v hv => ?_)
    · exact ⟨_, passCalls_of_marked ht List.prefix_rfl hmarked hv⟩
    · exact ⟨_, passCalls_of_marked ht List.prefix_rfl hmarked hv.1⟩
  · rintro _ u ⟨done, cs, hpart, hmarked, _⟩
    exact ⟨done, passCalls_of_marked ht hpart hmarked (Emits.refl u)⟩

theorem not_fails (hb : ∀ n, b.fails n = none) : ¬∃ n msg, b.fails n = some msg := by
  rintro ⟨n, msg, hfail⟩
  rw [hb n] at hfail
  cases hfail

/-- A full pass without failures adds every desired destination. -/
theorem pass_complete_table (hb : ∀ n, b.fails n = none) {k : String} {e : Entry}
    (he : (desired cfg snapshot).services[k]? = some e) {d : IpvsDestination} (hd : d ∈ e.2) :
    ∃ cs, (passWorld b cfg w (true, snapshot)).calls = w.calls ++ cs ∧
      .addDestination e.1 d ∈ cs := by
  have hcalm := not_fails b hb
  have hwritten : .addDestination e.1 d ∈
      callsOf (script cfg true w.sync (desired cfg snapshot)) := by
    have hevents : Event.call (.addDestination e.1 d) ∈
        entryEvents true w.sync.applied (k, e) := by
      refine List.mem_append_right _ (List.mem_flatMap.mpr ⟨d, hd, ?_⟩)
      simp [destEvents]
    have hitem : (k, e) ∈ (desired cfg snapshot).services.toList :=
      Std.TreeMap.mem_toList_iff_getElem?_eq_some.mpr he
    refine List.mem_filterMap.mpr
      ⟨.call (.addDestination e.1 d), List.mem_cons_of_mem _ (List.mem_append_left _ ?_), rfl⟩
    exact List.mem_flatMap.mpr ⟨_, hitem, hevents⟩
  have hgrows : ∀ t, Issued b w t (script cfg true w.sync (desired cfg snapshot)) →
      ∀ (u : World) cs, u.calls = (commit (desired cfg snapshot) t).calls ++ cs →
      ∃ cs, u.calls = w.calls ++ cs ∧ .addDestination e.1 d ∈ cs := by
    intro t ht u cs hu
    refine ⟨_, ?_, List.mem_append_left cs hwritten⟩
    rw [hu, ← List.append_assoc, ← ht.calls]
    rfl
  refine wp_state (P := fun t : World => ∃ cs, t.calls = w.calls ++ cs ∧
      .addDestination e.1 d ∈ cs) ?_
  refine wp_reconcileInner b cfg true snapshot w (fun _ _ ht => absurd ht.fails hcalm)
      fun t ht => ?_
  rw [wp_bind]
  refine wp_mono (wp_processGracefulQueue b _) (fun _ u hu => ?_) (fun _ _ hf => absurd hf hcalm)
  obtain ⟨cs, hswept⟩ := hu
  refine wp_mono (quiet_laterStages b cfg _ u) (fun _ v hv => ?_) (fun _ v hv => ?_) <;>
  · obtain ⟨cs', _, hv, _⟩ := hv.calls
    exact hgrows t ht v (cs ++ cs') (by rw [hv, hswept.calls, List.append_assoc])

/-- A pass without failures programs every DSR item that the marks last for. -/
theorem pass_complete_dsr (hb : ∀ n, b.fails n = none) {front back : List DsrItem} {i : DsrItem}
    (hitems : dsrHandled cfg snapshot = front ++ i :: back) {r : FwMarkRegistry}
    (hr : assignAll w.sync.dsrRegistry (front ++ [i]) = .ok r) :
    ∃ cs, (passWorld b cfg w (full, snapshot)).calls = w.calls ++ cs ∧
      Written (passWorld b cfg w (full, snapshot)).sync.dsrRegistry [i] cs := by
  have hcalm := not_fails b hb
  have hwalk := Emits.walks b (desired cfg snapshot)
  refine wp_state (P := fun t : World => ∃ cs, t.calls = w.calls ++ cs ∧
      Written t.sync.dsrRegistry [i] cs) ?_
  refine hwalk.wp_front cfg full snapshot rfl w (fun _ _ _ hf => absurd hf hcalm) fun t ht => ?_
  obtain ⟨hreg, cs, hcalls, _⟩ := ht
  rw [← hreg] at hr
  have hdone : ∀ u v done cs', Marked t u done cs' → Written u.sync.dsrRegistry done cs' →
      i ∈ done → Emits (TableCall (desired cfg snapshot)) u v →
      ∃ cs, v.calls = w.calls ++ cs ∧ Written v.sync.dsrRegistry [i] cs := by
    rintro u v done cs' hmarked hwritten hi ⟨hreg', cs'', hcalls', _⟩
    refine ⟨cs ++ cs' ++ cs'', ?_, ?_⟩
    · rw [hcalls', hmarked.calls, hcalls]
      simp
    · refine hwritten.mono (fun _ _ hx => by rwa [hreg']) (by simpa using hi) ?_
      exact fun c hc => List.mem_append_left _ (List.mem_append_right _ hc)
  rw [wp_bind]
  refine wp_mono (takes_processDsrJobs b cfg _ t) ?_ ?_
  · rintro _ u ⟨cs', hmarked, hwritten⟩
    have hi : i ∈ handledItems cfg (desired cfg snapshot).dsrJobs := by
      have heq : handledItems cfg (desired cfg snapshot).dsrJobs = front ++ i :: back := hitems
      rw [heq]
      simp
    refine wp_mono (hwalk.syncOthers u) (fun _ v hv => ?_) (fun _ v hv => ?_)
    · exact hdone u v _ cs' hmarked hwritten hi hv
    · exact hdone u v _ cs' hmarked hwritten hi hv.1
  · rintro _ u ⟨done, cs', hpre, hmarked, hstop⟩
    obtain ⟨hwritten, j, hj, hfull⟩ := hstop hb
    -- the stage came past `i`, since the item it stopped at has no mark
    have hfront : front ++ [i] <+: dsrHandled cfg snapshot := by
      rw [hitems]
      exact ⟨back, by simp⟩
    have hi : i ∈ done := (prefix_of_full hfront hr hj hfull).subset (by simp)
    exact hdone u u done cs' hmarked hwritten hi (Emits.refl u)

end Pass

/-! ## All passes over a snapshot -/

/-- Some pass over the snapshot makes the call and leaves the registry: full or not, whatever
the environment answers and whatever was recorded before. -/
def Makes (cfg : Config) (snapshot : Snapshot) (c : Call) (reg : FwMarkRegistry) : Prop :=
  ∃ (b : Backend) (full : Bool) (w : World) (cs : List Call),
    (passWorld b cfg w (full, snapshot)).calls = w.calls ++ cs ∧ c ∈ cs ∧
      (passWorld b cfg w (full, snapshot)).sync.dsrRegistry = reg

/-- The call gives the address the destination, in the IPVS table or under its mark. -/
def Gives (reg : FwMarkRegistry) (a : Address) (d : IpvsDestination) (c : Call) : Prop :=
  (∃ svc, c.given = some (svc, d) ∧ svc.key = a) ∨
    ∃ m, c = .addFwmarkDestination m d ∧ reg.slots m = some (markKey a)

/-- The call creates the FWMARK service of the address. -/
def Creates (reg : FwMarkRegistry) (a : Address) (c : Call) : Prop :=
  ∃ m sch p, c = .addFwmarkService m sch p ∧ reg.slots m = some (markKey a)

/-- Some registry has marks for the item and for those in front of it. -/
def Reached (cfg : Config) (snapshot : Snapshot) (i : DsrItem) : Prop :=
  ∃ front back reg r, dsrHandled cfg snapshot = front ++ i :: back ∧
    assignAll reg (front ++ [i]) = .ok r

section Passes

variable {cfg : Config} {snapshot : Snapshot} {a : Address} {d : IpvsDestination}

theorem PassCalls.reached {w t : World} {done : List DsrItem} {cs : List Call}
    (h : PassCalls cfg snapshot w t done cs) {i : DsrItem} (hi : i ∈ done) :
    Reached cfg snapshot i := by
  obtain ⟨front, rest, rfl⟩ := List.append_of_mem hi
  obtain ⟨back, hback⟩ := h.part
  have hassigned := h.assigned
  rw [List.append_cons, assignAll_append] at hassigned
  obtain ⟨r, hr, _⟩ := hassigned
  refine ⟨front, rest ++ back, _, r, ?_, hr⟩
  rw [← hback, List.append_assoc, List.cons_append]

theorem Makes.source {c : Call} {reg : FwMarkRegistry} (h : Makes cfg snapshot c reg) :
    TableCall (desired cfg snapshot) c ∨
      ∃ items, DsrCall reg items c ∧ ∀ i ∈ items, Reached cfg snapshot i := by
  obtain ⟨b, full, w, cs, hcs, hc, rfl⟩ := h
  obtain ⟨done, cs', hpass⟩ := pass_sound b cfg full snapshot w
  obtain rfl : cs = cs' := List.append_cancel_left (hcs.symm.trans hpass.calls)
  obtain htable | hdsr := hpass.sources c hc
  · exact .inl htable
  · exact .inr ⟨done, hdsr, fun i hi => hpass.reached hi⟩

theorem Reached.written {i : DsrItem} (h : Reached cfg snapshot i) :
    ∃ reg m, reg.slots m = some i.tuple.key ∧
      (∃ sch p, Makes cfg snapshot (.addFwmarkService m sch p) reg) ∧
      ∀ d ∈ i.dests, Makes cfg snapshot (.addFwmarkDestination m d) reg := by
  obtain ⟨front, back, reg, r, hitems, hr⟩ := h
  obtain ⟨cs, hcs, hwritten⟩ := pass_complete_dsr {} cfg true snapshot
    { sync := { dsrRegistry := reg } } (fun _ => rfl) hitems hr
  obtain ⟨m, hm, ⟨sch, p, hsvc⟩, hd⟩ := hwritten i (List.mem_singleton_self i)
  refine ⟨_, m, hm, ⟨sch, p, {}, true, _, cs, hcs, hsvc, rfl⟩, fun d hdi => ?_⟩
  exact ⟨{}, true, _, cs, hcs, hd d hdi, rfl⟩

/-- The destinations that passes give to an address. -/
theorem given_iff : (∃ c reg, Makes cfg snapshot c reg ∧ Gives reg a d c) ↔
    (∃ c, IsLast (snapshot.flatMap (ipvsClaims cfg)) c ∧ c.key = a ∧
      d ∈ dests c.svc c.eps c.localOnly) ∨
    ∃ i, Reached cfg snapshot i ∧ i.address = a ∧ d ∈ i.dests := by
  constructor
  · rintro ⟨c, reg, hmakes, hgives⟩
    obtain htable | ⟨items, hdsr, hitems⟩ := hmakes.source
    · obtain ⟨svc, hgiven, rfl⟩ | ⟨m, rfl, _⟩ := hgives
      · obtain ⟨k, e, he, rfl, hd⟩ := htable.2 svc d hgiven
        obtain ⟨c', hlast, _, rfl⟩ := services_iff.mp he
        exact .inl ⟨c', hlast, rfl, hd⟩
      · cases htable.1
    · obtain ⟨svc, hgiven, _⟩ | ⟨m, rfl, hm⟩ := hgives
      · cases c <;> first | cases hgiven | cases hdsr
      · obtain ⟨i, hi, hslot, hd⟩ := hdsr
        rw [hm] at hslot
        exact .inr ⟨i, hitems i hi, markKey_address.mp (Option.some.inj hslot), hd⟩
  · rintro (⟨c, hlast, rfl, hd⟩ | ⟨i, hreached, rfl, hd⟩)
    · have he := services_iff.mpr ⟨c, hlast, rfl, rfl⟩
      obtain ⟨cs, hcs, hc⟩ := pass_complete_table {} cfg snapshot {} (fun _ => rfl) he hd
      refine ⟨_, _, ⟨{}, true, {}, cs, hcs, hc, rfl⟩, .inl ⟨c.service, ?_, rfl⟩⟩
      have hweight : d.weight ≠ 0 := by
        rw [(dests_wf c.svc c.eps c.localOnly c.service).weight d hd]
        decide
      exact if_neg hweight
    · obtain ⟨reg, m, hm, _, hwritten⟩ := hreached.written
      exact ⟨_, reg, hwritten d hd, .inr ⟨m, rfl, by rw [hm, markKey_address.mpr rfl]⟩⟩

/-- The addresses that passes create FWMARK services for. -/
theorem created_iff : (∃ c reg, Makes cfg snapshot c reg ∧ Creates reg a c) ↔
    ∃ i, Reached cfg snapshot i ∧ i.address = a := by
  constructor
  · rintro ⟨c, reg, hmakes, m, sch, p, rfl, hm⟩
    obtain htable | ⟨items, ⟨i, hi, hslot⟩, hitems⟩ := hmakes.source
    · cases htable.1
    · rw [hm] at hslot
      exact ⟨i, hitems i hi, markKey_address.mp (Option.some.inj hslot)⟩
  · rintro ⟨i, hreached, rfl⟩
    obtain ⟨reg, m, hm, ⟨sch, p, hmakes⟩, _⟩ := hreached.written
    exact ⟨_, reg, hmakes, m, sch, p, rfl, by rw [hm, markKey_address.mpr rfl]⟩

end Passes

end KubeRouter.Proxy
