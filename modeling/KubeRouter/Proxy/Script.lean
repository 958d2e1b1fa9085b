/-
  The script of a pass.

  Up to the point where the record is replaced, what a pass does depends on the record and on
  the snapshot only, never on an answer of the environment: it works off `passEvents`, a list
  of calls and of destinations put into the graceful queue, and when a call fails it has done
  some first part of that list. Behind that point come the graceful queue, which does look at
  answers, and stages that leave services, destinations and addresses alone.

  Proved:
  * `wp_reconcileInner`: a pass either stops within its script, with the record unchanged, or
    finishes it, replaces the record and works off the queue; the later stages are `Quiet`.
  * `Walks.programTables` and its like: a preorder that every call and every change of the record
    keeps holds along each stage but the DSR one, however it ends.
-/
import KubeRouter.Proxy.Sync

namespace KubeRouter.Proxy

open Program

/-! ## Events -/

inductive Event where
  | call (c : Call)
  /-- A destination enters the graceful queue, with a deadline the clock decides. -/
  | drain (svc : IpvsService) (dst : IpvsDestination)
deriving DecidableEq, Repr

def Event.call? : Event → Option Call
  | call c => some c
  | drain _ _ => none

def Event.drain? : Event → Option (IpvsService × IpvsDestination)
  | call _ => none
  | drain svc dst => some (svc, dst)

def callsOf (es : List Event) : List Call := es.filterMap Event.call?

def drainsOf (es : List Event) : List (IpvsService × IpvsDestination) :=
  es.filterMap Event.drain?

/-- The queue after the removals `timed` entered it, each with its deadline. -/
def enqueueAll (q : List PendingRemoval) (timed : List PendingRemoval) : List PendingRemoval :=
  timed.foldl (fun q p => enqueue q p.svc p.dst p.deadline) q

/-- The events `es` lead from `w` to `t`; services and VIPs on record stay what they were. -/
structure Issued (b : Backend) (w t : World) (es : List Event) : Prop where
  calls : t.calls = w.calls ++ callsOf es
  kernel : t.kernel = (callsOf es).foldl b.exec w.kernel
  applied : t.sync.applied = w.sync.applied
  boundVips : t.sync.boundVips = w.sync.boundVips
  gqueue : ∃ timed : List PendingRemoval, timed.map (fun p => (p.svc, p.dst)) = drainsOf es ∧
    t.sync.gqueue = enqueueAll w.sync.gqueue timed

/-- A call of the script `es` failed: a first part of it is done. -/
structure Stopped (b : Backend) (w t : World) (es : List Event) : Prop where
  fails : ∃ n msg, b.fails n = some msg
  part : ∃ done, done <+: es ∧ Issued b w t done

theorem Issued.refl (b : Backend) (w : World) : Issued b w w [] :=
  ⟨by simp [callsOf], rfl, rfl, rfl, [], rfl, rfl⟩

theorem Issued.trans {b : Backend} {w t u : World} {l m : List Event} (h : Issued b w t l)
    (k : Issued b t u m) : Issued b w u (l ++ m) := by
  obtain ⟨tl, hl, hql⟩ := h.gqueue
  obtain ⟨tm, hm, hqm⟩ := k.gqueue
  have hcalls : callsOf (l ++ m) = callsOf l ++ callsOf m := List.filterMap_append
  have hdrains : drainsOf (l ++ m) = drainsOf l ++ drainsOf m := List.filterMap_append
  refine ⟨?_, ?_, k.applied.trans h.applied, k.boundVips.trans h.boundVips, tl ++ tm, ?_, ?_⟩
  · rw [k.calls, h.calls, List.append_assoc, hcalls]
  · rw [k.kernel, h.kernel, hcalls, List.foldl_append]
  · rw [List.map_append, hl, hm, hdrains]
  · rw [hqm, hql, enqueueAll, enqueueAll, enqueueAll, List.foldl_append]

theorem script_issued (b : Backend) : Script (Issued b) (Stopped b) where
  refl := Issued.refl b
  trans := Issued.trans
  stop := by
    intro w t u l m h k
    obtain ⟨done, hpre, hdone⟩ := k.part
    exact ⟨k.fails, l ++ done, (List.prefix_append_right_inj l).mpr hpre, h.trans hdone⟩
  early := by
    intro w t l m k
    obtain ⟨done, hpre, hdone⟩ := k.part
    exact ⟨k.fails, done, hpre.trans (List.prefix_append l m), hdone⟩

/-! ## Scripts of the stages -/

def destEvents (full : Bool) (isvc : IpvsService) (prevDests : List IpvsDestination)
    (d : IpvsDestination) : List Event :=
  if full then [.call (.addDestination isvc d)]
  else
    match prevDests.find? (fun o => o.addr == d.addr && o.port == d.port) with
    | some o => if o = d then [] else [.call (.updateDestination isvc d)]
    | none => [.call (.addDestination isvc d)]

/-- The service call of one entry of the add/update loop. -/
def serviceEvents (full : Bool) (applied : ServiceTable) (key : String) (isvc : IpvsService) :
    List Event :=
  match applied[key]? with
  | some (p, _) =>
    if p ≠ isvc then [.call (.editService isvc)]
    else if full then [.call (.addService isvc)]
    else []
  | none => [.call (.addService isvc)]

def entryEvents (full : Bool) (applied : ServiceTable) (item : String × Entry) : List Event :=
  serviceEvents full applied item.1 item.2.1 ++
    item.2.2.flatMap (destEvents full item.2.1 (destsOf applied item.1))

def flushEvents (svc : IpvsService) : List Event :=
  if svc.protocol = .Udp then [.call (.flushConntrackUdp svc.addr svc.port)] else []

def removeEvents (cfg : Config) (item : IpvsService × IpvsDestination) : List Event :=
  (if cfg.graceful then
    [.call (.updateDestination item.1 { item.2 with weight := 0 }),
      .drain item.1 { item.2 with weight := 0 }]
  else [.call (.delDestination item.1 item.2)]) ++ flushEvents item.1

def removeServiceEvents (svc : IpvsService) : List Event :=
  .call (.delService svc) :: flushEvents svc

def bindEvents (bound : Std.TreeSet IpAddr) (vip : IpAddr) : List Event :=
  if !bound.contains vip then [.call (.addrAdd dummyIf vip (prefixLen vip))] else []

def unbindEvents (vip : IpAddr) : List Event :=
  [.call (.addrDel dummyIf vip (prefixLen vip))]

/-- The events between `ensure_dummy_link` and the replacement of the record. -/
def passEvents (cfg : Config) (full : Bool) (s : ServiceSync) (D : Desired) : List Event :=
  D.services.toList.flatMap (entryEvents full s.applied) ++
  ((staleDests s.applied D.services).flatMap (removeEvents cfg) ++
  ((removedSvcs s.applied D.services).flatMap removeServiceEvents ++
  (D.wantVips.toList.flatMap (bindEvents s.boundVips) ++
  (s.boundVips.toList.filter fun v => !D.wantVips.contains v).flatMap unbindEvents)))

section Stages

variable (b : Backend)

/-- `x` follows the script `es`. -/
abbrev Follows (x : Pass Unit) (es : List Event) : Prop := Takes (Issued b) (Stopped b) x es

theorem follows_done : Follows b (pure ()) [] := Takes.done (script_issued b)

theorem follows_call (err : String → SyncError) (c : Call) :
    Follows b (call b err c) [.call c] := by
  intro w
  unfold call ask
  simp only [wp_bind, wp_get, wp_modify, wp_pure]
  split
  · next msg hmsg =>
    rw [wp_throw]
    exact ⟨⟨_, msg, hmsg⟩, [], List.nil_prefix, by simp [callsOf], rfl, rfl, rfl, [], rfl, rfl⟩
  · rw [wp_modify]
    exact ⟨rfl, rfl, rfl, rfl, [], rfl, rfl⟩

theorem follows_ipvs (c : Call) : Follows b (ipvs b c) [.call c] := follows_call b _ c

theorem follows_flushUdp (svc : IpvsService) : Follows b (flushUdp b svc) (flushEvents svc) := by
  unfold flushUdp flushEvents
  split
  · exact follows_ipvs b _
  · exact follows_done b

theorem follows_programDestination (full : Bool) (isvc : IpvsService)
    (prevDests : List IpvsDestination) (d : IpvsDestination) :
    Follows b (programDestination b full isvc prevDests d) (destEvents full isvc prevDests d) := by
  unfold programDestination destEvents
  cases full with
  | true => exact follows_ipvs b _
  | false =>
    cases hprev : prevDests.find? (fun o => o.addr == d.addr && o.port == d.port) with
    | none => simpa [hprev] using follows_ipvs b _
    | some o =>
      by_cases ho : o = d
      · simpa [ho] using follows_done b
      · simpa [ho] using follows_ipvs b _

theorem follows_addOrEditService (full : Bool) (applied : ServiceTable) (key : String)
    (isvc : IpvsService) :
    Follows b (addOrEditService b full applied key isvc) (serviceEvents full applied key isvc) := by
  unfold addOrEditService serviceEvents
  cases happ : applied[key]? with
  | none => exact follows_ipvs b _
  | some prev =>
    by_cases hp : prev.1 = isvc
    · cases full with
      | true => simpa [hp] using follows_ipvs b _
      | false => simpa [hp] using follows_done b
    · simpa [hp] using follows_ipvs b _

theorem follows_programService (full : Bool) (applied : ServiceTable) (item : String × Entry) :
    Follows b (programService b full applied item) (entryEvents full applied item) := by
  refine Takes.bind (script_issued b) (follows_addOrEditService b full applied _ _) ?_
  exact Takes.forM (script_issued b) _ fun d _ => follows_programDestination b full _ _ d

theorem follows_removeService (svc : IpvsService) :
    Follows b (removeService b svc) (removeServiceEvents svc) :=
  Takes.bind (script_issued b) (follows_ipvs b _) (follows_flushUdp b svc)

theorem follows_bindVip (bound : Std.TreeSet IpAddr) (vip : IpAddr) :
    Follows b (bindVip b bound vip) (bindEvents bound vip) := by
  unfold bindVip bindEvents
  split
  · exact follows_call b _ _
  · exact follows_done b

theorem follows_drainDestination (cfg : Config) (svc : IpvsService) (dst : IpvsDestination) :
    Follows b (drainDestination b cfg svc dst)
      [.call (.updateDestination svc { dst with weight := 0 }),
        .drain svc { dst with weight := 0 }] := by
  have hqueue : Follows b (do
      let now ← clockNow b
      modifySync fun s => { s with
        gqueue := enqueue s.gqueue svc { dst with weight := 0 } (now + cfg.gracefulPeriod) })
      [.drain svc { dst with weight := 0 }] := by
    intro w
    unfold clockNow ask modifySync
    simp only [wp_bind, wp_get, wp_modify, wp_pure]
    exact ⟨by simp [callsOf, Event.call?], rfl, rfl, rfl, [⟨svc, { dst with weight := 0 }, _⟩],
      rfl, rfl⟩
  exact Takes.bind (script_issued b) (follows_ipvs b _) hqueue

theorem follows_removeDestination (cfg : Config) (svc : IpvsService) (dst : IpvsDestination) :
    Follows b (removeDestination b cfg svc dst) (removeEvents cfg (svc, dst)) := by
  have hretire : Follows b
      (if cfg.graceful then drainDestination b cfg svc dst else ipvs b (.delDestination svc dst))
      (if cfg.graceful then
        [.call (.updateDestination svc { dst with weight := 0 }),
          .drain svc { dst with weight := 0 }]
      else [.call (.delDestination svc dst)]) := by
    cases cfg.graceful with
    | true => exact follows_drainDestination b cfg svc dst
    | false => exact follows_ipvs b _
  have hall := Takes.bind (script_issued b) (f := fun _ => flushUdp b svc) hretire
    (follows_flushUdp b svc)
  unfold removeDestination removeEvents
  cases hg : cfg.graceful with
  | true => simpa [hg] using hall
  | false => simpa [hg] using hall

theorem follows_programTables (cfg : Config) (full : Bool) (s : ServiceSync) (D : Desired) :
    Follows b (programTables b cfg full s D) (passEvents cfg full s D) := by
  have hR := script_issued b
  refine Takes.bind hR (Takes.forM hR _ fun item _ => follows_programService b full _ item) ?_
  refine Takes.bind hR
    (Takes.forM hR _ fun item _ => follows_removeDestination b cfg item.1 item.2) ?_
  refine Takes.bind hR (Takes.forM hR _ fun svc _ => follows_removeService b svc) ?_
  refine Takes.bind hR (Takes.forM hR _ fun vip _ => follows_bindVip b _ vip) ?_
  exact Takes.forM hR _ fun vip _ => follows_call b _ _

theorem follows_toggleSloppyTcp (want : Bool) : Follows b (toggleSloppyTcp b want) [] := by
  intro w
  unfold toggleSloppyTcp
  rw [wp_bind, wp_get]
  split
  · unfold ask modifySync
    simp only [wp_bind, wp_get, wp_modify, wp_pure]
    split
    · rw [wp_modify]
      exact ⟨by simp [callsOf], rfl, rfl, rfl, [], rfl, rfl⟩
    · rw [wp_pure]
      exact ⟨by simp [callsOf], rfl, rfl, rfl, [], rfl, rfl⟩
  · rw [wp_pure]
    exact Issued.refl b w

end Stages

/-! ## Quiet stages -/

/-- From `w` to `t` no service, destination or address is written and the tables on record
stay. -/
structure Quiet (b : Backend) (w t : World) : Prop where
  calls : ∃ cs : List Call, (∀ c ∈ cs, c.Inert) ∧ t.calls = w.calls ++ cs ∧
    t.kernel = cs.foldl b.exec w.kernel
  applied : t.sync.applied = w.sync.applied
  boundVips : t.sync.boundVips = w.sync.boundVips
  gqueue : t.sync.gqueue = w.sync.gqueue

theorem Quiet.refl (b : Backend) (w : World) : Quiet b w w :=
  ⟨⟨[], by simp, by simp, rfl⟩, rfl, rfl, rfl⟩

theorem Quiet.trans {b : Backend} {w t u : World} (h : Quiet b w t) (k : Quiet b t u) :
    Quiet b w u := by
  obtain ⟨cs, hcs, hcalls, hkernel⟩ := h.calls
  obtain ⟨ds, hds, kcalls, kkernel⟩ := k.calls
  refine ⟨⟨cs ++ ds, ?_, ?_, ?_⟩, k.applied.trans h.applied, k.boundVips.trans h.boundVips,
    k.gqueue.trans h.gqueue⟩
  · intro c hc
    obtain hc | hc := List.mem_append.mp hc
    · exact hcs c hc
    · exact hds c hc
  · rw [kcalls, hcalls, List.append_assoc]
  · rw [kkernel, hkernel, List.foldl_append]

/-- `x` is quiet however it ends. -/
def QuietProg (b : Backend) {α : Type} (x : Pass α) : Prop :=
  ∀ w, wp x (fun _ t => Quiet b w t) (fun _ t => Quiet b w t) w

section QuietStages

variable (b : Backend)

theorem quiet_bind {α β : Type} {x : Pass α} {f : α → Pass β} (hx : QuietProg b x)
    (hf : ∀ a, QuietProg b (f a)) : QuietProg b (x >>= f) :=
  Within.bind (R := Quiet b) (fun _ _ _ => Quiet.trans) hx hf

theorem quiet_forM {ι : Type} {f : ι → Pass PUnit} (items : List ι)
    (hf : ∀ i ∈ items, QuietProg b (f i)) : QuietProg b (items.forM f) :=
  Within.forM (R := Quiet b) (Quiet.refl b) (fun _ _ _ => Quiet.trans) items hf

/-- A script of inert calls is quiet, done or not. -/
theorem quiet_of_follows {x : Pass Unit} {es : List Event} (h : Follows b x es)
    (hes : ∀ e ∈ es, ∃ c : Call, e = .call c ∧ c.Inert) : QuietProg b x := by
  have hpart : ∀ w t done, done <+: es → Issued b w t done → Quiet b w t := by
    intro w t done hpre hdone
    have hquiet : ∀ e ∈ done, ∃ c : Call, e = .call c ∧ c.Inert :=
      fun e he => hes e (hpre.subset he)
    have hdrains : drainsOf done = [] := by
      rw [drainsOf, List.filterMap_eq_nil_iff]
      intro e he
      obtain ⟨c, rfl, _⟩ := hquiet e he
      rfl
    obtain ⟨timed, hmap, hq⟩ := hdone.gqueue
    have hnil : timed = [] := List.map_eq_nil_iff.mp (hmap.trans hdrains)
    rw [hnil] at hq
    refine ⟨⟨callsOf done, ?_, hdone.calls, hdone.kernel⟩, hdone.applied, hdone.boundVips, hq⟩
    intro c hc
    obtain ⟨e, he, hec⟩ := List.mem_filterMap.mp hc
    obtain ⟨c', rfl, hc'⟩ := hquiet e he
    cases hec
    exact hc'
  intro w
  refine wp_mono (h w) (fun _ t ht => hpart w t es List.prefix_rfl ht) (fun _ t ht => ?_)
  obtain ⟨done, hpre, hdone⟩ := ht.part
  exact hpart w t done hpre hdone

theorem quiet_call (err : String → SyncError) {c : Call} (hc : c.Inert) :
    QuietProg b (call b err c) :=
  quiet_of_follows b (follows_call b err c) fun _ he => ⟨c, List.mem_singleton.mp he, hc⟩

def metricsEvents (cfg : Config) : List Event :=
  if cfg.metrics then [.call .serviceStats] else []

theorem follows_updateMetrics (cfg : Config) :
    Follows b (updateMetrics b cfg) (metricsEvents cfg) := by
  unfold updateMetrics metricsEvents
  split
  · exact follows_ipvs b _
  · exact follows_done b

def othersEvents : List Event :=
  [.call .syncHairpin, .call .syncMasquerade, .call .syncNodeportHealthchecks,
    .call .syncFirewall]

theorem follows_syncOthers : Follows b (syncOthers b) othersEvents := by
  have hR := script_issued b
  refine Takes.bind hR (follows_call b _ _) ?_
  refine Takes.bind hR (follows_call b _ _) ?_
  exact Takes.bind hR (follows_call b _ _) (follows_call b _ _)

theorem quiet_configureDsrVip (ipv6 : Bool) (job : DsrJob) (vip : IpAddr) :
    QuietProg b (configureDsrVip b ipv6 job vip) := by
  have hipvs : ∀ c : Call, c.Inert → QuietProg b (dsrIpvs b c) := fun c hc => quiet_call b _ hc
  have hmangle : ∀ c : Call, c.Inert → QuietProg b (dsrMangle b c) := fun c hc => quiet_call b _ hc
  intro w
  unfold configureDsrVip
  rw [wp_bind, wp_get]
  split
  · rw [wp_throw]
    exact Quiet.refl b w
  · next fwmark reg _ =>
    have hreg : QuietProg b (modifySync fun s => { s with dsrRegistry := reg }) :=
      fun w => ⟨⟨[], by simp, by simp, rfl⟩, rfl, rfl, rfl⟩
    refine quiet_bind b hreg (fun _ => ?_) w
    refine quiet_bind b (hipvs _ ⟨rfl, rfl, rfl⟩) fun _ => ?_
    refine quiet_bind b (quiet_forM b _ fun ep _ => hipvs _ ⟨rfl, rfl, rfl⟩) fun _ => ?_
    exact quiet_bind b (hmangle _ ⟨rfl, rfl, rfl⟩) fun _ => hmangle _ ⟨rfl, rfl, rfl⟩

theorem quiet_processDsrJobs (cfg : Config) (jobs : List DsrJob) :
    QuietProg b (processDsrJobs b cfg jobs) := by
  refine quiet_forM b jobs fun job _ => quiet_forM b _ fun ipv6 _ => ?_
  refine quiet_bind b (quiet_forM b _ fun vip _ => quiet_configureDsrVip b ipv6 job vip) fun _ => ?_
  exact quiet_forM b _ fun vip _ => quiet_call b _ ⟨rfl, rfl, rfl⟩

theorem quiet_laterStages (cfg : Config) (D : Desired) : QuietProg b (laterStages b cfg D) := by
  have hmetrics : QuietProg b (updateMetrics b cfg) := by
    refine quiet_of_follows b (follows_updateMetrics b cfg) fun e he => ?_
    unfold metricsEvents at he
    split at he
    · exact ⟨_, List.mem_singleton.mp he, rfl, rfl, rfl⟩
    · exact absurd he List.not_mem_nil
  have hothers : QuietProg b (syncOthers b) := by
    refine quiet_of_follows b (follows_syncOthers b) fun e he => ?_
    simp only [othersEvents, List.mem_cons, List.not_mem_nil, or_false] at he
    obtain rfl | rfl | rfl | rfl := he
    all_goals exact ⟨_, rfl, rfl, rfl, rfl⟩
  refine quiet_bind b hmetrics fun _ => ?_
  exact quiet_bind b (quiet_processDsrJobs b cfg _) fun _ => hothers

/-- Without mangle handlers the later stages only stop at a call that fails. -/
theorem laterStages_stops {cfg : Config} (hdsr : cfg.dsrMangle = []) (D : Desired) (w : World) :
    wp (laterStages b cfg D) (fun _ _ => True) (fun _ _ => ∃ n msg, b.fails n = some msg) w := by
  have hR := script_issued b
  have hjobs : Follows b (processDsrJobs b cfg D.dsrJobs) (D.dsrJobs.flatMap fun _ => []) := by
    refine Takes.forM hR _ fun job _ => ?_
    rw [hdsr]
    exact follows_done b
  have hall : Follows b (laterStages b cfg D)
      (metricsEvents cfg ++ ((D.dsrJobs.flatMap fun _ => []) ++ othersEvents)) :=
    Takes.bind hR (follows_updateMetrics b cfg) (Takes.bind hR hjobs (follows_syncOthers b))
  exact wp_mono (hall w) (fun _ _ _ => trivial) (fun _ _ ht => ht.fails)

end QuietStages

/-! ## Graceful queue -/

/-- The queued removals `items` were worked off on the way from `w` to `t`. The only writes
delete queued destinations that were not desired again; what was not deleted either is still
queued. -/
structure Swept (b : Backend) (applied : ServiceTable) (items : List PendingRemoval)
    (w t : World) (cs : List Call) : Prop where
  calls : t.calls = w.calls ++ cs
  kernel : t.kernel = cs.foldl b.exec w.kernel
  applied_eq : t.sync.applied = w.sync.applied
  boundVips : t.sync.boundVips = w.sync.boundVips
  written : ∀ c ∈ cs, c.Inert ∨
    ∃ p ∈ items, c = .delDestination p.svc p.dst ∧ readded applied p = false
  settled : ∀ p ∈ items, readded applied p = false →
    p ∈ t.sync.gqueue ∨ .delDestination p.svc p.dst ∈ cs
  sublist : t.sync.gqueue.Sublist items
  waiting : ∀ p ∈ t.sync.gqueue, readded applied p = false

namespace Swept

variable {b : Backend} {applied : ServiceTable} {items : List PendingRemoval} {w t : World}
  {cs : List Call} (h : Swept b applied items w t cs) {p : PendingRemoval}

include h

theorem written_append (q : PendingRemoval) : ∀ c ∈ cs, c.Inert ∨
    ∃ p ∈ items ++ [q], c = .delDestination p.svc p.dst ∧ readded applied p = false := by
  intro c hc
  refine (h.written c hc).imp_right fun ⟨p, hp, hpc⟩ => ?_
  exact ⟨p, List.mem_append_left _ hp, hpc⟩

/-- A question put to the environment. -/
theorem ask (n : Nat) : Swept b applied items w { t with asked := n } cs :=
  ⟨h.calls, h.kernel, h.applied_eq, h.boundVips, h.written, h.settled, h.sublist, h.waiting⟩

/-- Its destination is desired again: the entry is dropped. -/
theorem readd (hre : readded applied p = true) : Swept b applied (items ++ [p]) w t cs := by
  refine ⟨h.calls, h.kernel, h.applied_eq, h.boundVips, h.written_append p, ?_, ?_, h.waiting⟩
  · intro q hq hqre
    obtain hq | hq := List.mem_append.mp hq
    · exact h.settled q hq hqre
    · rw [List.mem_singleton.mp hq, hre] at hqre
      cases hqre
  · exact h.sublist.trans (List.sublist_append_left _ _)

theorem stats (svc : IpvsService) (dst : IpvsDestination) :
    Swept b applied items w
      { t with kernel := b.exec t.kernel (.destConnStats svc dst),
               calls := t.calls ++ [.destConnStats svc dst] } (cs ++ [.destConnStats svc dst]) := by
  refine ⟨by simp [h.calls], by simp [h.kernel], h.applied_eq, h.boundVips, ?_, ?_, h.sublist,
    h.waiting⟩
  · intro c hc
    obtain hc | hc := List.mem_append.mp hc
    · exact h.written c hc
    · rw [List.mem_singleton.mp hc]
      exact Or.inl ⟨rfl, rfl, rfl⟩
  · intro q hq hqre
    exact (h.settled q hq hqre).imp_right fun hc => List.mem_append_left _ hc

/-- Idle, or past its deadline: deleted. -/
theorem delete (hre : readded applied p = false) :
    Swept b applied (items ++ [p]) w
      { t with kernel := b.exec t.kernel (.delDestination p.svc p.dst),
               calls := t.calls ++ [.delDestination p.svc p.dst] }
      (cs ++ [.delDestination p.svc p.dst]) := by
  refine ⟨by simp [h.calls], by simp [h.kernel], h.applied_eq, h.boundVips, ?_, ?_, ?_, h.waiting⟩
  · intro c hc
    obtain hc | hc := List.mem_append.mp hc
    · exact h.written_append p c hc
    · rw [List.mem_singleton.mp hc]
      exact Or.inr ⟨p, List.mem_append_right _ List.mem_cons_self, rfl, hre⟩
  · intro q hq hqre
    obtain hq | hq := List.mem_append.mp hq
    · exact (h.settled q hq hqre).imp_right fun hc => List.mem_append_left _ hc
    · rw [List.mem_singleton.mp hq]
      exact Or.inr (List.mem_append_right _ List.mem_cons_self)
  · exact h.sublist.trans (List.sublist_append_left _ _)

/-- Still draining: back into the queue. -/
theorem requeue (hre : readded applied p = false) :
    Swept b applied (items ++ [p]) w
      { t with sync := { t.sync with gqueue := t.sync.gqueue ++ [p] } } cs := by
  refine ⟨h.calls, h.kernel, h.applied_eq, h.boundVips, h.written_append p, ?_, ?_, ?_⟩
  · intro q hq hqre
    obtain hq | hq := List.mem_append.mp hq
    · exact (h.settled q hq hqre).imp_left fun hq => List.mem_append_left _ hq
    · exact Or.inl (List.mem_append_right _ hq)
  · exact h.sublist.append (List.Sublist.refl _)
  · intro q hq
    obtain hq | hq := List.mem_append.mp hq
    · exact h.waiting q hq
    · rw [List.mem_singleton.mp hq]
      exact hre

end Swept

theorem wp_ipvs (b : Backend) (c : Call) (w : World) :
    wp (ipvs b c)
      (fun _ t => b.fails w.asked = none ∧
        t = { w with kernel := b.exec w.kernel c, calls := w.calls ++ [c], asked := w.asked + 1 })
      (fun _ t => (∃ msg, b.fails w.asked = some msg) ∧ t = { w with asked := w.asked + 1 }) w := by
  unfold ipvs call ask
  simp only [wp_bind, wp_get, wp_modify, wp_pure]
  split
  · next msg hmsg => exact ⟨⟨msg, hmsg⟩, rfl⟩
  · next hok => exact ⟨hok, rfl⟩

theorem wp_destConnStats (b : Backend) (svc : IpvsService) (dst : IpvsDestination) (w : World) :
    wp (destConnStats b svc dst)
      (fun stats t => b.fails w.asked = none ∧ stats = b.connStats w.asked ∧
        t = { w with kernel := b.exec w.kernel (.destConnStats svc dst),
                     calls := w.calls ++ [.destConnStats svc dst], asked := w.asked + 1 })
      (fun _ t => (∃ msg, b.fails w.asked = some msg) ∧ t = { w with asked := w.asked + 1 }) w := by
  unfold destConnStats
  rw [wp_bind, wp_get, wp_bind]
  refine wp_mono (wp_ipvs b _ w) (fun _ t ht => ?_) (fun _ _ he => he)
  exact ⟨ht.1, rfl, ht.2⟩

/-- The number of the question behind those about `p`, when none of them fails. -/
def answered (b : Backend) (applied : ServiceTable) (now : Nat) (n : Nat) (p : PendingRemoval) :
    Option Nat :=
  if readded applied p then some n
  else if (b.fails n).isSome then none
  else if b.connStats n == some (0, 0) || now ≥ p.deadline then
    if (b.fails (n + 1)).isSome then none else some (n + 2)
  else some (n + 1)

/-- One queued removal. When a call fails, nothing was done about it. -/
theorem wp_processPending (b : Backend) (now : Nat) {applied : ServiceTable}
    {items : List PendingRemoval} {w t : World} {cs : List Call} (p : PendingRemoval)
    (happ : t.sync.applied = applied) (h : Swept b applied items w t cs) :
    wp (processPending b now p)
      (fun _ u => answered b applied now t.asked p = some u.asked ∧ u.sync.applied = applied ∧
        ∃ cs', Swept b applied (items ++ [p]) w u cs')
      (fun _ u => answered b applied now t.asked p = none ∧ readded applied p = false ∧
        (∃ n msg, b.fails n = some msg) ∧ ∃ cs', Swept b applied items w u cs') t := by
  unfold processPending answered
  rw [wp_bind, wp_get, happ]
  cases hre : readded applied p with
  | true => exact (wp_pure _).mpr ⟨rfl, happ, cs, h.readd hre⟩
  | false =>
    simp only [Bool.false_eq_true, if_false]
    rw [wp_bind]
    refine wp_mono (wp_destConnStats b p.svc p.dst t) (fun stats u hu => ?_) (fun e u hu => ?_)
    · obtain ⟨hok, rfl, rfl⟩ := hu
      have hstats := (h.stats p.svc p.dst).ask (t.asked + 1)
      simp only [hok, Option.isSome_none, Bool.false_eq_true, if_false]
      by_cases hidle : (b.connStats t.asked == some (0, 0) || decide (now ≥ p.deadline)) = true
      · simp only [hidle, if_true]
        refine wp_mono (wp_ipvs b _ _) (fun _ v hv => ?_) (fun e v hv => ?_)
        · obtain ⟨hok', rfl⟩ := hv
          refine ⟨?_, happ, _, (hstats.delete hre).ask _⟩
          simp only [hok', Option.isSome_none, Bool.false_eq_true, if_false]
        · obtain ⟨⟨msg, hmsg⟩, rfl⟩ := hv
          refine ⟨?_, trivial, ⟨_, msg, hmsg⟩, _, hstats.ask _⟩
          simp only [hmsg, Option.isSome_some, if_true]
      · simp only [hidle]
        exact (wp_modify _).mpr ⟨rfl, happ, _, hstats.requeue hre⟩
    · obtain ⟨⟨msg, hmsg⟩, rfl⟩ := hu
      refine ⟨?_, trivial, ⟨_, msg, hmsg⟩, cs, h.ask _⟩
      simp only [hmsg, Option.isSome_some, if_true]

/-- The loop over the queue: all of it is worked off, or a call fails for one entry and the
entries behind it are not looked at. -/
theorem wp_sweep (b : Backend) (w : World) :
    wp (w.sync.gqueue.forM (processPending b (b.now w.asked)))
      (fun _ t => (∃ n, w.sync.gqueue.foldlM (answered b w.sync.applied (b.now w.asked))
          (w.asked + 1) = some n) ∧ ∃ cs, Swept b w.sync.applied w.sync.gqueue w t cs)
      (fun _ t => ∃ done p rest, w.sync.gqueue = done ++ p :: rest ∧
        w.sync.gqueue.foldlM (answered b w.sync.applied (b.now w.asked)) (w.asked + 1) = none ∧
        readded w.sync.applied p = false ∧ (∃ n msg, b.fails n = some msg) ∧
        ∃ cs, Swept b w.sync.applied done w t cs)
      { w with asked := w.asked + 1, sync := { w.sync with gqueue := [] } } := by
  have hloop := wp_forM (f := processPending b (b.now w.asked))
    (E := fun _ t => ∃ done p rest, w.sync.gqueue = done ++ p :: rest ∧
      w.sync.gqueue.foldlM (answered b w.sync.applied (b.now w.asked)) (w.asked + 1) = none ∧
      readded w.sync.applied p = false ∧ (∃ n msg, b.fails n = some msg) ∧
      ∃ cs, Swept b w.sync.applied done w t cs)
    (s := { w with asked := w.asked + 1, sync := { w.sync with gqueue := [] } })
    (fun done t =>
      done.foldlM (answered b w.sync.applied (b.now w.asked)) (w.asked + 1) = some t.asked ∧
      t.sync.applied = w.sync.applied ∧ ∃ cs, Swept b w.sync.applied done w t cs)
    w.sync.gqueue
    ⟨rfl, rfl, [], by simp, rfl, rfl, rfl, by simp, by simp, List.Sublist.refl _, by simp⟩
    (fun done p rest t heq ht => by
      obtain ⟨hasked, happ, cs, hcs⟩ := ht
      refine wp_mono (wp_processPending b _ p happ hcs) (fun _ u hu => ?_) (fun e u hu => ?_)
      · refine ⟨?_, hu.2⟩
        rw [List.foldlM_append, hasked]
        simpa using hu.1
      · obtain ⟨hnone, hre, hfail, hswept⟩ := hu
        refine ⟨done, p, rest, heq, ?_, hre, hfail, hswept⟩
        rw [heq, List.foldlM_append, hasked]
        simp [List.foldlM_cons, hnone])
  exact wp_mono hloop (fun _ t ht => ⟨⟨_, ht.1⟩, ht.2.2⟩) (fun _ _ he => he)

theorem wp_processGracefulQueue (b : Backend) (w : World) :
    wp (processGracefulQueue b)
      (fun _ t => ∃ cs, Swept b w.sync.applied w.sync.gqueue w t cs)
      (fun _ _ => ∃ n msg, b.fails n = some msg) w := by
  unfold processGracefulQueue
  rw [wp_bind, wp_get]
  split
  · next hempty =>
    have hnil : w.sync.gqueue = [] := List.isEmpty_iff.mp hempty
    rw [wp_pure, hnil]
    exact ⟨[], by simp, rfl, rfl, rfl, by simp, by simp, by simp [hnil], by simp [hnil]⟩
  · unfold clockNow ask modifySync
    simp only [wp_bind, wp_get, wp_modify, wp_pure]
    refine wp_mono (wp_sweep b w) (fun _ t ht => ht.2) (fun e t ht => ?_)
    obtain ⟨done, p, rest, -, -, -, hfail, -⟩ := ht
    exact hfail

/-- An empty queue asks nothing. -/
theorem wp_processGracefulQueue_nil (b : Backend) {w : World} (h : w.sync.gqueue = [])
    {Q : Unit → World → Prop} {E : SyncError → World → Prop} (hQ : Q () w) :
    wp (processGracefulQueue b) Q E w := by
  unfold processGracefulQueue
  rw [wp_bind, wp_get, h]
  exact hQ

/-! ## A pass -/

/-- The record is replaced. -/
def commit (D : Desired) (w : World) : World :=
  { w with sync := { w.sync with
      applied := D.services, boundVips := D.wantVips, owner := D.owner } }

/-- The script of a pass up to the replacement of the record. -/
def script (cfg : Config) (full : Bool) (s : ServiceSync) (D : Desired) : List Event :=
  .call (.ensureDummyLink dummyIf) :: passEvents cfg full s D

/-- The rule for a pass: it stops within its script, or it finishes it, replaces the record
and goes on with the graceful queue and the later stages. -/
theorem wp_reconcileInner (b : Backend) (cfg : Config) (full : Bool) (snapshot : Snapshot)
    (w : World) {Q : Unit → World → Prop} {E : SyncError → World → Prop}
    (hstop : ∀ e t, Stopped b w t (script cfg full w.sync (desired cfg snapshot)) → E e t)
    (hrest : ∀ t, Issued b w t (script cfg full w.sync (desired cfg snapshot)) →
      wp (processGracefulQueue b >>= fun _ => laterStages b cfg (desired cfg snapshot)) Q E
        (commit (desired cfg snapshot) t)) :
    wp (reconcileInner b cfg full snapshot) Q E w := by
  have hR := script_issued b
  unfold reconcileInner netlink
  rw [wp_bind]
  refine wp_mono (follows_call b _ _ w) (fun _ t ht => ?_) (fun e t ht => ?_)
  · dsimp only
    rw [wp_bind]
    refine wp_mono (follows_toggleSloppyTcp b _ t) (fun _ u hu => ?_) (fun e u hu => ?_)
    · have hwu : Issued b w u [.call (.ensureDummyLink dummyIf)] := ht.trans hu
      have hevents : passEvents cfg full u.sync (desired cfg snapshot) =
          passEvents cfg full w.sync (desired cfg snapshot) := by
        unfold passEvents
        rw [hwu.applied, hwu.boundVips]
      rw [wp_bind, wp_get, wp_bind]
      refine wp_mono (follows_programTables b cfg full u.sync _ u) (fun _ v hv => ?_)
        (fun e v hv => ?_)
      · rw [hevents] at hv
        exact hrest v (hwu.trans hv)
      · rw [hevents] at hv
        exact hstop e v (hR.stop hwu hv)
    · exact hstop e u (hR.early (hR.stop ht hu))
  · exact hstop e t (hR.early ht)

/-! ## Preorders along the stages -/

/-- A call of the DSR stage. -/
def Call.isDsr : Call → Bool
  | addFwmarkService _ _ _ | addFwmarkDestination _ _ | mangleAppend _ _ _ => true
  | _ => false

/-- The destination a call gives to a virtual service; weight 0 takes it out. -/
def Call.given : Call → Option (IpvsService × IpvsDestination)
  | addDestination svc d | updateDestination svc d => if d.weight = 0 then none else some (svc, d)
  | _ => none

/-- No call of the DSR stage, and a destination it gives is a desired one. -/
def TableCall (D : Desired) (c : Call) : Prop :=
  c.isDsr = false ∧ ∀ svc d, c.given = some (svc, d) →
    ∃ (k : String) (e : Entry), D.services[k]? = some e ∧ e.1 = svc ∧ d ∈ e.2

/-- However `x` ends, `R` holds along it; and it fails only at a call that fails. -/
abbrev Keeps (b : Backend) (R : World → World → Prop) {α : Type} (x : Pass α) : Prop :=
  Ends R (fun w t => R w t ∧ ∃ n msg, b.fails n = some msg) x

/-- `R` holds along every step that a pass over `D` takes outside the DSR stage. -/
structure Walks (b : Backend) (D : Desired) (R : World → World → Prop) : Prop where
  refl : ∀ w, R w w
  trans : ∀ w t u, R w t → R t u → R w u
  ask : ∀ w n, R w { w with asked := n }
  sync : ∀ (f : ServiceSync → ServiceSync) (w : World),
      (f w.sync).dsrRegistry = w.sync.dsrRegistry →
    R w { w with sync := f w.sync }
  call : ∀ w c, TableCall D c →
    R w { w with kernel := b.exec w.kernel c, calls := w.calls ++ [c] }

namespace Walks

variable {b : Backend} {D : Desired} {R : World → World → Prop} (h : Walks b D R)

include h

theorem done {α : Type} (a : α) : Keeps b R (pure a : Pass α) := Ends.done h.refl a

theorem stop (w t u : World) (hwt : R w t) (htu : R t u ∧ ∃ n msg, b.fails n = some msg) :
    R w u ∧ ∃ n msg, b.fails n = some msg :=
  ⟨h.trans w t u hwt htu.1, htu.2⟩

theorem bind {α β : Type} {x : Pass α} {f : α → Pass β} (hx : Keeps b R x)
    (hf : ∀ a, Keeps b R (f a)) : Keeps b R (x >>= f) :=
  Ends.bind h.trans h.stop hx hf

theorem forM {ι : Type} {f : ι → Pass PUnit} (items : List ι) (hf : ∀ i ∈ items, Keeps b R (f i)) :
    Keeps b R (items.forM f) :=
  Ends.forM h.refl h.trans h.stop items hf

theorem get : Keeps b R (get : Pass World) := fun w => h.refl w

theorem question : Keeps b R Proxy.ask := fun w => h.ask w (w.asked + 1)

theorem modifySync {f : ServiceSync → ServiceSync}
    (hf : ∀ s, (f s).dsrRegistry = s.dsrRegistry) : Keeps b R (modifySync f) :=
  fun w => h.sync f w (hf w.sync)

theorem tableCall (err : String → SyncError) {c : Call} (hc : TableCall D c) :
    Keeps b R (Proxy.call b err c) := by
  refine h.bind h.question fun n => ?_
  cases hfail : b.fails n with
  | some msg => exact fun w => ⟨h.refl w, n, msg, hfail⟩
  | none => exact fun w => h.call w c hc

/-- A call that gives no destination. -/
theorem quiet (err : String → SyncError) {c : Call} (hdsr : c.isDsr = false)
    (hgiven : c.given = none) : Keeps b R (Proxy.call b err c) := by
  refine h.tableCall err ⟨hdsr, fun svc d hsome => ?_⟩
  rw [hgiven] at hsome
  cases hsome

theorem flushUdp (svc : IpvsService) : Keeps b R (flushUdp b svc) := by
  unfold Proxy.flushUdp
  split
  · exact h.quiet _ rfl rfl
  · exact h.done _

theorem programDestination {k : String} {e : Entry} (he : D.services[k]? = some e) (full : Bool)
    (prevDests : List IpvsDestination) {d : IpvsDestination} (hd : d ∈ e.2) :
    Keeps b R (programDestination b full e.1 prevDests d) := by
  have hgiven : ∀ c : Call, c = .addDestination e.1 d ∨ c = .updateDestination e.1 d →
      TableCall D c := by
    intro c hc
    refine ⟨by obtain rfl | rfl := hc <;> rfl, fun svc d' hsome => ?_⟩
    have heq : e.1 = svc ∧ d = d' := by
      obtain rfl | rfl := hc <;>
      · simp only [Call.given] at hsome
        split at hsome
        · cases hsome
        · cases hsome
          exact ⟨rfl, rfl⟩
    obtain ⟨rfl, rfl⟩ := heq
    exact ⟨k, e, he, rfl, hd⟩
  unfold Proxy.programDestination
  split
  · exact h.tableCall _ (hgiven _ (.inl rfl))
  · split
    · split
      · exact h.done _
      · exact h.tableCall _ (hgiven _ (.inr rfl))
    · exact h.tableCall _ (hgiven _ (.inl rfl))

theorem programService (full : Bool) (applied : ServiceTable) {item : String × Entry}
    (hitem : D.services[item.1]? = some item.2) :
    Keeps b R (programService b full applied item) := by
  refine h.bind ?_ fun _ => h.forM _ fun d hd => ?_
  · unfold addOrEditService
    split
    · split
      · exact h.quiet _ rfl rfl
      · split
        · exact h.quiet _ rfl rfl
        · exact h.done _
    · exact h.quiet _ rfl rfl
  · exact h.programDestination hitem full _ hd

theorem removeDestination (cfg : Config) (svc : IpvsService) (dst : IpvsDestination) :
    Keeps b R (removeDestination b cfg svc dst) := by
  have hdrain : Keeps b R (drainDestination b cfg svc dst) := by
    refine h.bind (h.quiet _ rfl rfl) fun _ => ?_
    exact h.bind (h.bind h.question fun _ => h.done _) fun _ => h.modifySync fun _ => rfl
  have hflush := h.flushUdp svc
  unfold Proxy.removeDestination
  split
  · exact h.bind hdrain fun _ => hflush
  · exact h.bind (h.quiet _ rfl rfl) fun _ => hflush

theorem programTables (cfg : Config) (full : Bool) (s : ServiceSync) :
    Keeps b R (programTables b cfg full s D) := by
  refine h.bind (h.forM _ fun item hitem => ?_) fun _ => ?_
  · exact h.programService full _ (Std.TreeMap.mem_toList_iff_getElem?_eq_some.mp hitem)
  refine h.bind (h.forM _ fun item _ => h.removeDestination cfg _ _) fun _ => ?_
  refine h.bind (h.forM _ fun svc _ => ?_) fun _ => ?_
  · exact h.bind (h.quiet _ rfl rfl) fun _ => h.flushUdp svc
  refine h.bind (h.forM _ fun vip _ => ?_) fun _ => ?_
  · unfold bindVip
    split
    · exact h.quiet _ rfl rfl
    · exact h.done _
  · exact h.forM _ fun vip _ => h.quiet _ rfl rfl

theorem toggleSloppyTcp (want : Bool) : Keeps b R (toggleSloppyTcp b want) := by
  refine h.bind h.get fun w => ?_
  split
  · refine h.bind h.question fun n => ?_
    split
    · exact h.modifySync fun _ => rfl
    · exact h.done _
  · exact h.done _

theorem processGracefulQueue : Keeps b R (processGracefulQueue b) := by
  refine h.bind h.get fun w => ?_
  split
  · exact h.done _
  · refine h.bind (h.bind h.question fun _ => h.done _) fun now => ?_
    refine h.bind (h.modifySync fun _ => rfl) fun _ => h.forM _ fun p _ => ?_
    refine h.bind h.get fun w => ?_
    split
    · exact h.done _
    · refine h.bind (h.bind h.get fun _ => ?_) fun stats => ?_
      · exact h.bind (h.quiet _ rfl rfl) fun _ => h.done _
      · split
        · exact h.quiet _ rfl rfl
        · exact h.modifySync fun _ => rfl

theorem updateMetrics (cfg : Config) : Keeps b R (updateMetrics b cfg) := by
  unfold Proxy.updateMetrics
  split
  · exact h.quiet _ rfl rfl
  · exact h.done _

theorem syncOthers : Keeps b R (syncOthers b) := by
  refine h.bind (h.quiet _ rfl rfl) fun _ => ?_
  refine h.bind (h.quiet _ rfl rfl) fun _ => ?_
  exact h.bind (h.quiet _ rfl rfl) fun _ => h.quiet _ rfl rfl

/-- All of a pass in front of the DSR stage. -/
theorem wp_front (cfg : Config) (full : Bool) (snapshot : Snapshot)
    (hD : D = desired cfg snapshot) (w : World) {Q : Unit → World → Prop}
    {E : SyncError → World → Prop}
    (hstop : ∀ e t, R w t → (∃ n msg, b.fails n = some msg) → E e t)
    (hrest : ∀ t, R w t →
      wp (do processDsrJobs b cfg D.dsrJobs; Proxy.syncOthers b) Q E t) :
    wp (reconcileInner b cfg full snapshot) Q E w := by
  -- one stage after another
  have hstep : ∀ {α : Type} {x : Pass α} {f : α → Pass Unit} {u : World}, Keeps b R x → R w u →
      (∀ a t, R w t → wp (f a) Q E t) → wp (x >>= f) Q E u := by
    intro α x f u hx hu hf
    rw [wp_bind]
    exact wp_mono (hx u) (fun a t ht => hf a t (h.trans _ _ _ hu ht))
      (fun e t ht => hstop e t (h.trans _ _ _ hu ht.1) ht.2)
  subst hD
  unfold reconcileInner
  refine hstep (h.quiet _ rfl rfl) (h.refl w) fun _ t ht => ?_
  refine hstep (h.toggleSloppyTcp _) ht fun _ t ht => ?_
  refine hstep h.get ht fun _ t ht => ?_
  refine hstep (h.programTables cfg full _) ht fun _ t ht => ?_
  refine hstep (h.modifySync fun _ => rfl) ht fun _ t ht => ?_
  refine hstep h.processGracefulQueue ht fun _ t ht => ?_
  exact hstep (h.updateMetrics cfg) ht fun _ t ht => hrest t ht

end Walks

end KubeRouter.Proxy
