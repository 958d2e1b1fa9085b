/-
  The tables of the service proxy over runs in which no call fails.

  `TableInv` ties the four pieces of state together: what is on record, the kernel's services,
  destinations and addresses, and the graceful queue. One pass keeps it (`pass_tables`): the
  script brings every cell to the record it is about to commit (`script_tables`), the queue
  only deletes what is not on that record (`sweep_tables`), the later stages touch nothing
  (`quiet_tables`).

  Proved:
  * `tables_follow_snapshot`: after every pass of every run from an empty kernel, services,
    addresses and destinations are the desired ones, up to drained destinations with weight 0
    that wait in the queue.
-/
import KubeRouter.Proxy.Effect

namespace KubeRouter.Proxy

open Program

/-! ## The queue -/

/-- No two entries for one service key and backend. -/
def QueueDistinct (q : List PendingRemoval) : Prop :=
  q.Pairwise fun p r => p.sameDst r.svc r.dst = false

theorem mem_enqueue {q : List PendingRemoval} {p : PendingRemoval} (h : p ∈ q)
    (svc : IpvsService) (dst : IpvsDestination) (deadline : Nat) :
    p ∈ enqueue q svc dst deadline := by
  unfold enqueue
  split
  · exact h
  · exact List.mem_append_left _ h

theorem enqueue_has (q : List PendingRemoval) (svc : IpvsService) (dst : IpvsDestination)
    (deadline : Nat) : ∃ p ∈ enqueue q svc dst deadline, p.sameDst svc dst = true := by
  unfold enqueue
  split
  · next h => simpa using h
  · refine ⟨_, List.mem_append_right _ List.mem_cons_self, ?_⟩
    simp [PendingRemoval.sameDst, IpvsDestination.same_self]

theorem enqueue_distinct {q : List PendingRemoval} (h : QueueDistinct q) (svc : IpvsService)
    (dst : IpvsDestination) (deadline : Nat) : QueueDistinct (enqueue q svc dst deadline) := by
  unfold enqueue
  split
  · exact h
  · next hnone =>
    unfold QueueDistinct
    rw [List.pairwise_append]
    refine ⟨h, List.pairwise_singleton _ _, ?_⟩
    intro p hp r hr
    rw [List.mem_singleton.mp hr]
    have hall : ∀ p ∈ q, p.sameDst svc dst = false := by simpa using hnone
    exact hall p hp

theorem enqueueAll_cons (q : List PendingRemoval) (p : PendingRemoval)
    (timed : List PendingRemoval) :
    enqueueAll q (p :: timed) = enqueueAll (enqueue q p.svc p.dst p.deadline) timed := rfl

theorem mem_enqueueAll {q : List PendingRemoval} {p : PendingRemoval} (h : p ∈ q)
    (timed : List PendingRemoval) : p ∈ enqueueAll q timed := by
  induction timed generalizing q with
  | nil => exact h
  | cons r timed ih =>
    rw [enqueueAll_cons]
    exact ih (mem_enqueue h _ _ _)

theorem enqueueAll_distinct {q : List PendingRemoval} (h : QueueDistinct q)
    (timed : List PendingRemoval) : QueueDistinct (enqueueAll q timed) := by
  induction timed generalizing q with
  | nil => exact h
  | cons r timed ih =>
    rw [enqueueAll_cons]
    exact ih (enqueue_distinct h _ _ _)

theorem enqueueAll_has {q timed : List PendingRemoval} {r : PendingRemoval} (hr : r ∈ timed) :
    ∃ p ∈ enqueueAll q timed, p.sameDst r.svc r.dst = true := by
  induction timed generalizing q with
  | nil => exact absurd hr List.not_mem_nil
  | cons r' timed ih =>
    rw [enqueueAll_cons]
    obtain rfl | hr := List.mem_cons.mp hr
    · obtain ⟨p, hp, hsame⟩ := enqueue_has q r.svc r.dst r.deadline
      exact ⟨p, mem_enqueueAll hp timed, hsame⟩
    · exact ih hr

theorem mem_drainsOf {es : List Event} {svc : IpvsService} {dst : IpvsDestination} :
    (svc, dst) ∈ drainsOf es ↔ .drain svc dst ∈ es := by
  unfold drainsOf
  rw [List.mem_filterMap]
  constructor
  · intro ⟨e, he, hd⟩
    cases e with
    | call c => exact absurd hd (by simp [Event.drain?])
    | drain svc' dst' =>
      cases hd
      exact he
  · intro h
    exact ⟨_, h, rfl⟩

/-- Without graceful termination nothing enters the queue. -/
theorem drainsOf_script {cfg : Config} (hg : cfg.graceful = false) (full : Bool)
    (s : ServiceSync) (D : Desired) : drainsOf (script cfg full s D) = [] := by
  rw [List.eq_nil_iff_forall_not_mem]
  intro ⟨svc, dst⟩ hmem
  rw [mem_drainsOf] at hmem
  unfold script passEvents at hmem
  have hflush : ∀ svc', Event.drain svc dst ∉ flushEvents svc' := by
    intro svc' h
    unfold flushEvents at h
    split at h <;> simp at h
  simp only [List.mem_cons, List.mem_append, List.mem_flatMap] at hmem
  obtain h | ⟨item, _, h⟩ | ⟨item, _, h⟩ | ⟨svc', _, h⟩ | ⟨v, _, h⟩ | ⟨v, _, h⟩ := hmem
  · cases h
  · unfold entryEvents at h
    obtain h | h := List.mem_append.mp h
    · unfold serviceEvents at h
      split at h
      · split at h
        · simp at h
        · split at h <;> simp at h
      · simp at h
    · obtain ⟨d, _, h⟩ := List.mem_flatMap.mp h
      unfold destEvents at h
      split at h
      · simp at h
      · split at h
        · split at h <;> simp at h
        · simp at h
  · simp only [removeEvents, hg, List.mem_append] at h
    obtain h | h := h
    · simp at h
    · exact hflush _ h
  · obtain h | h := List.mem_cons.mp h
    · cases h
    · exact hflush _ h
  · unfold bindEvents at h
    split at h <;> simp at h
  · simp [unbindEvents] at h

/-! ## Invariant -/

/-- Record and kernel agree, up to drained destinations that wait in the queue `q`. -/
structure Agree (applied : ServiceTable) (bound : Std.TreeSet IpAddr) (K : Kernel)
    (q : List PendingRemoval) : Prop where
  wf : TableWF applied
  unique : K.Unique
  services : ∀ k : String, K.services[k]? = serviceAt applied k
  addrs : ∀ v n, K.hasAddr dummyIf v n = true ↔ v ∈ bound ∧ n = prefixLen v
  recorded : ∀ k a p d, destAt applied k a p = some d → K.dest k a p = some d
  drained : ∀ k a p e, destAt applied k a p = none → K.dest k a p = some e →
    e.weight = 0 ∧ (serviceAt applied k).isSome ∧
      ∃ r ∈ q, svcKey r.svc = k ∧ r.dst.addr = a ∧ r.dst.port = p
  distinct : QueueDistinct q

/-- The invariant between passes. -/
structure TableInv (cfg : Config) (w : World) : Prop where
  agree : Agree w.sync.applied w.sync.boundVips w.kernel w.sync.gqueue
  apart : ∀ r ∈ w.sync.gqueue, destAt w.sync.applied (svcKey r.svc) r.dst.addr r.dst.port = none
  off : cfg.graceful = false → w.sync.gqueue = []

theorem tableInv_init (cfg : Config) : TableInv cfg {} where
  agree :=
    { wf := tableWF_empty
      unique := Kernel.unique_empty
      services := fun k => by simp [serviceAt]
      addrs := fun v n => by simp [Kernel.hasAddr]
      recorded := fun k a p d h => by simp [destAt, destsOf] at h
      drained := fun k a p e _ h => by simp [Kernel.dest, Kernel.dests] at h
      distinct := List.Pairwise.nil }
  apart := fun r hr => absurd hr List.not_mem_nil
  off := fun _ => rfl

section Step

variable {cfg : Config} {b : Backend}

/-- Under graceful termination a destination that lost its endpoint is queued after the
script. -/
theorem script_drains {full : Bool} {D : Desired} (hD : TableWF D.services) {w t : World}
    (h : Issued b w t (script cfg full w.sync D)) (hg : cfg.graceful = true) {k : String}
    {old : IpvsDestination} (hsvc : (serviceAt D.services k).isSome)
    (hold : old ∈ destsOf w.sync.applied k)
    (hnone : destAt D.services k old.addr old.port = none) :
    ∃ r ∈ t.sync.gqueue, svcKey r.svc = k ∧ r.dst.addr = old.addr ∧ r.dst.port = old.port := by
  obtain ⟨timed, hmap, hq⟩ := h.gqueue
  obtain ⟨e, he⟩ : ∃ e, D.services[k]? = some e := by
    rw [serviceAt, Option.isSome_map, Option.isSome_iff_exists] at hsvc
    exact hsvc
  have hdrain : (e.1, { old with weight := 0 }) ∈ drainsOf (script cfg full w.sync D) := by
    rw [mem_drainsOf]
    refine mem_of_removeEvents he hold (gone_of_destAt he hnone) ?_
    simp [removeEvents, hg]
  rw [← hmap] at hdrain
  obtain ⟨r, hr, hrd⟩ := List.mem_map.mp hdrain
  obtain ⟨hrsvc, hrdst⟩ := Prod.mk.inj hrd
  obtain ⟨p, hp, hsame⟩ := enqueueAll_has (q := w.sync.gqueue) hr
  rw [hrsvc, hrdst] at hsame
  obtain ⟨hkey, hdst⟩ : p.svc.key = e.1.key ∧ p.dst.same { old with weight := 0 } = true := by
    simpa [PendingRemoval.sameDst] using hsame
  refine ⟨p, hq ▸ hp, ?_, IpvsDestination.same_iff.mp hdst⟩
  rw [svcKey, hkey]
  exact (hD k e he).key

variable (hb : b.exec = Kernel.upsert)

include hb

/-- The script of a pass brings the kernel to the record that is about to be committed. -/
theorem script_tables {full : Bool} {D : Desired} (hD : TableWF D.services) {w t : World}
    (hw : TableInv cfg w) (h : Issued b w t (script cfg full w.sync D)) :
    Agree D.services D.wantVips t.kernel t.sync.gqueue ∧
      (cfg.graceful = false → t.sync.gqueue = []) := by
  obtain ⟨timed, hmap, hq⟩ := h.gqueue
  have hs := hw.agree.wf
  have hK : t.kernel = afterScript cfg full w.sync D w.kernel := by
    rw [h.kernel, hb]
    rfl
  refine ⟨⟨hD, ?_, ?_, ?_, ?_, ?_, ?_⟩, ?_⟩
  · rw [hK]
    exact Kernel.foldl_unique hw.agree.unique _
  · intro k
    rw [hK]
    by_cases hk : ServiceKept full w.sync D k
    · rw [(script_service hs hD w.kernel k).1 hk, hw.agree.services k]
      exact hk.1
    · exact (script_service hs hD w.kernel k).2 hk
  · intro v n
    rw [hK]
    by_cases hn : n = prefixLen v
    · subst hn
      by_cases hv : VipKept w.sync D v
      · rw [(script_addr w.kernel dummyIf v _).1 (Or.inr hv), hw.agree.addrs]
        simp only [and_true]
        exact hv
      · rw [(script_addr w.kernel dummyIf v _).2 ⟨rfl, rfl⟩ hv]
        simp
    · rw [(script_addr w.kernel dummyIf v n).1 (Or.inl fun e => hn e.2), hw.agree.addrs]
      simp [hn]
  · intro k a p d hd
    rw [hK]
    by_cases hk : DestKept full w.sync D k a p
    · rw [(script_dest hs hD w.kernel k a p).1 hk]
      exact hw.agree.recorded k a p d (hk.1.trans hd)
    · rw [(script_dest hs hD w.kernel k a p).2 hk, destTarget, hd]
  · intro k a p e hnone he
    rw [hK] at he
    by_cases hk : DestKept full w.sync D k a p
    · -- untouched: it was drained before, and its service stays
      rw [(script_dest hs hD w.kernel k a p).1 hk] at he
      obtain ⟨hweight, hsvc, r, hr, hrk⟩ := hw.agree.drained k a p e (hk.1.trans hnone) he
      refine ⟨hweight, ?_, r, ?_, hrk⟩
      · cases hDk : serviceAt D.services k with
        | none => exact absurd ⟨hDk, hsvc⟩ hk.2.2
        | some svc => rfl
      · rw [hq]
        exact mem_enqueueAll hr timed
    · -- written: it lost its endpoint in this pass and entered the queue
      rw [(script_dest hs hD w.kernel k a p).2 hk, destTarget, hnone] at he
      dsimp only at he
      split at he
      · next hcond =>
        obtain ⟨hg, hsvc⟩ := hcond
        obtain ⟨old, hold, rfl⟩ := Option.map_eq_some_iff.mp he
        obtain ⟨hin, rfl, rfl⟩ := hs.destAt_eq.mp hold
        exact ⟨rfl, hsvc, script_drains hD h hg hsvc hin hnone⟩
      · cases he
  · rw [hq]
    exact enqueueAll_distinct hw.agree.distinct timed
  · intro hg
    have hnil : timed = [] := List.map_eq_nil_iff.mp (hmap.trans (drainsOf_script hg _ _ _))
    rw [hq, hnil, hw.off hg]
    rfl

omit hb in
/-- With every recorded weight at 1, a queued destination is ready again exactly when it is on
record. -/
theorem readded_eq_false {applied : ServiceTable} (h : TableWF applied) (p : PendingRemoval) :
    readded applied p = false ↔
      destAt applied (svcKey p.svc) p.dst.addr p.dst.port = none := by
  unfold readded destAt
  rw [List.any_eq_false, List.find?_eq_none]
  constructor
  · intro hall d hd hsame
    refine hall d hd ?_
    rw [Bool.and_eq_true]
    exact ⟨hsame, by rw [h.weight hd]; rfl⟩
  · intro hall d hd hboth
    exact hall d hd (Bool.and_eq_true_iff.mp hboth).1

omit hb in
/-- The calls that work off the queue delete destinations, none of which is on record, and write
nothing else. -/
theorem Swept.writes {w t : World} {cs : List Call} (hwf : TableWF w.sync.applied)
    (h : Swept b w.sync.applied w.sync.gqueue w t cs) {c : Call} (hc : c ∈ cs) :
    c.Inert ∨ ∃ r : PendingRemoval, c = .delDestination r.svc r.dst ∧
      destAt w.sync.applied (svcKey r.svc) r.dst.addr r.dst.port = none := by
  refine (h.written c hc).imp_right fun ⟨r, _, hcr, hre⟩ => ⟨r, hcr, ?_⟩
  exact (readded_eq_false hwf r).mp hre

omit hb in
theorem Swept.serviceWrite {w t : World} {cs : List Call} (hwf : TableWF w.sync.applied)
    (h : Swept b w.sync.applied w.sync.gqueue w t cs) (k : String) :
    ∀ c ∈ cs, Kernel.serviceWrite k c = none := by
  intro c hc
  obtain hinert | ⟨r, rfl, _⟩ := h.writes hwf hc
  · exact (Kernel.inert_writes hinert k (.V4 0) 0 "" 0).1
  · rfl

omit hb in
theorem Swept.addrWrite {w t : World} {cs : List Call} (hwf : TableWF w.sync.applied)
    (h : Swept b w.sync.applied w.sync.gqueue w t cs) (l : String) (v : IpAddr) (n : Nat) :
    ∀ c ∈ cs, Kernel.addrWrite l v n c = none := by
  intro c hc
  obtain hinert | ⟨r, rfl, _⟩ := h.writes hwf hc
  · exact (Kernel.inert_writes hinert "" v 0 l n).2.2
  · rfl

omit hb in
/-- The only value written to a destination cell is its absence, and only off the record. -/
theorem Swept.destWrite {w t : World} {cs : List Call} (hwf : TableWF w.sync.applied)
    (h : Swept b w.sync.applied w.sync.gqueue w t cs) (k : String) (a : IpAddr) (p : UInt16) :
    ∀ c ∈ cs, ∀ v, Kernel.destWrite k a p c = some v →
      v = none ∧ destAt w.sync.applied k a p = none := by
  intro c hc v hv
  obtain hinert | ⟨r, rfl, hnone⟩ := h.writes hwf hc
  · rw [(Kernel.inert_writes hinert k a p "" 0).2.1] at hv
    cases hv
  · simp only [Kernel.destWrite] at hv
    split at hv
    · next heq =>
      obtain ⟨rfl, rfl, rfl⟩ := heq
      cases hv
      exact ⟨rfl, hnone⟩
    · cases hv

/-- Working off the queue deletes nothing that is on record. -/
theorem sweep_tables {w t : World} {cs : List Call}
    (hw : Agree w.sync.applied w.sync.boundVips w.kernel w.sync.gqueue)
    (hoff : cfg.graceful = false → w.sync.gqueue = [])
    (h : Swept b w.sync.applied w.sync.gqueue w t cs) : TableInv cfg t := by
  have hK : t.kernel = cs.foldl Kernel.upsert w.kernel := by rw [h.kernel, hb]
  have hdest := h.destWrite hw.wf
  refine ⟨⟨?_, ?_, ?_, ?_, ?_, ?_, ?_⟩, ?_, ?_⟩
  · rw [h.applied_eq]
    exact hw.wf
  · rw [hK]
    exact Kernel.foldl_unique hw.unique cs
  · intro k
    rw [hK, h.applied_eq, ← hw.services k]
    exact read_foldl_untouched (Kernel.writes_service k) cs w.kernel (h.serviceWrite hw.wf k)
  · intro v n
    have hread : t.kernel.hasAddr dummyIf v n = w.kernel.hasAddr dummyIf v n := by
      rw [hK]
      exact read_foldl_untouched (Kernel.writes_addr dummyIf v n) cs w.kernel
        (h.addrWrite hw.wf dummyIf v n)
    rw [hread, h.boundVips]
    exact hw.addrs v n
  · intro k a p d hd
    rw [h.applied_eq] at hd
    rw [hK]
    refine (read_foldl_untouched (Kernel.writes_dest k a p) cs w.kernel ?_).trans
      (hw.recorded k a p d hd)
    intro c hc
    cases hcw : Kernel.destWrite k a p c with
    | none => rfl
    | some v =>
      have hnone := (hdest k a p c hc v hcw).2
      rw [hd] at hnone
      cases hnone
  · intro k a p e hnone he
    rw [h.applied_eq] at hnone ⊢
    rw [hK] at he
    -- a deleted cell is empty, so this one was not written
    have hkeep : ∀ c ∈ cs, Kernel.destWrite k a p c = none := by
      intro c hc
      by_contra hne
      have hsome : (Kernel.destWrite k a p c).isSome := Option.isSome_iff_ne_none.mpr hne
      have hread := read_foldl_agree (Kernel.writes_dest k a p) (v := none) cs w.kernel
        (fun c hc v hv => (hdest k a p c hc v hv).1) (Or.inr ⟨c, hc, hsome⟩)
      rw [hread] at he
      cases he
    have hold : w.kernel.dest k a p = some e := by
      rw [← he]
      exact (read_foldl_untouched (Kernel.writes_dest k a p) cs w.kernel hkeep).symm
    obtain ⟨hweight, hs, r, hr, rfl, rfl, rfl⟩ := hw.drained k a p e hnone hold
    refine ⟨hweight, hs, r, ?_, rfl, rfl, rfl⟩
    obtain hwait | hdel := h.settled r hr ((readded_eq_false hw.wf r).mpr hnone)
    · exact hwait
    · have := hkeep _ hdel
      simp [Kernel.destWrite] at this
  · exact hw.distinct.sublist h.sublist
  · intro r hr
    rw [h.applied_eq]
    exact (readded_eq_false hw.wf r).mp (h.waiting r hr)
  · intro hg
    have hsub := h.sublist
    rw [hoff hg] at hsub
    exact List.sublist_nil.mp hsub

theorem quiet_tables {w t : World} (hw : TableInv cfg w) (h : Quiet b w t) : TableInv cfg t := by
  obtain ⟨hsvc, hdest, haddr, hunique⟩ := quiet_cells hb h
  refine ⟨⟨?_, ?_, ?_, ?_, ?_, ?_, ?_⟩, ?_, ?_⟩
  · rw [h.applied]
    exact hw.agree.wf
  · exact hunique hw.agree.unique
  · intro k
    rw [hsvc, h.applied]
    exact hw.agree.services k
  · intro v n
    rw [haddr, h.boundVips]
    exact hw.agree.addrs v n
  · intro k a p d hd
    rw [hdest]
    exact hw.agree.recorded k a p d (h.applied ▸ hd)
  · intro k a p e hnone he
    rw [h.applied] at hnone ⊢
    rw [hdest] at he
    rw [h.gqueue]
    exact hw.agree.drained k a p e hnone he
  · rw [h.gqueue]
    exact hw.agree.distinct
  · rw [h.gqueue, h.applied]
    exact hw.apart
  · rw [h.gqueue]
    exact hw.off

end Step

/-! ## Passes and runs -/

/-- Calls that never delete a destination desired in `D`. -/
def SparesDesired (D : Desired) (cs : List Call) : Prop :=
  ∀ svc dst, .delDestination svc dst ∈ cs →
    ∀ d ∈ destsOf D.services (svcKey svc), d.same dst = false

/-- No write to a service or a destination. -/
def NoTableWrites (cs : List Call) : Prop :=
  ∀ c ∈ cs, c.isServiceWrite = false ∧ c.isDestWrite = false

/-- An environment with the mocks' tables in which no call fails. Connection counts, clock and
sysctl writes are arbitrary. -/
def Backend.reliable (connStats : Nat → Option (UInt32 × UInt32)) (now : Nat → Nat)
    (sysctl : Nat → Bool) : Backend where
  connStats := connStats
  now := now
  sysctl := sysctl

/-- The outcome of a pass over `snapshot` from `w` to `t`. -/
structure PassDone (cfg : Config) (full : Bool) (snapshot : Snapshot) (w t : World) : Prop where
  inv : TableInv cfg t
  applied : t.sync.applied = (desired cfg snapshot).services
  boundVips : t.sync.boundVips = (desired cfg snapshot).wantVips
  calls : ∃ cs, t.calls = w.calls ++ cs ∧ SparesDesired (desired cfg snapshot) cs ∧
    (cfg.graceful = false → full = false → w.sync.applied = (desired cfg snapshot).services →
      NoTableWrites cs)

/-- The calls of a script spare what is desired. -/
theorem script_spares (cfg : Config) (full : Bool) (s : ServiceSync) (D : Desired)
    (hD : TableWF D.services) : SparesDesired D (callsOf (script cfg full s D)) := by
  intro svc dst hmem d hd
  generalize hc : Call.delDestination svc dst = c at hmem
  cases scripted_of_mem hmem with
  | @delDest k e old he hold hgone hg =>
    cases hc
    rw [(hD k e he).key, destsOf_eq he] at hd
    exact hgone d hd
  | _ => cases hc

/-- An event pass whose record is what is desired writes no service and no destination. -/
theorem script_silent (cfg : Config) (s : ServiceSync) (D : Desired) (hD : TableWF D.services)
    (happ : s.applied = D.services) : NoTableWrites (callsOf (script cfg false s D)) := by
  intro c hc
  cases scripted_of_mem hc with
  | @add k e he hnew =>
    rw [happ, serviceAt_eq_some he] at hnew
    simp at hnew
  | @edit k e p he hp hne =>
    rw [happ, serviceAt_eq_some he] at hp
    exact absurd (Option.some.inj hp).symm hne
  | @addDest k e d he hd hnew =>
    rw [happ, hD.destAt_eq.mpr ⟨(destsOf_eq he).symm ▸ hd, rfl, rfl⟩] at hnew
    simp at hnew
  | @updateDest k e d o he hd hevent ho hne =>
    rw [happ, hD.destAt_eq.mpr ⟨(destsOf_eq he).symm ▸ hd, rfl, rfl⟩] at ho
    exact absurd (Option.some.inj ho).symm hne
  | @drain k e old he hold hgone hg =>
    rw [happ, destsOf_eq he] at hold
    have := hgone old hold
    rw [IpvsDestination.same_self] at this
    cases this
  | @delDest k e old he hold hgone hg =>
    rw [happ, destsOf_eq he] at hold
    have := hgone old hold
    rw [IpvsDestination.same_self] at this
    cases this
  | @delService k e he hgone =>
    rw [happ, hgone] at he
    cases he
  | _ => exact ⟨rfl, rfl⟩

theorem SparesDesired.append {D : Desired} {cs ds : List Call} (h : SparesDesired D cs)
    (k : SparesDesired D ds) : SparesDesired D (cs ++ ds) := by
  intro svc dst hmem
  obtain hmem | hmem := List.mem_append.mp hmem
  · exact h svc dst hmem
  · exact k svc dst hmem

theorem NoTableWrites.append {cs ds : List Call} (h : NoTableWrites cs) (k : NoTableWrites ds) :
    NoTableWrites (cs ++ ds) := by
  intro c hmem
  obtain hmem | hmem := List.mem_append.mp hmem
  · exact h c hmem
  · exact k c hmem

theorem spares_of_inert {D : Desired} {cs : List Call} (h : ∀ c ∈ cs, c.Inert) :
    SparesDesired D cs := by
  intro svc dst hmem
  exact absurd (h _ hmem).2.1 (by simp [Call.isDestWrite])

/-- Working off the queue spares what is desired. -/
theorem swept_spares {b : Backend} {D : Desired} (hD : TableWF D.services)
    {items : List PendingRemoval} {w t : World} {cs : List Call}
    (h : Swept b D.services items w t cs) : SparesDesired D cs := by
  intro svc dst hmem d hd
  obtain hinert | ⟨r, _, hcr, hre⟩ := h.written _ hmem
  · exact absurd hinert.2.1 (by simp [Call.isDestWrite])
  · cases hcr
    have hnone := (readded_eq_false hD r).mp hre
    unfold destAt at hnone
    rw [List.find?_eq_none] at hnone
    exact Bool.eq_false_iff.mpr (hnone d hd)

section Run

variable (cfg : Config) (connStats : Nat → Option (UInt32 × UInt32)) (now : Nat → Nat)
  (sysctl : Nat → Bool)

/-- One pass. An error can only come from the DSR stage, behind the tables. -/
theorem pass_tables (full : Bool) (snapshot : Snapshot) {w : World} (hw : TableInv cfg w) :
    wp (reconcileInner (.reliable connStats now sysctl) cfg full snapshot)
      (fun _ t => PassDone cfg full snapshot w t)
      (fun _ t => PassDone cfg full snapshot w t ∧ cfg.dsrMangle ≠ []) w := by
  have hnever : ¬∃ n msg, (Backend.reliable connStats now sysctl).fails n = some msg := by
    intro ⟨n, msg, h⟩
    cases h
  have hD := desired_wf cfg snapshot
  refine wp_reconcileInner _ cfg full snapshot w (fun _ t ht => absurd ht.fails hnever) ?_
  intro t ht
  obtain ⟨hagree, hoff⟩ := script_tables rfl hD hw ht
  rw [wp_bind]
  refine wp_mono (wp_processGracefulQueue _ (commit (desired cfg snapshot) t)) (fun _ u hu => ?_)
    (fun _ _ he => absurd he hnever)
  obtain ⟨cs, hswept⟩ := hu
  have hu : TableInv cfg u :=
    sweep_tables (w := commit (desired cfg snapshot) t) rfl hagree hoff hswept
  -- what the later stages leave behind, however they end
  have hdone : ∀ v, Quiet (.reliable connStats now sysctl) u v →
      PassDone cfg full snapshot w v := by
    intro v hv
    obtain ⟨ds, hinert, hcalls, _⟩ := hv.calls
    refine ⟨quiet_tables rfl hu hv, hv.applied.trans hswept.applied_eq,
      hv.boundVips.trans hswept.boundVips,
      callsOf (script cfg full w.sync (desired cfg snapshot)) ++ (cs ++ ds), ?_, ?_, ?_⟩
    · have hbefore : (commit (desired cfg snapshot) t).calls = t.calls := rfl
      rw [hcalls, hswept.calls, hbefore, ht.calls]
      simp
    · exact (script_spares cfg full w.sync _ hD).append
        ((swept_spares hD hswept).append (spares_of_inert hinert))
    · intro hg hevent happ
      subst hevent
      refine (script_silent cfg w.sync _ hD happ).append (NoTableWrites.append ?_ ?_)
      · intro c hc
        obtain h | ⟨r, hr, _⟩ := hswept.written c hc
        · exact ⟨h.1, h.2.1⟩
        · have hempty : (commit (desired cfg snapshot) t).sync.gqueue = [] := hoff hg
          rw [hempty] at hr
          exact absurd hr List.not_mem_nil
      · intro c hc
        exact ⟨(hinert c hc).1, (hinert c hc).2.1⟩
  by_cases hdsr : cfg.dsrMangle = []
  · have hboth := wp_and (quiet_laterStages _ cfg (desired cfg snapshot) u)
      (laterStages_stops (.reliable connStats now sysctl) hdsr (desired cfg snapshot) u)
    exact wp_mono hboth (fun _ v hv => hdone v hv.1) (fun _ v hv => absurd hv.2 hnever)
  · exact wp_mono (quiet_laterStages _ cfg (desired cfg snapshot) u) (fun _ v hv => hdone v hv)
      (fun _ v hv => ⟨hdone v hv, hdsr⟩)

theorem passWorld_done (pass : Bool × Snapshot) {w : World} (hw : TableInv cfg w) :
    PassDone cfg pass.1 pass.2 w (passWorld (.reliable connStats now sysctl) cfg w pass) := by
  have h := pass_tables cfg connStats now sysctl pass.1 pass.2 hw
  exact wp_state (wp_mono h (fun _ _ ht => ht) (fun _ _ ht => ht.1))

/-- The invariant holds after every run. -/
theorem run_tables (passes : List (Bool × Snapshot)) :
    TableInv cfg (runPasses (.reliable connStats now sysctl) cfg passes {}) := by
  unfold runPasses
  refine List.foldlRecOn (motive := TableInv cfg) passes _ (tableInv_init cfg) ?_
  intro w hw pass _
  exact (passWorld_done cfg connStats now sysctl pass hw).inv

/-- The record after a run whose last pass had the snapshot `snapshot`. -/
theorem run_applied {passes : List (Bool × Snapshot)} {full : Bool} {snapshot : Snapshot}
    (h : passes.getLast? = some (full, snapshot)) :
    (runPasses (.reliable connStats now sysctl) cfg passes {}).sync.applied =
      (desired cfg snapshot).services := by
  obtain ⟨init, rfl⟩ := List.getLast?_eq_some_iff.mp h
  have hinit := run_tables cfg connStats now sysctl init
  unfold runPasses
  rw [List.foldl_append]
  exact (passWorld_done cfg connStats now sysctl (full, snapshot) hinit).applied

end Run

/-- The kernel's tables are the ones desired in `D`, up to drained destinations that wait in
the queue. -/
structure TablesMatch (D : Desired) (w : World) : Prop where
  services : ∀ k : String, w.kernel.services[k]? = serviceAt D.services k
  addrs : ∀ v n, (dummyIf, v, n) ∈ w.kernel.addrs ↔ v ∈ D.wantVips ∧ n = prefixLen v
  present : ∀ k, ∀ d ∈ destsOf D.services k, d ∈ w.kernel.dests k ∧ d.weight = 1
  extra : ∀ k, ∀ d ∈ w.kernel.dests k, d ∈ destsOf D.services k ∨
    d.weight = 0 ∧ (serviceAt D.services k).isSome ∧
      ∃ r ∈ w.sync.gqueue, svcKey r.svc = k ∧ r.dst.same d = true
  unique : w.kernel.Unique
  distinct : QueueDistinct w.sync.gqueue
  apart : ∀ r ∈ w.sync.gqueue, ∀ d ∈ destsOf D.services (svcKey r.svc), d.same r.dst = false

theorem TableInv.tablesMatch {cfg : Config} {w : World} {D : Desired} (h : TableInv cfg w)
    (happ : w.sync.applied = D.services) (hbound : w.sync.boundVips = D.wantVips) :
    TablesMatch D w := by
  obtain ⟨hagree, hapart, _⟩ := h
  rw [happ, hbound] at hagree
  rw [happ] at hapart
  refine ⟨hagree.services, ?_, ?_, ?_, hagree.unique, hagree.distinct, ?_⟩
  · intro v n
    rw [← hagree.addrs v n]
    simp [Kernel.hasAddr]
  · intro k d hd
    have hat := hagree.wf.destAt_eq.mpr ⟨hd, rfl, rfl⟩
    exact ⟨(Kernel.mem_dests_iff hagree.unique k d).mpr (hagree.recorded k _ _ d hat),
      hagree.wf.weight hd⟩
  · intro k d hd
    have hcell := (Kernel.mem_dests_iff hagree.unique k d).mp hd
    cases hat : destAt D.services k d.addr d.port with
    | some d' =>
      left
      have heq := hagree.recorded k _ _ d' hat
      rw [hcell] at heq
      rw [Option.some.inj heq]
      exact (hagree.wf.destAt_eq.mp hat).1
    | none =>
      right
      obtain ⟨hweight, hsvc, r, hr, hk, hsame⟩ := hagree.drained k _ _ d hat hcell
      exact ⟨hweight, hsvc, r, hr, hk, IpvsDestination.same_iff.mpr hsame⟩
  · intro r hr d hd
    have hnone := hapart r hr
    unfold destAt at hnone
    rw [List.find?_eq_none] at hnone
    exact Bool.eq_false_iff.mpr (hnone d hd)

/-- The tables after every pass of every run from an empty kernel in which no call fails.
`passes` is the run before the pass: full resyncs and event passes over any snapshots. -/
theorem tables_follow_snapshot (cfg : Config) (connStats : Nat → Option (UInt32 × UInt32))
    (now : Nat → Nat) (sysctl : Nat → Bool) (passes : List (Bool × Snapshot)) (full : Bool)
    (snapshot : Snapshot) :
    let b := Backend.reliable connStats now sysctl
    let w := runPasses b cfg passes {}
    let r := Prog.exec (reconcileInner b cfg full snapshot) w
    let D := desired cfg snapshot
    (cfg.dsrMangle = [] → r.1 = .ok ()) ∧
    TablesMatch D r.2 ∧
    (cfg.graceful = false → r.2.sync.gqueue = [] ∧
      ∀ k d, d ∈ r.2.kernel.dests k ↔ d ∈ destsOf D.services k) ∧
    ∃ cs, r.2.calls = w.calls ++ cs ∧ SparesDesired D cs ∧
      (cfg.graceful = false → full = false →
        ∀ full', passes.getLast? = some (full', snapshot) → NoTableWrites cs) := by
  intro b w r D
  have hw : TableInv cfg w := run_tables cfg connStats now sysctl passes
  have hdone : PassDone cfg full snapshot w r.2 :=
    passWorld_done cfg connStats now sysctl (full, snapshot) hw
  have hmatch := hdone.inv.tablesMatch hdone.applied hdone.boundVips
  obtain ⟨cs, hcalls, hspares, hsilent⟩ := hdone.calls
  refine ⟨?_, hmatch, ?_, cs, hcalls, hspares, ?_⟩
  · intro hdsr
    have hpass := pass_tables cfg connStats now sysctl full snapshot hw
    obtain ⟨a, ha⟩ := wp_total (wp_mono hpass (fun _ _ ht => ht) (fun _ _ ht => ht.2 hdsr))
    exact ha
  · intro hg
    have hempty := hdone.inv.off hg
    refine ⟨hempty, fun k d => ⟨fun hd => ?_, fun hd => (hmatch.present k d hd).1⟩⟩
    obtain hin | ⟨_, _, p, hp, _⟩ := hmatch.extra k d hd
    · exact hin
    · rw [hempty] at hp
      exact absurd hp List.not_mem_nil
  · intro hg hevent full' hlast
    exact hsilent hg hevent (run_applied cfg connStats now sysctl hlast)

end KubeRouter.Proxy
