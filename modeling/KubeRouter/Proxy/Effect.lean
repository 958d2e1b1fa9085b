/-
  What the script of a pass does to the kernel's tables, cell by cell.

  `Scripted` lists the calls of a script with their reasons. All writes of one script to one
  cell store the same value, the cell's target, so the order of the loops does not matter: a
  cell that is written ends at its target, any other cell keeps its value
  (`script_service`, `script_dest`, `script_addr`). A pass writes a cell exactly where the
  record differs from what is desired, and a full resync also where something is desired; VIPs
  are written by the difference alone, in every pass.
-/
import KubeRouter.Proxy.Script

namespace KubeRouter.Proxy

open Program

/-! ## The calls of a script -/

/-- The service recorded under `k`. -/
def serviceAt (m : ServiceTable) (k : String) : Option IpvsService := m[k]?.map (·.1)

/-- The calls of a script and what leads to each of them. -/
inductive Scripted (cfg : Config) (full : Bool) (s : ServiceSync) (D : Desired) : Call → Prop
  | link : Scripted cfg full s D (.ensureDummyLink dummyIf)
  | add {k : String} {e : Entry} (he : D.services[k]? = some e)
      (hnew : serviceAt s.applied k = none ∨ full = true ∧ serviceAt s.applied k = some e.1) :
      Scripted cfg full s D (.addService e.1)
  | edit {k : String} {e : Entry} {p : IpvsService} (he : D.services[k]? = some e)
      (hp : serviceAt s.applied k = some p) (hne : p ≠ e.1) :
      Scripted cfg full s D (.editService e.1)
  | addDest {k : String} {e : Entry} {d : IpvsDestination} (he : D.services[k]? = some e)
      (hd : d ∈ e.2) (hnew : full = true ∨ destAt s.applied k d.addr d.port = none) :
      Scripted cfg full s D (.addDestination e.1 d)
  | updateDest {k : String} {e : Entry} {d o : IpvsDestination} (he : D.services[k]? = some e)
      (hd : d ∈ e.2) (hevent : full = false) (ho : destAt s.applied k d.addr d.port = some o)
      (hne : o ≠ d) : Scripted cfg full s D (.updateDestination e.1 d)
  | drain {k : String} {e : Entry} {old : IpvsDestination} (he : D.services[k]? = some e)
      (hold : old ∈ destsOf s.applied k) (hgone : ∀ d ∈ e.2, d.same old = false)
      (hg : cfg.graceful = true) :
      Scripted cfg full s D (.updateDestination e.1 { old with weight := 0 })
  | delDest {k : String} {e : Entry} {old : IpvsDestination} (he : D.services[k]? = some e)
      (hold : old ∈ destsOf s.applied k) (hgone : ∀ d ∈ e.2, d.same old = false)
      (hg : cfg.graceful = false) : Scripted cfg full s D (.delDestination e.1 old)
  | delService {k : String} {e : Entry} (he : s.applied[k]? = some e)
      (hgone : D.services[k]? = none) : Scripted cfg full s D (.delService e.1)
  | flush (a : IpAddr) (p : UInt16) : Scripted cfg full s D (.flushConntrackUdp a p)
  | bind {v : IpAddr} (hw : v ∈ D.wantVips) (hb : v ∉ s.boundVips) :
      Scripted cfg full s D (.addrAdd dummyIf v (prefixLen v))
  | unbind {v : IpAddr} (hb : v ∈ s.boundVips) (hw : v ∉ D.wantVips) :
      Scripted cfg full s D (.addrDel dummyIf v (prefixLen v))

section Script

variable {cfg : Config} {full : Bool} {s : ServiceSync} {D : Desired} {c : Call}

theorem mem_callsOf {es : List Event} : c ∈ callsOf es ↔ .call c ∈ es := by
  unfold callsOf
  rw [List.mem_filterMap]
  constructor
  · rintro ⟨e, he, hc⟩
    cases e with
    | call c' =>
      cases hc
      exact he
    | drain svc dst => exact absurd hc (by simp [Event.call?])
  · intro h
    exact ⟨_, h, rfl⟩

theorem mem_flushEvents {svc : IpvsService} (h : Event.call c ∈ flushEvents svc) :
    c = .flushConntrackUdp svc.addr svc.port := by
  unfold flushEvents at h
  split at h
  · simpa using h
  · exact absurd h List.not_mem_nil

theorem mem_staleDests {m m' : ServiceTable} {svc : IpvsService} {old : IpvsDestination} :
    (svc, old) ∈ staleDests m m' ↔ ∃ (k : String) (e : Entry), m'[k]? = some e ∧ e.1 = svc ∧
      old ∈ destsOf m k ∧ ∀ d ∈ e.2, d.same old = false := by
  unfold staleDests
  rw [List.mem_flatMap]
  constructor
  · rintro ⟨⟨k, e⟩, hmem, hin⟩
    obtain ⟨old', hold, heq⟩ := List.mem_map.mp hin
    obtain ⟨hmem', hgone⟩ := List.mem_filter.mp hold
    cases heq
    refine ⟨k, e, Std.TreeMap.mem_toList_iff_getElem?_eq_some.mp hmem, rfl, hmem', ?_⟩
    simpa using hgone
  · rintro ⟨k, e, he, rfl, hold, hgone⟩
    refine ⟨(k, e), Std.TreeMap.mem_toList_iff_getElem?_eq_some.mpr he, ?_⟩
    refine List.mem_map.mpr ⟨old, List.mem_filter.mpr ⟨hold, ?_⟩, rfl⟩
    simpa using hgone

theorem mem_removedSvcs {m m' : ServiceTable} {svc : IpvsService} :
    svc ∈ removedSvcs m m' ↔
      ∃ (k : String) (e : Entry), m[k]? = some e ∧ e.1 = svc ∧ m'[k]? = none := by
  unfold removedSvcs
  rw [List.mem_map]
  constructor
  · rintro ⟨⟨k, e⟩, hmem, rfl⟩
    obtain ⟨hin, hnot⟩ := List.mem_filter.mp hmem
    refine ⟨k, e, Std.TreeMap.mem_toList_iff_getElem?_eq_some.mp hin, rfl, ?_⟩
    rw [Bool.not_eq_true', Std.TreeMap.contains_eq_isSome_getElem?] at hnot
    exact Option.not_isSome_iff_eq_none.mp (by rw [hnot]; exact Bool.false_ne_true)
  · rintro ⟨k, e, he, rfl, hnot⟩
    refine ⟨(k, e), List.mem_filter.mpr ⟨Std.TreeMap.mem_toList_iff_getElem?_eq_some.mpr he, ?_⟩,
      rfl⟩
    rw [Bool.not_eq_true', Std.TreeMap.contains_eq_isSome_getElem?, hnot]
    rfl

theorem not_mem_of_contains {vips : Std.TreeSet IpAddr} {v : IpAddr}
    (h : vips.contains v = false) : v ∉ vips := by
  rw [Std.TreeSet.mem_iff_contains, h]
  exact Bool.false_ne_true

theorem mem_entryEvents {k : String} {e : Entry} (he : D.services[k]? = some e)
    (hc : Event.call c ∈ entryEvents full s.applied (k, e)) : Scripted cfg full s D c := by
  unfold entryEvents at hc
  obtain hc | hc := List.mem_append.mp hc
  · unfold serviceEvents at hc
    dsimp only at hc
    cases happ : s.applied[k]? with
    | none =>
      rw [happ] at hc
      have hc : c = .addService e.1 := by simpa using hc
      rw [hc]
      exact .add he (Or.inl (by simp [serviceAt, happ]))
    | some prev =>
      rw [happ] at hc
      have hat : serviceAt s.applied k = some prev.1 := by simp [serviceAt, happ]
      by_cases hp : prev.1 = e.1
      · cases full with
        | true =>
          have hc : c = .addService e.1 := by simpa [hp] using hc
          rw [hc]
          exact .add he (Or.inr ⟨rfl, by rw [hat, hp]⟩)
        | false => simp [hp] at hc
      · have hc : c = .editService e.1 := by simpa [hp] using hc
        rw [hc]
        exact .edit he hat hp
  · obtain ⟨d, hd, hc⟩ := List.mem_flatMap.mp hc
    unfold destEvents at hc
    cases full with
    | true =>
      have hc : c = .addDestination e.1 d := by simpa using hc
      rw [hc]
      exact .addDest he hd (Or.inl rfl)
    | false =>
      rw [if_neg (by simp)] at hc
      dsimp only at hc
      cases hprev : destAt s.applied k d.addr d.port with
      | none =>
        rw [show (destsOf s.applied k).find? (fun o => o.addr == d.addr && o.port == d.port) = none
          from hprev] at hc
        have hc : c = .addDestination e.1 d := by simpa using hc
        rw [hc]
        exact .addDest he hd (Or.inr hprev)
      | some o =>
        rw [show (destsOf s.applied k).find? (fun o => o.addr == d.addr &&
          o.port == d.port) = some o
          from hprev] at hc
        by_cases ho : o = d
        · simp [ho] at hc
        · have hc : c = .updateDestination e.1 d := by simpa [ho] using hc
          rw [hc]
          exact .updateDest he hd rfl hprev ho

theorem scripted_of_mem (hc : c ∈ callsOf (script cfg full s D)) : Scripted cfg full s D c := by
  rw [mem_callsOf] at hc
  unfold script passEvents at hc
  simp only [List.mem_cons, List.mem_append, List.mem_flatMap] at hc
  obtain hc | ⟨⟨k, e⟩, hmem, hc⟩ | ⟨⟨svc, old⟩, hmem, hc⟩ | ⟨svc, hmem, hc⟩ | ⟨v, hmem, hc⟩ |
    ⟨v, hmem, hc⟩ := hc
  · cases hc
    exact .link
  · exact mem_entryEvents (Std.TreeMap.mem_toList_iff_getElem?_eq_some.mp hmem) hc
  · obtain ⟨k, e, he, rfl, hold, hgone⟩ := mem_staleDests.mp hmem
    obtain hc | hc := List.mem_append.mp hc
    · cases hg : cfg.graceful with
      | true =>
        have hc : c = .updateDestination e.1 { old with weight := 0 } := by simpa [hg] using hc
        rw [hc]
        exact .drain he hold hgone hg
      | false =>
        have hc : c = .delDestination e.1 old := by simpa [hg] using hc
        rw [hc]
        exact .delDest he hold hgone hg
    · rw [mem_flushEvents hc]
      exact .flush _ _
  · obtain ⟨k, e, he, rfl, hgone⟩ := mem_removedSvcs.mp hmem
    obtain hc | hc := List.mem_cons.mp hc
    · cases hc
      exact .delService he hgone
    · rw [mem_flushEvents hc]
      exact .flush _ _
  · unfold bindEvents at hc
    split at hc
    · next hb =>
      have hc : c = .addrAdd dummyIf v (prefixLen v) := by simpa using hc
      rw [hc]
      exact .bind (Std.TreeSet.mem_toList.mp hmem)
        (not_mem_of_contains (by simpa using hb))
    · exact absurd hc List.not_mem_nil
  · obtain ⟨hb, hw⟩ := List.mem_filter.mp hmem
    have hc : c = .addrDel dummyIf v (prefixLen v) := by simpa [unbindEvents] using hc
    rw [hc]
    exact .unbind (Std.TreeSet.mem_toList.mp hb) (not_mem_of_contains (by simpa using hw))

theorem mem_of_entryEvents {k : String} {e : Entry} {ev : Event} (he : D.services[k]? = some e)
    (hev : ev ∈ entryEvents full s.applied (k, e)) : ev ∈ script cfg full s D := by
  unfold script passEvents
  refine List.mem_cons_of_mem _ (List.mem_append_left _ (List.mem_flatMap.mpr ⟨(k, e), ?_, hev⟩))
  exact Std.TreeMap.mem_toList_iff_getElem?_eq_some.mpr he

theorem mem_of_removeEvents {k : String} {e : Entry} {old : IpvsDestination} {ev : Event}
    (he : D.services[k]? = some e) (hold : old ∈ destsOf s.applied k)
    (hgone : ∀ d ∈ e.2, d.same old = false) (hev : ev ∈ removeEvents cfg (e.1, old)) :
    ev ∈ script cfg full s D := by
  unfold script passEvents
  refine List.mem_cons_of_mem _ (List.mem_append_right _ (List.mem_append_left _ ?_))
  exact List.mem_flatMap.mpr ⟨(e.1, old), mem_staleDests.mpr ⟨k, e, he, rfl, hold, hgone⟩, hev⟩

/-- Every reason for a call but a flush leads to the call. -/
theorem mem_of_scripted (h : Scripted cfg full s D c) :
    c ∈ callsOf (script cfg full s D) ∨ ∃ a p, c = .flushConntrackUdp a p := by
  rw [mem_callsOf]
  cases h with
  | flush a p => exact Or.inr ⟨a, p, rfl⟩
  | link => exact Or.inl List.mem_cons_self
  | @add k e he hnew =>
    left
    refine mem_of_entryEvents he (List.mem_append_left _ ?_)
    unfold serviceEvents
    unfold serviceAt at hnew
    cases happ : s.applied[k]? with
    | none => simp
    | some prev =>
      rw [happ] at hnew
      obtain hnone | ⟨hfull, hsome⟩ := hnew
      · exact absurd hnone (by simp)
      · have hp : prev.1 = e.1 := by simpa using hsome
        simp [hp, hfull]
  | @edit k e p he hp hne =>
    left
    refine mem_of_entryEvents he (List.mem_append_left _ ?_)
    unfold serviceEvents
    unfold serviceAt at hp
    cases happ : s.applied[k]? with
    | none => simp [happ] at hp
    | some prev =>
      rw [happ] at hp
      have hprev : prev.1 = p := by simpa using hp
      simp [hprev, hne]
  | @addDest k e d he hd hnew =>
    left
    refine mem_of_entryEvents he (List.mem_append_right _ (List.mem_flatMap.mpr ⟨d, hd, ?_⟩))
    unfold destEvents
    obtain hfull | hprev := hnew
    · simp [hfull]
    · unfold destAt at hprev
      simp [hprev]
  | @updateDest k e d o he hd hevent ho hne =>
    left
    refine mem_of_entryEvents he (List.mem_append_right _ (List.mem_flatMap.mpr ⟨d, hd, ?_⟩))
    unfold destEvents
    unfold destAt at ho
    simp [hevent, ho, hne]
  | drain he hold hgone hg =>
    left
    refine mem_of_removeEvents he hold hgone ?_
    simp [removeEvents, hg]
  | delDest he hold hgone hg =>
    left
    refine mem_of_removeEvents he hold hgone ?_
    simp [removeEvents, hg]
  | @delService k e he hgone =>
    left
    unfold script passEvents
    refine List.mem_cons_of_mem _ (List.mem_append_right _ (List.mem_append_right _
      (List.mem_append_left _ (List.mem_flatMap.mpr ⟨e.1, ?_, List.mem_cons_self⟩))))
    exact mem_removedSvcs.mpr ⟨k, e, he, rfl, hgone⟩
  | @bind v hw hb =>
    left
    unfold script passEvents
    refine List.mem_cons_of_mem _ (List.mem_append_right _ (List.mem_append_right _
      (List.mem_append_right _ (List.mem_append_left _ (List.mem_flatMap.mpr ⟨v, ?_, ?_⟩)))))
    · exact Std.TreeSet.mem_toList.mpr hw
    · rw [Std.TreeSet.mem_iff_contains] at hb
      simp [bindEvents, hb]
  | @unbind v hb hw =>
    left
    unfold script passEvents
    refine List.mem_cons_of_mem _ (List.mem_append_right _ (List.mem_append_right _
      (List.mem_append_right _ (List.mem_append_right _ (List.mem_flatMap.mpr ⟨v, ?_, ?_⟩)))))
    · rw [Std.TreeSet.mem_iff_contains] at hw
      have hw' : D.wantVips.contains v = false := Bool.eq_false_iff.mpr hw
      exact List.mem_filter.mpr ⟨Std.TreeSet.mem_toList.mpr hb, by rw [hw']; rfl⟩
    · simp [unbindEvents]

/-- A call that writes a cell is in the script itself: only a flush may be left out, and it
writes nothing. -/
theorem exists_write {V : Type} {write : Call → Option V}
    (hflush : ∀ a p, write (.flushConntrackUdp a p) = none) (h : Scripted cfg full s D c)
    (hw : (write c).isSome) : ∃ c ∈ callsOf (script cfg full s D), (write c).isSome := by
  obtain hin | ⟨a, p, rfl⟩ := mem_of_scripted h
  · exact ⟨c, hin, hw⟩
  · rw [hflush a p] at hw
    cases hw

end Script

/-! ## Cells -/

section Cells

variable (cfg : Config) (full : Bool) (s : ServiceSync) (D : Desired)

/-- The kernel after the script of a pass. -/
def afterScript (K : Kernel) : Kernel :=
  (callsOf (script cfg full s D)).foldl Kernel.upsert K

/-- The pass leaves service `k` alone: it is recorded as desired, and not added again. -/
def ServiceKept (k : String) : Prop :=
  serviceAt s.applied k = serviceAt D.services k ∧
    (full = false ∨ serviceAt D.services k = none)

/-- The pass leaves the backend `(a, p)` of service `k` alone. -/
def DestKept (k : String) (a : IpAddr) (p : UInt16) : Prop :=
  destAt s.applied k a p = destAt D.services k a p ∧
    (full = false ∨ destAt D.services k a p = none) ∧
    ¬(serviceAt D.services k = none ∧ (serviceAt s.applied k).isSome)

/-- What a pass writes at the backend `(a, p)` of service `k`: the desired destination, or the
drained one when it lost its endpoint under graceful termination. -/
def destTarget (k : String) (a : IpAddr) (p : UInt16) : Option IpvsDestination :=
  match destAt D.services k a p with
  | some d => some d
  | none =>
    if cfg.graceful = true ∧ (serviceAt D.services k).isSome then
      (destAt s.applied k a p).map fun old => { old with weight := 0 }
    else none

theorem serviceAt_eq_some {m : ServiceTable} {k : String} {e : Entry} (h : m[k]? = some e) :
    serviceAt m k = some e.1 := by
  simp [serviceAt, h]

theorem serviceAt_eq_none {m : ServiceTable} {k : String} :
    serviceAt m k = none ↔ m[k]? = none := by
  simp [serviceAt]

theorem destsOf_eq {m : ServiceTable} {k : String} {e : Entry} (h : m[k]? = some e) :
    destsOf m k = e.2 := by
  simp [destsOf, h]

theorem destAt_of_none {m : ServiceTable} {k : String} (h : m[k]? = none) (a : IpAddr)
    (p : UInt16) : destAt m k a p = none := by
  simp [destAt, destsOf, h]

theorem destAt_eq_none {m : ServiceTable} {k : String} {a : IpAddr} {p : UInt16}
    (h : ∀ d ∈ destsOf m k, ¬(d.addr = a ∧ d.port = p)) : destAt m k a p = none := by
  unfold destAt
  rw [List.find?_eq_none]
  intro d hd
  simpa using h d hd

/-- A destination that lost its endpoint has no desired value at its backend. -/
theorem stale_destAt {m : ServiceTable} {k : String} {e : Entry} {old : IpvsDestination}
    (he : m[k]? = some e) (hgone : ∀ d ∈ e.2, d.same old = false) :
    destAt m k old.addr old.port = none := by
  refine destAt_eq_none fun d hd hsame => ?_
  rw [destsOf_eq he] at hd
  have hdiff := hgone d hd
  rw [IpvsDestination.same_iff.mpr hsame] at hdiff
  cases hdiff

theorem gone_of_destAt {m : ServiceTable} {k : String} {e : Entry} {old : IpvsDestination}
    (he : m[k]? = some e) (hnone : destAt m k old.addr old.port = none) :
    ∀ d ∈ e.2, d.same old = false := by
  intro d hd
  unfold destAt at hnone
  rw [List.find?_eq_none, destsOf_eq he] at hnone
  exact Bool.eq_false_iff.mpr (hnone d hd)

variable {cfg full s D} (hs : TableWF s.applied) (hD : TableWF D.services)

include hs hD

theorem service_agrees (k : String) :
    ∀ c ∈ callsOf (script cfg full s D), ∀ v, Kernel.serviceWrite k c = some v →
      v = serviceAt D.services k := by
  intro c hc v hv
  cases scripted_of_mem hc with
  | @add k' e he hnew =>
    have hkey := (hD k' e he).key
    simp only [Kernel.serviceWrite, hkey] at hv
    split at hv
    · next hk =>
      subst hk
      cases hv
      exact (serviceAt_eq_some he).symm
    · cases hv
  | @edit k' e p he hp hne =>
    have hkey := (hD k' e he).key
    simp only [Kernel.serviceWrite, hkey] at hv
    split at hv
    · next hk =>
      subst hk
      cases hv
      exact (serviceAt_eq_some he).symm
    · cases hv
  | @delService k' e he hgone =>
    have hkey := (hs k' e he).key
    simp only [Kernel.serviceWrite, hkey] at hv
    split at hv
    · next hk =>
      subst hk
      cases hv
      exact (serviceAt_eq_none.mpr hgone).symm
    · cases hv
  | _ => cases hv

/-- A service that is kept is not written. -/
theorem service_untouched {k : String} (hk : ServiceKept full s D k) :
    ∀ c ∈ callsOf (script cfg full s D), Kernel.serviceWrite k c = none := by
  intro c hc
  obtain ⟨hsame, hidle⟩ := hk
  cases scripted_of_mem hc with
  | @add k' e he hnew =>
    have hkey := (hD k' e he).key
    simp only [Kernel.serviceWrite, hkey]
    refine if_neg fun hk => ?_
    subst hk
    rw [serviceAt_eq_some he] at hsame hidle
    rw [hsame] at hnew
    simp_all
  | @edit k' e p he hp hne =>
    have hkey := (hD k' e he).key
    simp only [Kernel.serviceWrite, hkey]
    refine if_neg fun hk => ?_
    subst hk
    rw [serviceAt_eq_some he, hp] at hsame
    exact hne (Option.some.inj hsame)
  | @delService k' e he hgone =>
    have hkey := (hs k' e he).key
    simp only [Kernel.serviceWrite, hkey]
    refine if_neg fun hk => ?_
    subst hk
    rw [serviceAt_eq_some he, serviceAt_eq_none.mpr hgone] at hsame
    cases hsame
  | _ => rfl

/-- A service that is not kept is written. -/
theorem service_written {k : String} (hk : ¬ServiceKept full s D k) :
    ∃ c ∈ callsOf (script cfg full s D), (Kernel.serviceWrite k c).isSome := by
  have hmem : ∀ c, Scripted cfg full s D c → (Kernel.serviceWrite k c).isSome →
      ∃ c ∈ callsOf (script cfg full s D), (Kernel.serviceWrite k c).isSome := fun c =>
    exists_write fun _ _ => rfl
  cases he : D.services[k]? with
  | some e =>
    have hkey := (hD k e he).key
    cases hp : serviceAt s.applied k with
    | none => exact hmem _ (.add he (Or.inl hp)) (by simp [Kernel.serviceWrite, hkey])
    | some p =>
      by_cases hpe : p = e.1
      · have hfull : full = true := by
          unfold ServiceKept at hk
          rw [serviceAt_eq_some he, hp, hpe] at hk
          simpa using hk
        exact hmem _ (.add he (Or.inr ⟨hfull, by rw [hp, hpe]⟩))
          (by simp [Kernel.serviceWrite, hkey])
      · exact hmem _ (.edit he hp hpe) (by simp [Kernel.serviceWrite, hkey])
  | none =>
    cases hp : s.applied[k]? with
    | none =>
      refine absurd ⟨?_, Or.inr (serviceAt_eq_none.mpr he)⟩ hk
      rw [serviceAt_eq_none.mpr he, serviceAt_eq_none.mpr hp]
    | some e =>
      exact hmem _ (.delService hp he) (by simp [Kernel.serviceWrite, (hs k e hp).key])

/-- Service `k` after the script. -/
theorem script_service (K : Kernel) (k : String) :
    (ServiceKept full s D k → (afterScript cfg full s D K).services[k]? = K.services[k]?) ∧
    (¬ServiceKept full s D k →
      (afterScript cfg full s D K).services[k]? = serviceAt D.services k) := by
  constructor
  · intro hk
    exact read_foldl_untouched (Kernel.writes_service k) _ K (service_untouched hs hD hk)
  · intro hk
    exact read_foldl_agree (Kernel.writes_service k) _ K (service_agrees hs hD k)
      (Or.inr (service_written hs hD hk))

/-! ### Destinations -/

omit hs in
theorem destTarget_desired {k : String} {e : Entry} {d : IpvsDestination}
    (he : D.services[k]? = some e) (hd : d ∈ e.2) :
    destTarget cfg s D k d.addr d.port = some d := by
  have hat := hD.destAt_eq.mpr ⟨(destsOf_eq he).symm ▸ hd, rfl, rfl⟩
  unfold destTarget
  rw [hat]

theorem dest_agrees (k : String) (a : IpAddr) (p : UInt16) :
    ∀ c ∈ callsOf (script cfg full s D), ∀ v, Kernel.destWrite k a p c = some v →
      v = destTarget cfg s D k a p := by
  intro c hc v hv
  cases scripted_of_mem hc with
  | @addDest k' e d he hd hnew =>
    simp only [Kernel.destWrite, (hD k' e he).key] at hv
    split at hv
    · next h =>
      obtain ⟨rfl, rfl, rfl⟩ := h
      cases hv
      exact (destTarget_desired hD he hd).symm
    · cases hv
  | @updateDest k' e d o he hd hevent ho hne =>
    simp only [Kernel.destWrite, (hD k' e he).key] at hv
    split at hv
    · next h =>
      obtain ⟨rfl, rfl, rfl⟩ := h
      cases hv
      exact (destTarget_desired hD he hd).symm
    · cases hv
  | @drain k' e old he hold hgone hg =>
    simp only [Kernel.destWrite, (hD k' e he).key] at hv
    split at hv
    · next h =>
      obtain ⟨rfl, rfl, rfl⟩ := h
      cases hv
      have hat := hs.destAt_eq.mpr ⟨hold, rfl, rfl⟩
      unfold destTarget
      rw [stale_destAt he hgone, serviceAt_eq_some he]
      simp [hg, hat]
    · cases hv
  | @delDest k' e old he hold hgone hg =>
    simp only [Kernel.destWrite, (hD k' e he).key] at hv
    split at hv
    · next h =>
      obtain ⟨rfl, rfl, rfl⟩ := h
      cases hv
      unfold destTarget
      rw [stale_destAt he hgone]
      simp [hg]
    · cases hv
  | @delService k' e he hgone =>
    simp only [Kernel.destWrite, (hs k' e he).key] at hv
    split at hv
    · next h =>
      subst h
      cases hv
      unfold destTarget
      rw [destAt_of_none hgone, serviceAt_eq_none.mpr hgone]
      simp
    · cases hv
  | _ => cases hv

/-- A backend that is kept is not written. -/
theorem dest_untouched {k : String} {a : IpAddr} {p : UInt16} (hk : DestKept full s D k a p) :
    ∀ c ∈ callsOf (script cfg full s D), Kernel.destWrite k a p c = none := by
  intro c hc
  obtain ⟨hsame, hidle, hstay⟩ := hk
  cases scripted_of_mem hc with
  | @addDest k' e d he hd hnew =>
    simp only [Kernel.destWrite, (hD k' e he).key]
    refine if_neg fun h => ?_
    obtain ⟨rfl, rfl, rfl⟩ := h
    have hat := hD.destAt_eq.mpr ⟨(destsOf_eq he).symm ▸ hd, rfl, rfl⟩
    rw [hat] at hsame hidle
    rw [hsame] at hnew
    simp_all
  | @updateDest k' e d o he hd hevent ho hne =>
    simp only [Kernel.destWrite, (hD k' e he).key]
    refine if_neg fun h => ?_
    obtain ⟨rfl, rfl, rfl⟩ := h
    have hat := hD.destAt_eq.mpr ⟨(destsOf_eq he).symm ▸ hd, rfl, rfl⟩
    rw [hat, ho] at hsame
    exact hne (Option.some.inj hsame)
  | @drain k' e old he hold hgone hg =>
    simp only [Kernel.destWrite, (hD k' e he).key]
    refine if_neg fun h => ?_
    obtain ⟨rfl, rfl, rfl⟩ := h
    rw [hs.destAt_eq.mpr ⟨hold, rfl, rfl⟩, stale_destAt he hgone] at hsame
    cases hsame
  | @delDest k' e old he hold hgone hg =>
    simp only [Kernel.destWrite, (hD k' e he).key]
    refine if_neg fun h => ?_
    obtain ⟨rfl, rfl, rfl⟩ := h
    rw [hs.destAt_eq.mpr ⟨hold, rfl, rfl⟩, stale_destAt he hgone] at hsame
    cases hsame
  | @delService k' e he hgone =>
    simp only [Kernel.destWrite, (hs k' e he).key]
    refine if_neg fun h => ?_
    subst h
    exact hstay ⟨serviceAt_eq_none.mpr hgone, by rw [serviceAt_eq_some he]; rfl⟩
  | _ => rfl

/-- A backend that is not kept is written. -/
theorem dest_written {k : String} {a : IpAddr} {p : UInt16} (hk : ¬DestKept full s D k a p) :
    ∃ c ∈ callsOf (script cfg full s D), (Kernel.destWrite k a p c).isSome := by
  have hmem : ∀ c, Scripted cfg full s D c → (Kernel.destWrite k a p c).isSome →
      ∃ c ∈ callsOf (script cfg full s D), (Kernel.destWrite k a p c).isSome := fun c =>
    exists_write fun _ _ => rfl
  cases he : D.services[k]? with
  | none =>
    -- the service goes: all its backends are cleared, unless it was not recorded either
    cases hp : s.applied[k]? with
    | none =>
      refine absurd ⟨?_, Or.inr (destAt_of_none he a p), fun h => ?_⟩ hk
      · rw [destAt_of_none he, destAt_of_none hp]
      · rw [serviceAt_eq_none.mpr hp] at h
        exact absurd h.2 (by simp)
    | some e =>
      exact hmem _ (.delService hp he) (by simp [Kernel.destWrite, (hs k e hp).key])
  | some e =>
    have hkey := (hD k e he).key
    have hstay : ¬(serviceAt D.services k = none ∧ (serviceAt s.applied k).isSome) := by
      rw [serviceAt_eq_some he]
      simp
    cases hd : destAt D.services k a p with
    | some d =>
      obtain ⟨hin, rfl, rfl⟩ := hD.destAt_eq.mp hd
      rw [destsOf_eq he] at hin
      cases ho : destAt s.applied k d.addr d.port with
      | none => exact hmem _ (.addDest he hin (Or.inr ho)) (by simp [Kernel.destWrite, hkey])
      | some o =>
        by_cases hf : full = true
        · exact hmem _ (.addDest he hin (Or.inl hf)) (by simp [Kernel.destWrite, hkey])
        · have hf : full = false := Bool.eq_false_iff.mpr hf
          have hne : o ≠ d := by
            intro heq
            exact hk ⟨by rw [ho, hd, heq], Or.inl hf, hstay⟩
          exact hmem _ (.updateDest he hin hf ho hne) (by simp [Kernel.destWrite, hkey])
    | none =>
      cases ho : destAt s.applied k a p with
      | none => exact absurd ⟨by rw [ho, hd], Or.inr hd, hstay⟩ hk
      | some old =>
        obtain ⟨hin, rfl, rfl⟩ := hs.destAt_eq.mp ho
        have hgone := gone_of_destAt he hd
        cases hg : cfg.graceful with
        | true => exact hmem _ (.drain he hin hgone hg) (by simp [Kernel.destWrite, hkey])
        | false => exact hmem _ (.delDest he hin hgone hg) (by simp [Kernel.destWrite, hkey])

/-- The backend `(a, p)` of service `k` after the script. -/
theorem script_dest (K : Kernel) (k : String) (a : IpAddr) (p : UInt16) :
    (DestKept full s D k a p → (afterScript cfg full s D K).dest k a p = K.dest k a p) ∧
    (¬DestKept full s D k a p →
      (afterScript cfg full s D K).dest k a p = destTarget cfg s D k a p) := by
  constructor
  · intro hk
    exact read_foldl_untouched (Kernel.writes_dest k a p) _ K (dest_untouched hs hD hk)
  · intro hk
    exact read_foldl_agree (Kernel.writes_dest k a p) _ K (dest_agrees hs hD k a p)
      (Or.inr (dest_written hs hD hk))

omit hs hD

/-! ### Addresses -/

/-- The pass leaves the binding of `v` alone: it is on record exactly when it is wanted. -/
def VipKept (s : ServiceSync) (D : Desired) (v : IpAddr) : Prop :=
  v ∈ s.boundVips ↔ v ∈ D.wantVips

theorem addr_agrees (v : IpAddr) :
    ∀ c ∈ callsOf (script cfg full s D), ∀ u,
      Kernel.addrWrite dummyIf v (prefixLen v) c = some u → u = decide (v ∈ D.wantVips) := by
  intro c hc u hu
  cases scripted_of_mem hc with
  | @bind v' hw hb =>
    simp only [Kernel.addrWrite, Prod.mk.injEq, true_and] at hu
    split at hu
    · next h =>
      obtain ⟨rfl, _⟩ := h
      cases hu
      exact (decide_eq_true hw).symm
    · cases hu
  | @unbind v' hb hw =>
    simp only [Kernel.addrWrite, Prod.mk.injEq, true_and] at hu
    split at hu
    · next h =>
      obtain ⟨rfl, _⟩ := h
      cases hu
      exact (decide_eq_false hw).symm
    · cases hu
  | _ => cases hu

/-- Only host prefixes on the dummy interface are written, and only where record and wish
differ. -/
theorem addr_untouched {link : String} {v : IpAddr} {n : Nat}
    (h : ¬(link = dummyIf ∧ n = prefixLen v) ∨ VipKept s D v) :
    ∀ c ∈ callsOf (script cfg full s D), Kernel.addrWrite link v n c = none := by
  intro c hc
  cases scripted_of_mem hc with
  | @bind v' hw hb =>
    simp only [Kernel.addrWrite, Prod.mk.injEq]
    refine if_neg fun heq => ?_
    obtain ⟨rfl, rfl, rfl⟩ := heq
    obtain hne | hkept := h
    · exact hne ⟨rfl, rfl⟩
    · exact hb (hkept.mpr hw)
  | @unbind v' hb hw =>
    simp only [Kernel.addrWrite, Prod.mk.injEq]
    refine if_neg fun heq => ?_
    obtain ⟨rfl, rfl, rfl⟩ := heq
    obtain hne | hkept := h
    · exact hne ⟨rfl, rfl⟩
    · exact hw (hkept.mp hb)
  | _ => rfl

theorem addr_written {v : IpAddr} (hk : ¬VipKept s D v) :
    ∃ c ∈ callsOf (script cfg full s D),
      (Kernel.addrWrite dummyIf v (prefixLen v) c).isSome := by
  have hmem : ∀ c, Scripted cfg full s D c →
      (Kernel.addrWrite dummyIf v (prefixLen v) c).isSome →
      ∃ c ∈ callsOf (script cfg full s D),
        (Kernel.addrWrite dummyIf v (prefixLen v) c).isSome := fun c =>
    exists_write fun _ _ => rfl
  by_cases hw : v ∈ D.wantVips
  · by_cases hb : v ∈ s.boundVips
    · exact absurd ⟨fun _ => hw, fun _ => hb⟩ hk
    · exact hmem _ (.bind hw hb) (by simp [Kernel.addrWrite])
  · by_cases hb : v ∈ s.boundVips
    · exact hmem _ (.unbind hb hw) (by simp [Kernel.addrWrite])
    · exact absurd ⟨fun h => absurd h hb, fun h => absurd h hw⟩ hk

/-- The addresses after the script. -/
theorem script_addr (K : Kernel) (link : String) (v : IpAddr) (n : Nat) :
    (¬(link = dummyIf ∧ n = prefixLen v) ∨ VipKept s D v →
      (afterScript cfg full s D K).hasAddr link v n = K.hasAddr link v n) ∧
    (link = dummyIf ∧ n = prefixLen v → ¬VipKept s D v →
      (afterScript cfg full s D K).hasAddr link v n = decide (v ∈ D.wantVips)) := by
  constructor
  · intro h
    exact read_foldl_untouched (Kernel.writes_addr link v n) _ K (addr_untouched h)
  · intro ⟨hl, hn⟩ hk
    subst hl
    subst hn
    exact read_foldl_agree (Kernel.writes_addr dummyIf v (prefixLen v)) _ K (addr_agrees v)
      (Or.inr (addr_written hk))

end Cells

/-- The later stages change no cell. -/
theorem quiet_cells {b : Backend} (hb : b.exec = Kernel.upsert) {w t : World}
    (h : Quiet b w t) :
    (∀ k : String, t.kernel.services[k]? = w.kernel.services[k]?) ∧
    (∀ k a p, t.kernel.dest k a p = w.kernel.dest k a p) ∧
    (∀ l v n, t.kernel.hasAddr l v n = w.kernel.hasAddr l v n) ∧
    (w.kernel.Unique → t.kernel.Unique) := by
  obtain ⟨cs, hcs, _, hkernel⟩ := h.calls
  rw [hb] at hkernel
  rw [hkernel]
  refine ⟨fun k => ?_, fun k a p => ?_, fun l v n => ?_, fun hu => Kernel.foldl_unique hu cs⟩
  · exact read_foldl_untouched (Kernel.writes_service k) cs w.kernel
      fun c hc => (Kernel.inert_writes (hcs c hc) k (.V4 0) 0 "" 0).1
  · exact read_foldl_untouched (Kernel.writes_dest k a p) cs w.kernel
      fun c hc => (Kernel.inert_writes (hcs c hc) k a p "" 0).2.1
  · exact read_foldl_untouched (Kernel.writes_addr l v n) cs w.kernel
      fun c hc => (Kernel.inert_writes (hcs c hc) "" v 0 l n).2.2

end KubeRouter.Proxy
