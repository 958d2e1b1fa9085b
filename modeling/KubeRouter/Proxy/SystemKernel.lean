/-
  The kernel behind `SystemIpvs` (`proxy/src/ipvs.rs`, `proxy/src/genetlink.rs`).

  `NEW_SERVICE` and `NEW_DEST` on an object that exists fail with `EEXIST`, `SET_SERVICE` and
  an edit of a destination on one that does not exist fail with `ENOENT`; `via_genl` and `run`
  count both as success. So adding never changes what is there and editing never creates
  (`system`), where the mocks do both (`upsert`). In front of every `add_destination` of a pass
  stands its `add_service`, so a destination under a missing service does not occur in runs
  without failures and is not told apart here.

  Seen from one cell a call now depends on what the cell holds. The calls of one script to one
  cell still agree: they all act by one idempotent function, the cell's move.

  Proved:
  * `script_serviceMove`, `script_destMove`: a cell after the script of a pass is its move
    applied to the cell before.
-/
import KubeRouter.Proxy.Tables

namespace KubeRouter.Proxy

open Program

namespace Kernel

/-- A call that succeeds, or fails with an error that counts as success. -/
def system (K : Kernel) : Call → Kernel
  | .addService svc =>
    if (K.services[svcKey svc]?).isSome then K else K.upsert (.addService svc)
  | .editService svc =>
    if (K.services[svcKey svc]?).isSome then K.upsert (.editService svc) else K
  | .addDestination svc dst =>
    if (K.dest (svcKey svc) dst.addr dst.port).isSome then K
    else K.upsert (.addDestination svc dst)
  | .updateDestination svc dst =>
    if (K.dest (svcKey svc) dst.addr dst.port).isSome then K.upsert (.updateDestination svc dst)
    else K
  | .addFwmarkService fwmark scheduler persistent =>
    if fwmark ∈ K.fwmarkServices then K
    else K.upsert (.addFwmarkService fwmark scheduler persistent)
  | .addFwmarkDestination fwmark dst =>
    if K.fwmarkDests.any (fun e => e.1 == fwmark && e.2.same dst) then K
    else K.upsert (.addFwmarkDestination fwmark dst)
  | c => K.upsert c

theorem system_eq (K : Kernel) (c : Call) : K.system c = K ∨ K.system c = K.upsert c := by
  have hif : ∀ (p : Prop) [Decidable p] (L : Kernel), (if p then K else L) = K ∨
      (if p then K else L) = L := by
    intro p _ L
    by_cases hp : p
    · exact Or.inl (if_pos hp)
    · exact Or.inr (if_neg hp)
  have hif' : ∀ (p : Prop) [Decidable p] (L : Kernel), (if p then L else K) = K ∨
      (if p then L else K) = L := by
    intro p _ L
    by_cases hp : p
    · exact Or.inr (if_pos hp)
    · exact Or.inl (if_neg hp)
  cases c with
  | addService svc => exact hif _ _
  | editService svc => exact hif' _ _
  | addDestination svc dst => exact hif _ _
  | updateDestination svc dst => exact hif' _ _
  | addFwmarkService fwmark scheduler persistent => exact hif _ _
  | addFwmarkDestination fwmark dst => exact hif _ _
  | _ => exact Or.inr rfl

theorem system_unique {K : Kernel} (h : K.Unique) (c : Call) : (K.system c).Unique := by
  obtain heq | heq := system_eq K c
  · rw [heq]
    exact h
  · rw [heq]
    exact upsert_unique h c

theorem foldl_system_unique {K : Kernel} (h : K.Unique) (calls : List Call) :
    (calls.foldl system K).Unique := by
  induction calls generalizing K with
  | nil => exact h
  | cons c calls ih => exact ih (system_unique h c)

/-- A cell that a call writes no value to. -/
theorem system_of_none {V : Type} {read : Kernel → V} {write : Call → Option V}
    (hw : Writes upsert read write) {c : Call} (h : write c = none) (K : Kernel) :
    read (K.system c) = read K := by
  obtain heq | heq := system_eq K c
  · rw [heq]
  · rw [heq, hw K c, h]
    rfl

/-! ## Moves of a cell -/

/-- What a call does to service `k`. -/
def serviceMove (k : String) : Call → Move IpvsService
  | .addService svc => if svcKey svc = k then .put svc else .keep
  | .editService svc => if svcKey svc = k then .edit svc else .keep
  | .delService svc => if svcKey svc = k then .clear else .keep
  | _ => .keep

/-- What a call does to the backend `(a, p)` of service `k`. -/
def destMove (k : String) (a : IpAddr) (p : UInt16) : Call → Move IpvsDestination
  | .addDestination svc dst =>
    if svcKey svc = k ∧ dst.addr = a ∧ dst.port = p then .put dst else .keep
  | .updateDestination svc dst =>
    if svcKey svc = k ∧ dst.addr = a ∧ dst.port = p then .edit dst else .keep
  | .delDestination svc dst =>
    if svcKey svc = k ∧ dst.addr = a ∧ dst.port = p then .clear else .keep
  | .delService svc => if svcKey svc = k then .clear else .keep
  | _ => .keep

theorem moves_service (k : String) :
    Moves system (fun K => K.services[k]?) (serviceMove k) := by
  intro K c
  have hother : serviceWrite k c = none → (K.system c).services[k]? = K.services[k]? :=
    fun h => system_of_none (writes_service k) h K
  have hput : (K.upsert c).services[k]? = (serviceWrite k c).getD K.services[k]? :=
    writes_service k K c
  cases c with
  | addService svc =>
    by_cases hk : svcKey svc = k
    · simp only [serviceWrite, hk, if_true, Option.getD_some] at hput
      simp only [system, serviceMove, hk, if_true, Move.run]
      cases hold : K.services[k]? with
      | none => simpa using hput
      | some x => simpa using hold
    · simpa [serviceMove, hk, Move.run] using hother (by simp [serviceWrite, hk])
  | editService svc =>
    by_cases hk : svcKey svc = k
    · simp only [serviceWrite, hk, if_true, Option.getD_some] at hput
      simp only [system, serviceMove, hk, if_true, Move.run]
      cases hold : K.services[k]? with
      | none => simpa using hold
      | some x => simpa using hput
    · simpa [serviceMove, hk, Move.run] using hother (by simp [serviceWrite, hk])
  | delService svc =>
    refine hput.trans ?_
    by_cases hk : svcKey svc = k <;> simp [serviceWrite, serviceMove, hk, Move.run]
  | _ => exact hother rfl

theorem moves_dest (k : String) (a : IpAddr) (p : UInt16) :
    Moves system (fun K => K.dest k a p) (destMove k a p) := by
  intro K c
  have hother : destWrite k a p c = none → (K.system c).dest k a p = K.dest k a p :=
    fun h => system_of_none (writes_dest k a p) h K
  have hput : (K.upsert c).dest k a p = (destWrite k a p c).getD (K.dest k a p) :=
    writes_dest k a p K c
  cases c with
  | addDestination svc dst =>
    by_cases hk : svcKey svc = k ∧ dst.addr = a ∧ dst.port = p
    · simp only [destWrite, if_pos hk, Option.getD_some] at hput
      simp only [system, destMove, if_pos hk, Move.run]
      rw [hk.1, hk.2.1, hk.2.2]
      cases hold : K.dest k a p with
      | none => simpa using hput
      | some x => simpa using hold
    · simpa [destMove, hk, Move.run] using hother (by simp [destWrite, hk])
  | updateDestination svc dst =>
    by_cases hk : svcKey svc = k ∧ dst.addr = a ∧ dst.port = p
    · simp only [destWrite, if_pos hk, Option.getD_some] at hput
      simp only [system, destMove, if_pos hk, Move.run]
      rw [hk.1, hk.2.1, hk.2.2]
      cases hold : K.dest k a p with
      | none => simpa using hold
      | some x => simpa using hput
    · simpa [destMove, hk, Move.run] using hother (by simp [destWrite, hk])
  | delDestination svc dst =>
    refine hput.trans ?_
    by_cases hk : svcKey svc = k ∧ dst.addr = a ∧ dst.port = p <;>
      simp [destWrite, destMove, hk, Move.run]
  | delService svc =>
    refine hput.trans ?_
    by_cases hk : svcKey svc = k <;> simp [destWrite, destMove, hk, Move.run]
  | _ => exact hother rfl

/-- A call leaves a cell exactly when it writes no value to it. -/
theorem serviceMove_eq_keep {k : String} {c : Call} :
    serviceMove k c = .keep ↔ serviceWrite k c = none := by
  cases c with
  | addService svc | editService svc | delService svc =>
    by_cases hk : svcKey svc = k <;> simp [serviceMove, serviceWrite, hk]
  | _ => simp [serviceMove, serviceWrite]

theorem destMove_eq_keep {k : String} {a : IpAddr} {p : UInt16} {c : Call} :
    destMove k a p c = .keep ↔ destWrite k a p c = none := by
  cases c with
  | addDestination svc dst | updateDestination svc dst | delDestination svc dst =>
    by_cases hk : svcKey svc = k ∧ dst.addr = a ∧ dst.port = p <;> simp [destMove, destWrite, hk]
  | delService svc =>
    by_cases hk : svcKey svc = k <;> simp [destMove, destWrite, hk]
  | _ => simp [destMove, destWrite]

end Kernel

/-! ## Moves of a pass -/

section Pass

variable (cfg : Config) (full : Bool) (s : ServiceSync) (D : Desired)

/-- What a pass does to service `k`. -/
def serviceMove (k : String) : Move IpvsService :=
  match serviceAt D.services k with
  | some svc =>
    match serviceAt s.applied k with
    | some p => if p ≠ svc then .edit svc else if full then .put svc else .keep
    | none => .put svc
  | none => if (serviceAt s.applied k).isSome then .clear else .keep

/-- What a pass does to the backend `(a, p)` of service `k`. A destination recorded with other
parameters is edited by an event pass; a full resync adds it. -/
def destMove (k : String) (a : IpAddr) (p : UInt16) : Move IpvsDestination :=
  match destAt D.services k a p with
  | some d =>
    if full then .put d
    else
      match destAt s.applied k a p with
      | some o => if o = d then .keep else .edit d
      | none => .put d
  | none =>
    if (serviceAt D.services k).isSome then
      match destAt s.applied k a p with
      | some o => if cfg.graceful then .edit { o with weight := 0 } else .clear
      | none => .keep
    else if (serviceAt s.applied k).isSome then .clear
    else .keep

variable {cfg full s D} (hs : TableWF s.applied) (hD : TableWF D.services)

include hs hD

/-- Every call of a script leaves service `k` alone or makes the move of the pass. -/
theorem script_service_moves (k : String) : ∀ c ∈ callsOf (script cfg full s D),
    Kernel.serviceMove k c = .keep ∨ Kernel.serviceMove k c = serviceMove full s D k := by
  intro c hc
  cases scripted_of_mem hc with
  | @add k' e he hnew =>
    by_cases hk : svcKey e.1 = k
    · right
      have hkk : k' = k := (hD k' e he).key.symm.trans hk
      subst hkk
      unfold serviceMove
      rw [serviceAt_eq_some he]
      obtain hnone | ⟨hfull, hsome⟩ := hnew
      · simp [Kernel.serviceMove, hk, hnone]
      · simp [Kernel.serviceMove, hk, hsome, hfull]
    · left
      exact if_neg hk
  | @edit k' e p he hp hne =>
    by_cases hk : svcKey e.1 = k
    · right
      have hkk : k' = k := (hD k' e he).key.symm.trans hk
      subst hkk
      unfold serviceMove
      rw [serviceAt_eq_some he, hp]
      simp [Kernel.serviceMove, hk, hne]
    · left
      exact if_neg hk
  | @delService k' e he hgone =>
    by_cases hk : svcKey e.1 = k
    · right
      have hkk : k' = k := (hs k' e he).key.symm.trans hk
      subst hkk
      unfold serviceMove
      rw [serviceAt_eq_none.mpr hgone, serviceAt_eq_some he]
      simp [Kernel.serviceMove, hk]
    · left
      exact if_neg hk
  | _ =>
    left
    rfl

theorem script_dest_moves (k : String) (a : IpAddr) (p : UInt16) :
    ∀ c ∈ callsOf (script cfg full s D),
      Kernel.destMove k a p c = .keep ∨ Kernel.destMove k a p c = destMove cfg full s D k a p := by
  intro c hc
  cases scripted_of_mem hc with
  | @addDest k' e d he hd hnew =>
    by_cases hk : svcKey e.1 = k ∧ d.addr = a ∧ d.port = p
    · right
      obtain ⟨hk, rfl, rfl⟩ := hk
      have hkk : k' = k := (hD k' e he).key.symm.trans hk
      subst hkk
      have hat := hD.destAt_eq.mpr ⟨(destsOf_eq he).symm ▸ hd, rfl, rfl⟩
      unfold destMove
      rw [hat]
      obtain hfull | hnone := hnew
      · simp [Kernel.destMove, hk, hfull]
      · simp [Kernel.destMove, hk, hnone]
    · left
      exact if_neg hk
  | @updateDest k' e d o he hd hevent ho hne =>
    by_cases hk : svcKey e.1 = k ∧ d.addr = a ∧ d.port = p
    · right
      obtain ⟨hk, rfl, rfl⟩ := hk
      have hkk : k' = k := (hD k' e he).key.symm.trans hk
      subst hkk
      have hat := hD.destAt_eq.mpr ⟨(destsOf_eq he).symm ▸ hd, rfl, rfl⟩
      unfold destMove
      rw [hat, ho]
      simp [Kernel.destMove, hk, hevent, hne]
    · left
      exact if_neg hk
  | @drain k' e old he hold hgone hg =>
    by_cases hk : svcKey e.1 = k ∧ old.addr = a ∧ old.port = p
    · right
      obtain ⟨hk, rfl, rfl⟩ := hk
      have hkk : k' = k := (hD k' e he).key.symm.trans hk
      subst hkk
      unfold destMove
      rw [stale_destAt he hgone, serviceAt_eq_some he, hs.destAt_eq.mpr ⟨hold, rfl, rfl⟩]
      simp [Kernel.destMove, hk, hg]
    · left
      exact if_neg hk
  | @delDest k' e old he hold hgone hg =>
    by_cases hk : svcKey e.1 = k ∧ old.addr = a ∧ old.port = p
    · right
      obtain ⟨hk, rfl, rfl⟩ := hk
      have hkk : k' = k := (hD k' e he).key.symm.trans hk
      subst hkk
      unfold destMove
      rw [stale_destAt he hgone, serviceAt_eq_some he, hs.destAt_eq.mpr ⟨hold, rfl, rfl⟩]
      simp [Kernel.destMove, hk, hg]
    · left
      exact if_neg hk
  | @delService k' e he hgone =>
    by_cases hk : svcKey e.1 = k
    · right
      have hkk : k' = k := (hs k' e he).key.symm.trans hk
      subst hkk
      unfold destMove
      rw [destAt_of_none hgone, serviceAt_eq_none.mpr hgone, serviceAt_eq_some he]
      simp [Kernel.destMove, hk]
    · left
      exact if_neg hk
  | _ =>
    left
    rfl

omit hs hD in
theorem serviceMove_of_kept {k : String} (h : ServiceKept full s D k) :
    serviceMove full s D k = .keep := by
  obtain ⟨hsame, hidle⟩ := h
  unfold serviceMove
  rw [hsame]
  cases hk : serviceAt D.services k with
  | none => simp
  | some svc =>
    have hevent : full = false := hidle.resolve_right (by simp [hk])
    simp [hevent]

omit hs hD in
theorem destMove_of_kept {k : String} {a : IpAddr} {p : UInt16} (h : DestKept full s D k a p) :
    destMove cfg full s D k a p = .keep := by
  obtain ⟨hsame, hidle, hstay⟩ := h
  unfold destMove
  rw [hsame]
  cases hat : destAt D.services k a p with
  | some d =>
    have hevent : full = false := hidle.resolve_right (by simp [hat])
    simp [hevent]
  | none =>
    cases hk : serviceAt D.services k with
    | some svc => simp
    | none =>
      have hnone : (serviceAt s.applied k).isSome = false := by
        rw [Bool.eq_false_iff]
        exact fun hsome => hstay ⟨hk, hsome⟩
      simp [hnone]

/-- Service `k` after the script of a pass. -/
theorem script_serviceMove (K : Kernel) (k : String) :
    ((callsOf (script cfg full s D)).foldl Kernel.system K).services[k]? =
      (serviceMove full s D k).run K.services[k]? := by
  have hmoves : ∀ c ∈ callsOf (script cfg full s D), Kernel.serviceMove k c = .keep ∨
      Kernel.serviceMove k c = serviceMove full s D k := script_service_moves hs hD k
  refine read_foldl_move (Kernel.moves_service k) _ _ K hmoves ?_
  by_cases hk : ServiceKept full s D k
  · left
    exact serviceMove_of_kept hk
  · right
    obtain ⟨c, hc, hw⟩ : ∃ c ∈ callsOf (script cfg full s D), (Kernel.serviceWrite k c).isSome :=
      service_written hs hD hk
    refine ⟨c, hc, (hmoves c hc).resolve_left fun hkeep => ?_⟩
    rw [Kernel.serviceMove_eq_keep.mp hkeep] at hw
    cases hw

/-- The backend `(a, p)` of service `k` after the script of a pass. -/
theorem script_destMove (K : Kernel) (k : String) (a : IpAddr) (p : UInt16) :
    ((callsOf (script cfg full s D)).foldl Kernel.system K).dest k a p =
      (destMove cfg full s D k a p).run (K.dest k a p) := by
  have hmoves : ∀ c ∈ callsOf (script cfg full s D), Kernel.destMove k a p c = .keep ∨
      Kernel.destMove k a p c = destMove cfg full s D k a p := script_dest_moves hs hD k a p
  refine read_foldl_move (Kernel.moves_dest k a p) _ _ K hmoves ?_
  by_cases hk : DestKept full s D k a p
  · left
    exact destMove_of_kept hk
  · right
    obtain ⟨c, hc, hw⟩ : ∃ c ∈ callsOf (script cfg full s D), (Kernel.destWrite k a p c).isSome :=
      dest_written hs hD hk
    refine ⟨c, hc, (hmoves c hc).resolve_left fun hkeep => ?_⟩
    rw [Kernel.destMove_eq_keep.mp hkeep] at hw
    cases hw

end Pass

end KubeRouter.Proxy
