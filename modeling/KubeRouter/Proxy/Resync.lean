/-
  Runs of the service proxy over the kernel of `SystemIpvs`, in which adding a destination that
  exists changes nothing.

  Record and kernel agree on services in every run (`Tracked`). On destinations they agree on
  what is there, not on its parameters: a drained destination that is desired again is added
  while it still stands in the kernel with weight 0, and a full resync adds a destination whose
  forwarding method changed. Neither call has an effect, and the record then says that the
  kernel is as desired.

  Proved:
  * `weights_iff`: in every run, every desired destination has weight 1 after every pass if and
    only if no pass desires a backend that the kernel holds with weight 0.
  * `drained_for_good`: an endpoint that comes back while it is drained stays at weight 0.
  * `event_eq_full_iff`: without graceful termination, an event pass and a full resync from a
    reachable state leave the same tables if and only if every backend that is recorded with
    another forwarding method than desired stands in the kernel with the desired one.
  * `full_misses_tunnel`: a service that becomes a DSR service keeps its masqueraded backends
    through a full resync.
-/
import KubeRouter.Lib.System
import KubeRouter.Proxy.Recovery
import KubeRouter.Proxy.SystemKernel

namespace KubeRouter.Proxy

open Program

/-- An environment with the system's kernel in which no call fails. -/
def Backend.system (connStats : Nat → Option (UInt32 × UInt32)) (now : Nat → Nat)
    (sysctl : Nat → Bool) : Backend where
  exec := Kernel.system
  connStats := connStats
  now := now
  sysctl := sysctl

/-! ## Record and kernel -/

/-- What ties record and kernel together between passes. -/
structure Tracked (cfg : Config) (w : World) : Prop where
  wf : TableWF w.sync.applied
  unique : w.kernel.Unique
  services : ∀ k : String, w.kernel.services[k]? = serviceAt w.sync.applied k
  /-- A destination on record is in the kernel. -/
  present : ∀ k a p, (destAt w.sync.applied k a p).isSome → (w.kernel.dest k a p).isSome
  /-- A destination that is not on record is drained. -/
  drained : ∀ k a p e, destAt w.sync.applied k a p = none → w.kernel.dest k a p = some e →
    cfg.graceful = true ∧ e.weight = 0
  off : cfg.graceful = false → w.sync.gqueue = []

theorem tracked_init (cfg : Config) : Tracked cfg {} where
  wf := tableWF_empty
  unique := Kernel.unique_empty
  services := fun k => by simp [serviceAt]
  present := fun k a p h => by simp [destAt, destsOf] at h
  drained := fun k a p e _ h => by simp [Kernel.dest, Kernel.dests] at h
  off := fun _ => rfl

section Step

variable {cfg : Config} {b : Backend} (hb : b.exec = Kernel.system)

include hb

/-- The cells after the script of a pass. -/
theorem script_cells {full : Bool} {D : Desired} (hD : TableWF D.services) {w t : World}
    (hw : Tracked cfg w) (h : Issued b w t (script cfg full w.sync D)) :
    (∀ k : String, t.kernel.services[k]? =
      (serviceMove full w.sync D k).run w.kernel.services[k]?) ∧
    ∀ k a p, t.kernel.dest k a p =
      (destMove cfg full w.sync D k a p).run (w.kernel.dest k a p) := by
  rw [h.kernel, hb]
  exact ⟨script_serviceMove hw.wf hD w.kernel, script_destMove hw.wf hD w.kernel⟩

/-- The script of a pass leads to the record that is about to be committed. -/
theorem script_tracked {full : Bool} {D : Desired} (hD : TableWF D.services) {w t : World}
    (hw : Tracked cfg w) (h : Issued b w t (script cfg full w.sync D)) :
    Tracked cfg (commit D t) := by
  obtain ⟨hsvc, hdest⟩ := script_cells hb hD hw h
  refine ⟨hD, ?_, ?_, ?_, ?_, ?_⟩
  · show t.kernel.Unique
    rw [h.kernel, hb]
    exact Kernel.foldl_system_unique hw.unique _
  · intro k
    show t.kernel.services[k]? = serviceAt D.services k
    rw [hsvc k, hw.services k]
    unfold serviceMove
    cases hDk : serviceAt D.services k with
    | none => cases serviceAt w.sync.applied k <;> rfl
    | some svc =>
      cases hsk : serviceAt w.sync.applied k with
      | none => rfl
      | some p =>
        by_cases hp : p = svc
        · subst hp
          cases full <;> simp [Move.run]
        · simp [hp, Move.run]
  · intro k a p hsome
    show (t.kernel.dest k a p).isSome
    obtain ⟨d, hd⟩ := Option.isSome_iff_exists.mp hsome
    have hd : destAt D.services k a p = some d := hd
    rw [hdest k a p]
    unfold destMove
    rw [hd]
    cases full with
    | true => simp [Move.run]
    | false =>
      cases ho : destAt w.sync.applied k a p with
      | none => simp [Move.run]
      | some o =>
        have hold := hw.present k a p (by rw [ho]; rfl)
        by_cases hod : o = d
        · simpa [hod, Move.run] using hold
        · simpa [hod, Move.run] using hold
  · intro k a p e hnone he
    have hnone : destAt D.services k a p = none := hnone
    have he : t.kernel.dest k a p = some e := he
    rw [hdest k a p] at he
    unfold destMove at he
    rw [hnone] at he
    cases hDk : serviceAt D.services k with
    | some svc =>
      rw [hDk] at he
      cases ho : destAt w.sync.applied k a p with
      | none =>
        rw [ho] at he
        exact hw.drained k a p e ho he
      | some o =>
        rw [ho] at he
        cases hg : cfg.graceful with
        | false => simp [hg, Move.run] at he
        | true =>
          -- the destination lost its endpoint in this pass
          simp only [hg, Option.isSome_some, if_true, Move.run] at he
          obtain ⟨_, _, rfl⟩ := Option.map_eq_some_iff.mp he
          exact ⟨rfl, rfl⟩
    | none =>
      rw [hDk] at he
      cases hsk : serviceAt w.sync.applied k with
      | some svc => simp [hsk, Move.run] at he
      | none =>
        rw [hsk] at he
        exact hw.drained k a p e (destAt_of_none (serviceAt_eq_none.mp hsk) a p) he
  · intro hg
    obtain ⟨timed, hmap, hq⟩ := h.gqueue
    have hnil : timed = [] := List.map_eq_nil_iff.mp (hmap.trans (drainsOf_script hg _ _ _))
    show t.sync.gqueue = []
    rw [hq, hnil, hw.off hg]
    rfl

/-- Working off the queue empties cells that are not on record, and no others. -/
theorem sweep_cells {w t : World} {cs : List Call} (hwf : TableWF w.sync.applied)
    (h : Swept b w.sync.applied w.sync.gqueue w t cs) :
    (∀ k : String, t.kernel.services[k]? = w.kernel.services[k]?) ∧
    ∀ k a p, t.kernel.dest k a p = w.kernel.dest k a p ∨
      destAt w.sync.applied k a p = none ∧ t.kernel.dest k a p = none := by
  rw [h.kernel, hb]
  refine ⟨fun k => ?_, fun k a p => ?_⟩
  · refine read_foldl_move (Kernel.moves_service k) .keep cs w.kernel (fun c hc => ?_) (Or.inl rfl)
    left
    exact Kernel.serviceMove_eq_keep.mpr (h.serviceWrite hwf k c hc)
  · -- every call keeps the cell, or clears it and the cell is off the record
    have hmove : ∀ c ∈ cs, Kernel.destMove k a p c = .keep ∨
        Kernel.destMove k a p c = .clear ∧ destAt w.sync.applied k a p = none := by
      intro c hc
      obtain hinert | ⟨r, rfl, hnone⟩ := h.writes hwf hc
      · left
        exact Kernel.destMove_eq_keep.mpr (Kernel.inert_writes hinert k a p "" 0).2.1
      · by_cases hk : svcKey r.svc = k ∧ r.dst.addr = a ∧ r.dst.port = p
        · right
          obtain ⟨rfl, rfl, rfl⟩ := hk
          exact ⟨if_pos ⟨rfl, rfl, rfl⟩, hnone⟩
        · left
          exact if_neg hk
    by_cases hit : ∃ c ∈ cs, Kernel.destMove k a p c = .clear
    · right
      have hnone : destAt w.sync.applied k a p = none := by
        obtain ⟨c, hc, hclear⟩ := hit
        obtain hkeep | hboth := hmove c hc
        · rw [hkeep] at hclear
          cases hclear
        · exact hboth.2
      exact ⟨hnone, read_foldl_move (Kernel.moves_dest k a p) .clear cs w.kernel
        (fun c hc => (hmove c hc).imp_right (·.1)) (Or.inr hit)⟩
    · left
      refine read_foldl_move (Kernel.moves_dest k a p) .keep cs w.kernel (fun c hc => ?_)
        (Or.inl rfl)
      left
      exact (hmove c hc).resolve_right fun hboth => hit ⟨c, hc, hboth.1⟩

theorem sweep_tracked {w t : World} {cs : List Call} (hw : Tracked cfg w)
    (h : Swept b w.sync.applied w.sync.gqueue w t cs) : Tracked cfg t := by
  obtain ⟨hsvc, hdest⟩ := sweep_cells hb hw.wf h
  refine ⟨?_, ?_, ?_, ?_, ?_, ?_⟩
  · rw [h.applied_eq]
    exact hw.wf
  · rw [h.kernel, hb]
    exact Kernel.foldl_system_unique hw.unique cs
  · intro k
    rw [hsvc, h.applied_eq]
    exact hw.services k
  · intro k a p hsome
    rw [h.applied_eq] at hsome
    obtain heq | ⟨hnone, _⟩ := hdest k a p
    · rw [heq]
      exact hw.present k a p hsome
    · rw [hnone] at hsome
      cases hsome
  · intro k a p e hnone he
    rw [h.applied_eq] at hnone
    obtain heq | ⟨_, hgone⟩ := hdest k a p
    · exact hw.drained k a p e hnone (heq ▸ he)
    · rw [hgone] at he
      cases he
  · intro hg
    have hsub := h.sublist
    rw [hw.off hg] at hsub
    exact List.sublist_nil.mp hsub

/-- The later stages change no cell. -/
theorem quiet_system_cells {w t : World} (h : Quiet b w t) :
    (∀ k : String, t.kernel.services[k]? = w.kernel.services[k]?) ∧
    (∀ k a p, t.kernel.dest k a p = w.kernel.dest k a p) ∧
    (w.kernel.Unique → t.kernel.Unique) := by
  obtain ⟨cs, hcs, _, hkernel⟩ := h.calls
  rw [hkernel, hb]
  refine ⟨fun k => ?_, fun k a p => ?_, fun hu => Kernel.foldl_system_unique hu cs⟩
  · refine read_foldl_move (Kernel.moves_service k) .keep cs w.kernel (fun c hc => ?_) (Or.inl rfl)
    left
    exact Kernel.serviceMove_eq_keep.mpr (Kernel.inert_writes (hcs c hc) k (.V4 0) 0 "" 0).1
  · refine read_foldl_move (Kernel.moves_dest k a p) .keep cs w.kernel (fun c hc => ?_) (Or.inl rfl)
    left
    exact Kernel.destMove_eq_keep.mpr (Kernel.inert_writes (hcs c hc) k a p "" 0).2.1

theorem quiet_tracked {w t : World} (hw : Tracked cfg w) (h : Quiet b w t) : Tracked cfg t := by
  obtain ⟨hsvc, hdest, hunique⟩ := quiet_system_cells hb h
  refine ⟨?_, hunique hw.unique, ?_, ?_, ?_, ?_⟩
  · rw [h.applied]
    exact hw.wf
  · intro k
    rw [hsvc, h.applied]
    exact hw.services k
  · intro k a p hsome
    rw [hdest]
    exact hw.present k a p (h.applied ▸ hsome)
  · intro k a p e hnone he
    rw [hdest] at he
    exact hw.drained k a p e (h.applied ▸ hnone) he
  · rw [h.gqueue]
    exact hw.off

end Step

/-! ## Passes -/

/-- The outcome of a pass over `snapshot` from `w` to `t`. -/
structure TrackedPass (cfg : Config) (full : Bool) (snapshot : Snapshot) (w t : World) :
    Prop where
  tracked : Tracked cfg t
  applied : t.sync.applied = (desired cfg snapshot).services
  /-- What is desired is what the script left, and so is everything without a queue. -/
  cells : ∀ k a p, (destAt (desired cfg snapshot).services k a p).isSome ∨ cfg.graceful = false →
    t.kernel.dest k a p =
      (destMove cfg full w.sync (desired cfg snapshot) k a p).run (w.kernel.dest k a p)

section Run

variable (cfg : Config) (connStats : Nat → Option (UInt32 × UInt32)) (now : Nat → Nat)
  (sysctl : Nat → Bool)

/-- One pass, ended by an error of the DSR stage or not. -/
theorem passWorld_tracked (pass : Bool × Snapshot) {w : World} (hw : Tracked cfg w) :
    TrackedPass cfg pass.1 pass.2 w (passWorld (.system connStats now sysctl) cfg w pass) := by
  have hnever : ¬∃ n msg, (Backend.system connStats now sysctl).fails n = some msg := by
    intro ⟨n, msg, h⟩
    cases h
  have hD := desired_wf cfg pass.2
  unfold passWorld
  refine wp_state (wp_reconcileInner _ cfg pass.1 pass.2 w
    (fun _ t ht => absurd ht.fails hnever) fun t ht => ?_)
  have hscript : Tracked cfg (commit (desired cfg pass.2) t) := script_tracked rfl hD hw ht
  obtain ⟨_, hcells⟩ := script_cells rfl hD hw ht
  rw [wp_bind]
  refine wp_mono (wp_processGracefulQueue _ _) (fun _ u hu => ?_) (fun _ _ he => absurd he hnever)
  obtain ⟨cs, hswept⟩ := hu
  have hu : Tracked cfg u := sweep_tracked rfl hscript hswept
  obtain ⟨_, hsweep⟩ := sweep_cells rfl hscript.wf hswept
  have hdone : ∀ v, Quiet (.system connStats now sysctl) u v →
      TrackedPass cfg pass.1 pass.2 w v := by
    intro v hv
    refine ⟨quiet_tracked rfl hu hv, hv.applied.trans hswept.applied_eq, fun k a p hcase => ?_⟩
    obtain ⟨_, hquiet, _⟩ := quiet_system_cells rfl hv
    rw [hquiet, ← hcells k a p]
    obtain heq | ⟨hnone, hgone⟩ := hsweep k a p
    · exact heq
    · -- a cell emptied from the queue is neither desired nor left without graceful termination
      obtain hsome | hg := hcase
      · rw [show destAt (desired cfg pass.2).services k a p = none from hnone] at hsome
        cases hsome
      · rw [hgone]
        cases hold : t.kernel.dest k a p with
        | none => rfl
        | some e =>
          have hdrained := hscript.drained k a p e hnone hold
          rw [hg] at hdrained
          cases hdrained.1
  exact wp_mono (quiet_laterStages _ cfg _ u) (fun _ v hv => hdone v hv) (fun _ v hv => hdone v hv)

theorem run_tracked (passes : List (Bool × Snapshot)) :
    Tracked cfg (runPasses (.system connStats now sysctl) cfg passes {}) := by
  unfold runPasses
  refine List.foldlRecOn (motive := Tracked cfg) passes _ (tracked_init cfg) ?_
  intro w hw pass _
  exact (passWorld_tracked cfg connStats now sysctl pass hw).tracked

end Run

/-! ## Weights -/

/-- Every destination desired in `m` stands in the kernel with weight 1. -/
def Weighted (m : ServiceTable) (K : Kernel) : Prop :=
  ∀ k, ∀ d ∈ destsOf m k, ∃ e, K.dest k d.addr d.port = some e ∧ e.weight = 1

/-- No destination desired in `m` stands in the kernel with weight 0. -/
def Undrained (m : ServiceTable) (K : Kernel) : Prop :=
  ∀ k, ∀ d ∈ destsOf m k, ∀ e, K.dest k d.addr d.port = some e → e.weight ≠ 0

section Weights

variable {cfg : Config}

/-- One pass from a state in which everything on record has weight 1. -/
theorem pass_weighted_iff {full : Bool} {snapshot : Snapshot} {w t : World} (hw : Tracked cfg w)
    (hweight : Weighted w.sync.applied w.kernel) (h : TrackedPass cfg full snapshot w t) :
    Weighted (desired cfg snapshot).services t.kernel ↔
      Undrained (desired cfg snapshot).services w.kernel := by
  have hD := desired_wf cfg snapshot
  have hold : ∀ k a p o, destAt w.sync.applied k a p = some o →
      ∃ e, w.kernel.dest k a p = some e ∧ e.weight = 1 := by
    intro k a p o ho
    obtain ⟨hin, rfl, rfl⟩ := hw.wf.destAt_eq.mp ho
    exact hweight k o hin
  have hcell : ∀ k, ∀ d ∈ destsOf (desired cfg snapshot).services k, t.kernel.dest k d.addr d.port =
      (destMove cfg full w.sync (desired cfg snapshot) k d.addr d.port).run
        (w.kernel.dest k d.addr d.port) := by
    intro k d hd
    refine h.cells k d.addr d.port (Or.inl ?_)
    rw [hD.destAt_eq.mpr ⟨hd, rfl, rfl⟩]
    rfl
  constructor
  · intro hafter k d hd e he hzero
    -- a destination with weight 0 is not on record, so the pass adds it, which does nothing
    have hat := hD.destAt_eq.mpr ⟨hd, rfl, rfl⟩
    have hnone : destAt w.sync.applied k d.addr d.port = none := by
      cases ho : destAt w.sync.applied k d.addr d.port with
      | none => rfl
      | some o =>
        obtain ⟨e', he', hone⟩ := hold k _ _ o ho
        rw [he] at he'
        cases he'
        rw [hzero] at hone
        cases hone
    obtain ⟨e', he', hone⟩ := hafter k d hd
    have hsame : t.kernel.dest k d.addr d.port = some e := by
      rw [hcell k d hd, destMove, hat, hnone, he]
      cases full <;> rfl
    rw [hsame] at he'
    cases he'
    rw [hzero] at hone
    cases hone
  · intro hun k d hd
    have hat := hD.destAt_eq.mpr ⟨hd, rfl, rfl⟩
    have hd1 : d.weight = 1 := hD.weight hd
    rw [hcell k d hd]
    unfold destMove
    rw [hat]
    cases ho : destAt w.sync.applied k d.addr d.port with
    | none =>
      -- not on record and not drained: not in the kernel either
      have habsent : w.kernel.dest k d.addr d.port = none := by
        cases he : w.kernel.dest k d.addr d.port with
        | none => rfl
        | some e => exact absurd (hw.drained k _ _ e ho he).2 (hun k d hd e he)
      rw [habsent]
      refine ⟨d, ?_, hd1⟩
      cases full <;> rfl
    | some o =>
      obtain ⟨e, he, hone⟩ := hold k _ _ o ho
      rw [he]
      cases full with
      | true => exact ⟨e, rfl, hone⟩
      | false =>
        by_cases hod : o = d
        · exact ⟨e, by simp [hod, Move.run], hone⟩
        · exact ⟨d, by simp [hod, Move.run], hd1⟩

end Weights

theorem runPasses_concat (b : Backend) (cfg : Config) (passes : List (Bool × Snapshot))
    (pass : Bool × Snapshot) (w : World) :
    runPasses b cfg (passes ++ [pass]) w = passWorld b cfg (runPasses b cfg passes w) pass := by
  unfold runPasses
  rw [List.foldl_append]
  rfl

/-- `passes` is any run from an empty kernel in which no call fails. The left side speaks of the
state behind each of its passes, the right side of the state in front of it. -/
theorem weights_iff (cfg : Config) (connStats : Nat → Option (UInt32 × UInt32)) (now : Nat → Nat)
    (sysctl : Nat → Bool) (passes : List (Bool × Snapshot)) :
    let b := Backend.system connStats now sysctl
    (∀ before pass, before ++ [pass] <+: passes →
      Weighted (desired cfg pass.2).services (runPasses b cfg (before ++ [pass]) {}).kernel) ↔
    ∀ before pass, before ++ [pass] <+: passes →
      Undrained (desired cfg pass.2).services (runPasses b cfg before {}).kernel := by
  intro b
  induction passes using List.reverseRecOn with
  | nil => simp
  | append_singleton passes pass ih =>
    have hw := run_tracked cfg connStats now sysctl passes
    have hpass := passWorld_tracked cfg connStats now sysctl pass hw
    rw [System.forall_prefix_concat, System.forall_prefix_concat]
    refine (and_congr_left' ih).trans (and_congr_right fun hbefore => ?_)
    have hrecord : Weighted (runPasses b cfg passes {}).sync.applied
        (runPasses b cfg passes {}).kernel := by
      obtain rfl | ⟨init, last, rfl⟩ := List.eq_nil_or_concat' passes
      · intro k d hd
        simp [runPasses, destsOf] at hd
      · have hinit := run_tracked cfg connStats now sysctl init
        have happ := (passWorld_tracked cfg connStats now sysctl last hinit).applied
        have hafter := ih.mpr hbefore init last List.prefix_rfl
        rw [runPasses_concat] at hafter ⊢
        rw [happ]
        exact hafter
    rw [runPasses_concat]
    exact pass_weighted_iff hw hrecord hpass

section Sample

/-- `web` with its endpoint not ready. -/
def webDown : Snapshot :=
  [(web, [{ ip := .ofOctets 10 1 0 5, port := 8080, isLocal := true, ready := false }])]

def gracefulCfg : Config where
  graceful := true
  gracefulPeriod := 60

/-- The endpoint goes and comes back while a connection keeps it drained; the last pass is a
full resync. -/
def flapping : List (Bool × Snapshot) :=
  [(true, webSnapshot), (false, webDown), (false, webSnapshot), (true, webSnapshot)]

theorem flapping_weight :
    ((runPasses (.system (fun _ => some (1, 0)) (fun _ => 0) (fun _ => true)) gracefulCfg flapping
      {}).kernel.dest "(10.96.0.10, Tcp, 80)" (.ofOctets 10 1 0 5) 8080).map (·.weight) =
        some 0 := by
  decide +kernel

end Sample

theorem drained_for_good :
    ¬∀ (cfg : Config) (connStats : Nat → Option (UInt32 × UInt32)) (now : Nat → Nat)
      (sysctl : Nat → Bool) (passes : List (Bool × Snapshot)), cfg.graceful = true →
      ∀ before pass, before ++ [pass] <+: passes →
        Weighted (desired cfg pass.2).services
          (runPasses (.system connStats now sysctl) cfg (before ++ [pass]) {}).kernel := by
  intro h
  have hall := h gracefulCfg (fun _ => some (1, 0)) (fun _ => 0) (fun _ => true) flapping rfl
    [(true, webSnapshot), (false, webDown), (false, webSnapshot)] (true, webSnapshot)
    List.prefix_rfl
  have hmem : (⟨.ofOctets 10 1 0 5, 8080, 1, false⟩ : IpvsDestination) ∈
      destsOf (desired gracefulCfg webSnapshot).services "(10.96.0.10, Tcp, 80)" := by
    decide +kernel
  obtain ⟨e, he, hone⟩ := hall _ _ hmem
  have hzero := flapping_weight
  rw [show flapping = [(true, webSnapshot), (false, webDown), (false, webSnapshot)] ++
    [(true, webSnapshot)] from rfl, he] at hzero
  simp [hone] at hzero

/-! ## The two kinds of passes -/

/-- The same services with the same parameters, and for each of them the same destinations. -/
structure SameTables (K L : Kernel) : Prop where
  services : ∀ k : String, K.services[k]? = L.services[k]?
  dests : ∀ k d, d ∈ K.dests k ↔ d ∈ L.dests k

/-- A backend desired in `m` that `applied` records with the other forwarding method stands in
the kernel as desired. -/
def ForwardingSettled (applied m : ServiceTable) (K : Kernel) : Prop :=
  ∀ k, ∀ d ∈ destsOf m k, ∀ o ∈ destsOf applied k, o.same d = true → o.tunnel ≠ d.tunnel →
    K.dest k d.addr d.port = some d

theorem sameTables_iff {K L : Kernel} (hK : K.Unique) (hL : L.Unique)
    (hsvc : ∀ k : String, K.services[k]? = L.services[k]?) :
    SameTables K L ↔ ∀ k a p, K.dest k a p = L.dest k a p := by
  constructor
  · intro h k a p
    ext d
    rw [Kernel.dest_eq_some_iff hK, Kernel.dest_eq_some_iff hL, h.dests]
  · intro h
    refine ⟨hsvc, fun k d => ?_⟩
    rw [Kernel.mem_dests_iff hK, Kernel.mem_dests_iff hL, h]

/-- The cells of the two kinds of passes differ only where a backend on record changed. -/
theorem destMove_full_iff {cfg : Config} {w : World} {D : Desired} (hw : Tracked cfg w)
    (k : String) (a : IpAddr) (p : UInt16) :
    (destMove cfg false w.sync D k a p).run (w.kernel.dest k a p) =
        (destMove cfg true w.sync D k a p).run (w.kernel.dest k a p) ↔
      ∀ d o, destAt D.services k a p = some d → destAt w.sync.applied k a p = some o → o ≠ d →
        w.kernel.dest k a p = some d := by
  unfold destMove
  cases hd : destAt D.services k a p with
  | none => simp
  | some d =>
    cases ho : destAt w.sync.applied k a p with
    | none => simp
    | some o =>
      obtain ⟨e, he⟩ := Option.isSome_iff_exists.mp (hw.present k a p (by rw [ho]; rfl))
      rw [he]
      by_cases hod : o = d
      · simp [hod, Move.run]
      · simp [hod, Move.run, eq_comm]

theorem event_eq_full_iff (cfg : Config) (hg : cfg.graceful = false)
    (connStats : Nat → Option (UInt32 × UInt32)) (now : Nat → Nat) (sysctl : Nat → Bool)
    (passes : List (Bool × Snapshot)) (snapshot : Snapshot) :
    let b := Backend.system connStats now sysctl
    let w := runPasses b cfg passes {}
    SameTables (passWorld b cfg w (false, snapshot)).kernel
        (passWorld b cfg w (true, snapshot)).kernel ↔
      ForwardingSettled w.sync.applied (desired cfg snapshot).services w.kernel := by
  intro b w
  have hw : Tracked cfg w := run_tracked cfg connStats now sysctl passes
  have hD := desired_wf cfg snapshot
  have hevent := passWorld_tracked cfg connStats now sysctl (false, snapshot) hw
  have hfull := passWorld_tracked cfg connStats now sysctl (true, snapshot) hw
  have hsvc : ∀ k : String, (passWorld b cfg w (false, snapshot)).kernel.services[k]? =
      (passWorld b cfg w (true, snapshot)).kernel.services[k]? := by
    intro k
    rw [hevent.tracked.services k, hfull.tracked.services k, hevent.applied, hfull.applied]
  rw [sameTables_iff hevent.tracked.unique hfull.tracked.unique hsvc]
  have hcell : ∀ k a p, (passWorld b cfg w (false, snapshot)).kernel.dest k a p =
        (passWorld b cfg w (true, snapshot)).kernel.dest k a p ↔
      ∀ d o, destAt (desired cfg snapshot).services k a p = some d →
        destAt w.sync.applied k a p = some o → o ≠ d → w.kernel.dest k a p = some d := by
    intro k a p
    rw [hevent.cells k a p (Or.inr hg), hfull.cells k a p (Or.inr hg)]
    exact destMove_full_iff hw k a p
  constructor
  · intro h k d hd o ho hsame htunnel
    obtain ⟨ha, hp⟩ := IpvsDestination.same_iff.mp hsame
    refine (hcell k d.addr d.port).mp (h k d.addr d.port) d o ?_ ?_ ?_
    · exact hD.destAt_eq.mpr ⟨hd, rfl, rfl⟩
    · exact hw.wf.destAt_eq.mpr ⟨ho, ha, hp⟩
    · intro heq
      exact htunnel (congrArg _ heq)
  · intro h k a p
    refine (hcell k a p).mpr fun d o hd ho hne => ?_
    obtain ⟨hdin, rfl, rfl⟩ := hD.destAt_eq.mp hd
    obtain ⟨hoin, ha, hp⟩ := hw.wf.destAt_eq.mp ho
    refine h k d hdin o hoin (IpvsDestination.same_iff.mpr ⟨ha, hp⟩) fun htunnel => hne ?_
    have hweight : o.weight = d.weight := by rw [hw.wf.weight hoin, hD.weight hdin]
    cases o
    cases d
    simp_all

section Sample

/-- Nothing fails, no connection counts, the clock stands. -/
def calm : Backend := .system (fun _ => none) (fun _ => 0) (fun _ => true)

theorem web_applied :
    (runPasses calm {} [(true, webSnapshot)] {}).sync.applied =
      (desired {} webSnapshot).services :=
  (passWorld_tracked {} (fun _ => none) (fun _ => 0) (fun _ => true) (true, webSnapshot)
    (tracked_init {})).applied

/-- The same snapshot again. -/
theorem event_eq_full_again :
    SameTables
      (passWorld calm {} (runPasses calm {} [(true, webSnapshot)] {}) (false, webSnapshot)).kernel
      (passWorld calm {} (runPasses calm {} [(true, webSnapshot)] {})
        (true, webSnapshot)).kernel := by
  refine (event_eq_full_iff {} rfl (fun _ => none) (fun _ => 0) (fun _ => true)
    [(true, webSnapshot)] webSnapshot).mpr ?_
  intro k d hd o ho hsame htunnel
  rw [show (runPasses (.system (fun _ => none) (fun _ => 0) (fun _ => true)) {}
    [(true, webSnapshot)] {}).sync.applied = _ from web_applied] at ho
  have heq := (desired_wf {} webSnapshot).eq_of_same ho hd (IpvsDestination.same_iff.mp hsame)
  exact absurd (congrArg _ heq) htunnel

/-- `web` with the DSR annotation. -/
def webDsrSnapshot : Snapshot := webSnapshot.map fun item => ({ item.1 with dsr := true }, item.2)

/-- The backend after a pass of either kind over the annotated service. -/
def webBackend (full : Bool) : Option IpvsDestination :=
  (passWorld calm {} (runPasses calm {} [(true, webSnapshot)] {})
      (full, webDsrSnapshot)).kernel.dest
    "(10.96.0.10, Tcp, 80)" (.ofOctets 10 1 0 5) 8080

theorem webBackend_tunnel : (webBackend false).map (·.tunnel) = some true ∧
    (webBackend true).map (·.tunnel) = some false := by
  decide +kernel

end Sample

theorem full_misses_tunnel :
    ¬∀ (cfg : Config) (connStats : Nat → Option (UInt32 × UInt32)) (now : Nat → Nat)
      (sysctl : Nat → Bool) (passes : List (Bool × Snapshot)) (snapshot : Snapshot),
      cfg.graceful = false →
      let b := Backend.system connStats now sysctl
      let w := runPasses b cfg passes {}
      SameTables (passWorld b cfg w (false, snapshot)).kernel
        (passWorld b cfg w (true, snapshot)).kernel := by
  intro h
  have hsame := h {} (fun _ => none) (fun _ => 0) (fun _ => true) [(true, webSnapshot)]
    webDsrSnapshot rfl
  have hw := run_tracked {} (fun _ => none) (fun _ => 0) (fun _ => true) [(true, webSnapshot)]
  have hevent := passWorld_tracked {} (fun _ => none) (fun _ => 0) (fun _ => true)
    (false, webDsrSnapshot) hw
  have hfull := passWorld_tracked {} (fun _ => none) (fun _ => 0) (fun _ => true)
    (true, webDsrSnapshot) hw
  have hcells := (sameTables_iff hevent.tracked.unique hfull.tracked.unique hsame.services).mp hsame
  have heq : webBackend false = webBackend true := hcells _ _ _
  obtain ⟨htrue, hfalse⟩ := webBackend_tunnel
  rw [heq, hfalse] at htrue
  cases htrue

end KubeRouter.Proxy
