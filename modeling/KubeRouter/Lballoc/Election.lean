/-
  Leader election of the LoadBalancer allocator (`lballoc/src/election.rs`, `KubeLease` in
  `kube-router-rs/src/lballoc_wire.rs`, the loop of `run_loadbalancer` in
  `kube-router-rs/src/main.rs`).

  Any number of agents run the loop against one Lease object. The API server is linearizable
  and gives every write a new resource version; `replace` is refused when the version the
  writer fetched is no longer current, `create` when the object exists. All agents read one
  clock, in nanoseconds; the code compares whole seconds. Time may pass between any two steps.

  One tick of an agent reads the clock, then fetches the lease, decides, and writes. The write
  may be refused, its answer may be lost, and a write its sender has given up on may still
  arrive later. The sync arm of the loop passes the gate `elector.is_leader()` and holds it for
  as long as the allocation pass lasts; an agent serves one arm of its loop at a time, so it
  does not renew meanwhile.

  Proved:
  * `leaders_agree`: in every run in which no agent that counts as leader sits on a lease older
    than its duration, two leaders have one identity.
  * `two_allocators`: a pass of more than 15 s lets a second agent take the lease and pass the
    gate as well.
-/
import Mathlib.Logic.Function.Basic
import Mathlib.Data.Fintype.Basic
import Mathlib.Data.List.Basic
import KubeRouter.Lib.System

namespace KubeRouter.Lballoc

/-! ## Lease -/

/-- `LEASE_DURATION`, in seconds. -/
def leaseDuration : Int := 15

/-- A point in time, in nanoseconds. -/
abbrev Timestamp := Nat

/-- `Timestamp::as_second`. -/
def asSecond (t : Timestamp) : Int := ((t / 1000000000 : Nat) : Int)

theorem asSecond_mono {t u : Timestamp} (h : t ≤ u) : asSecond t ≤ asSecond u := by
  unfold asSecond
  have hdiv : t / 1000000000 ≤ u / 1000000000 := Nat.div_le_div_right h
  exact_mod_cast hdiv

structure LeaseSpec where
  holderIdentity : Option String
  leaseDurationSeconds : Option Int
  renewTime : Option Timestamp
  acquireTime : Option Timestamp
deriving DecidableEq, Repr

structure Lease where
  resourceVersion : Nat
  spec : Option LeaseSpec
deriving DecidableEq, Repr

/-- Whether a lease with this spec is fresh at `now`, in whole seconds. -/
def LeaseSpec.fresh (spec : LeaseSpec) (now : Timestamp) : Bool :=
  match spec.renewTime with
  | none => false
  | some rt => asSecond now - asSecond rt < spec.leaseDurationSeconds.getD leaseDuration

/-- `held_by_other_and_fresh` of `acquire_or_renew`. -/
def heldByOtherAndFresh (identity : String) (now : Timestamp) (existing : Option Lease) : Bool :=
  match existing.bind (·.spec) with
  | none => false
  | some spec =>
    match spec.holderIdentity with
    | none => false
    | some h => if h = identity then false else spec.fresh now

/-- `can_acquire`: a free, own or expired lease may be taken. -/
def canAcquire (currentHolder : Option String) (expired : Bool) (me : String) : Bool :=
  match currentHolder with
  | none => true
  | some h => if h = me then true else expired

/-- `acquire_or_renew` refuses exactly what the pure decision refuses. -/
theorem heldByOtherAndFresh_eq (identity : String) (now : Timestamp) (lease : Lease)
    (spec : LeaseSpec) (h : lease.spec = some spec) :
    heldByOtherAndFresh identity now (some lease) =
      !canAcquire spec.holderIdentity (!spec.fresh now) identity := by
  unfold heldByOtherAndFresh canAcquire
  simp only [Option.bind_some, h]
  cases spec.holderIdentity with
  | none => rfl
  | some holder =>
    by_cases heq : holder = identity
    · simp [heq]
    · simp [heq]

/-- The spec an agent writes. -/
def newSpec (identity : String) (now : Timestamp) : LeaseSpec where
  holderIdentity := some identity
  leaseDurationSeconds := some leaseDuration
  renewTime := some now
  acquireTime := some now

/-- A `replace` of the fetched version, or a `create` when nothing was fetched. -/
structure Put where
  identity : String
  now : Timestamp
  fetched : Option Nat
deriving DecidableEq, Repr

/-! ## Agents -/

inductive Phase where
  | idle
  /-- `acquire_or_renew` has read the clock and asks for the lease. -/
  | asking (now : Timestamp)
  /-- The write is on its way. -/
  | writing (put : Put)
  /-- The write was applied or refused; the answer is on its way. -/
  | answered (ok : Bool)
  /-- An allocation pass is running. -/
  | allocating
deriving DecidableEq, Repr

structure Agent where
  /-- `LeaderElector::is_leader`. -/
  isLeader : Bool := false
  phase : Phase := .idle
deriving DecidableEq, Repr

/-- What `tick` does with the result of `acquire_or_renew`; an error counts as `false`. -/
def Agent.tick (held : Bool) : Agent where
  isLeader := held

structure State (ι : Type) where
  now : Timestamp
  lease : Option Lease
  /-- The resource version the next write gets. -/
  nextVersion : Nat
  agent : ι → Agent
  /-- Writes whose sender has given up waiting. -/
  stray : List Put

inductive Action (ι : Type) where
  | wait (d : Nat)
  | beginTick (i : ι)
  | fetch (i : ι)
  | fetchError (i : ι)
  | land (i : ι)
  | giveUp (i : ι)
  | answer (i : ι)
  | loseAnswer (i : ι)
  | landStray (n : Nat)
  | beginSync (i : ι)
  | endSync (i : ι)
deriving DecidableEq, Repr

variable {ι : Type}

namespace State

def setAgent [DecidableEq ι] (s : State ι) (i : ι) (a : Agent) : State ι :=
  { s with agent := Function.update s.agent i a }

/-- Whether the server applies a write: the fetched version is still current, or there still
is no object. -/
def accepts (s : State ι) (put : Put) : Bool :=
  s.lease.map (·.resourceVersion) == put.fetched

/-- The server handles a write. -/
def apply (s : State ι) (put : Put) : State ι :=
  if s.accepts put then
    { s with lease := some ⟨s.nextVersion, some (newSpec put.identity put.now)⟩,
             nextVersion := s.nextVersion + 1 }
  else s

end State

/-- One step of the system; `none` where the action is not possible. -/
def step [DecidableEq ι] (id : ι → String) (s : State ι) : Action ι → Option (State ι)
  | .wait d => some { s with now := s.now + d }
  | .beginTick i =>
    match (s.agent i).phase with
    | .idle => some (s.setAgent i { s.agent i with phase := .asking s.now })
    | _ => none
  | .fetch i =>
    match (s.agent i).phase with
    | .asking now =>
      if heldByOtherAndFresh (id i) now s.lease then some (s.setAgent i (Agent.tick false))
      else
        let put := ⟨id i, now, s.lease.map (·.resourceVersion)⟩
        some (s.setAgent i { s.agent i with phase := .writing put })
    | _ => none
  | .fetchError i =>
    match (s.agent i).phase with
    | .asking _ => some (s.setAgent i (Agent.tick false))
    | _ => none
  | .land i =>
    match (s.agent i).phase with
    | .writing put =>
      some ((s.apply put).setAgent i { s.agent i with phase := .answered (s.accepts put) })
    | _ => none
  | .giveUp i =>
    match (s.agent i).phase with
    | .writing put =>
      some { s.setAgent i (Agent.tick false) with stray := s.stray ++ [put] }
    | _ => none
  | .answer i =>
    match (s.agent i).phase with
    | .answered ok => some (s.setAgent i (Agent.tick ok))
    | _ => none
  | .loseAnswer i =>
    match (s.agent i).phase with
    | .answered _ => some (s.setAgent i (Agent.tick false))
    | _ => none
  | .landStray n =>
    match s.stray[n]? with
    | some put => some { s.apply put with stray := s.stray.eraseIdx n }
    | none => none
  | .beginSync i =>
    match (s.agent i).phase with
    | .idle =>
      if (s.agent i).isLeader then some (s.setAgent i { s.agent i with phase := .allocating })
      else none
    | _ => none
  | .endSync i =>
    match (s.agent i).phase with
    | .allocating => some (s.setAgent i { s.agent i with phase := .idle })
    | _ => none

/-- The agents start their loops: nobody leads and nothing is in flight. The lease may hold
anything. -/
structure Initial (s : State ι) : Prop where
  agents : ∀ i, s.agent i = {}
  stray : s.stray = []
  version : ∀ l, s.lease = some l → l.resourceVersion < s.nextVersion

/-! ## Exclusion -/

/-- The agent would pass the gate, or has passed it and its allocation pass is running. -/
def Authorised (a : Agent) : Prop := a.isLeader = true ∨ a.phase = .allocating

/-- Two agents that are authorised to allocate have one identity. -/
def Exclusive (id : ι → String) (s : State ι) : Prop :=
  ∀ i j, Authorised (s.agent i) → Authorised (s.agent j) → id i = id j

/-- The agent leads, or its successful write is about to be answered. -/
def Granted (a : Agent) : Prop := a.isLeader = true ∨ a.phase = .answered true

/-- No agent that leads, or is about to, sits on a lease older than its duration: as long as
the lease names the agent, it is fresh. -/
def Fresh (id : ι → String) (s : State ι) : Prop :=
  ∀ i, Granted (s.agent i) → ∀ l spec, s.lease = some l → l.spec = some spec →
    spec.holderIdentity = some (id i) → spec.fresh s.now = true

instance [Fintype ι] (id : ι → String) (s : State ι) : Decidable (Fresh id s) :=
  have : ∀ i, Decidable (Granted (s.agent i)) := fun i => inferInstanceAs (Decidable (_ ∨ _))
  decidable_of_iff (∀ i, Granted (s.agent i) → ∀ spec ∈ s.lease.bind (·.spec),
      spec.holderIdentity = some (id i) → spec.fresh s.now = true) (by
    constructor
    · intro h i hi l spec hl hspec
      exact h i hi spec (by rw [hl]; exact hspec)
    · intro h i hi spec hspec
      obtain ⟨l, hl, hs⟩ := Option.bind_eq_some_iff.mp hspec
      exact h i hi l spec hl hs)

/-- The lease was last written under the identity of `i`. -/
def Held (id : ι → String) (s : State ι) (i : ι) : Prop :=
  ∃ l r, s.lease = some l ∧ l.spec = some (newSpec (id i) r)

/-- A write that the server would apply was decided on the lease as it stands. -/
structure Ready (s : State ι) (put : Put) : Prop where
  past : put.now ≤ s.now
  old : ∀ v, put.fetched = some v → v < s.nextVersion
  decided : s.accepts put = true → heldByOtherAndFresh put.identity put.now s.lease = false

structure Inv (id : ι → String) (s : State ι) : Prop where
  version : ∀ l, s.lease = some l → l.resourceVersion < s.nextVersion
  asking : ∀ i now, (s.agent i).phase = .asking now → now ≤ s.now
  own : ∀ i put, (s.agent i).phase = .writing put → put.identity = id i ∧ Ready s put
  stray : ∀ put ∈ s.stray, Ready s put
  held : ∀ i, Granted (s.agent i) → Held id s i
  gate : ∀ i, (s.agent i).phase = .allocating → (s.agent i).isLeader = true

theorem inv_init {id : ι → String} {s : State ι} (h : Initial s) : Inv id s where
  version := h.version
  asking := fun i now hi => by simp [h.agents i] at hi
  own := fun i put hi => by simp [h.agents i] at hi
  stray := fun put hput => by simp [h.stray] at hput
  held := fun i hi => by simp [Granted, h.agents i] at hi
  gate := fun i hi => by simp [h.agents i] at hi

theorem Ready.move {s t : State ι} {put : Put} (h : Ready s put) (hnow : s.now ≤ t.now)
    (hversion : t.nextVersion = s.nextVersion) (hlease : t.lease = s.lease) : Ready t put := by
  refine ⟨Nat.le_trans h.past hnow, fun v hv => hversion ▸ h.old v hv, fun hacc => ?_⟩
  unfold State.accepts at hacc
  rw [hlease] at hacc ⊢
  exact h.decided hacc

theorem fresh_newSpec {identity : String} {r t : Timestamp} :
    (newSpec identity r).fresh t = true ↔ asSecond t - asSecond r < leaseDuration := by
  show decide (_ < _) = true ↔ _
  exact decide_eq_true_iff

/-- A fresh lease of another identity stays fresh when looked at earlier. -/
theorem fresh_earlier {identity : String} {r t u : Timestamp} (htu : t ≤ u)
    (h : (newSpec identity r).fresh u = true) : (newSpec identity r).fresh t = true := by
  have hsec := asSecond_mono htu
  rw [fresh_newSpec] at h ⊢
  omega

/-- A write that is applied while `i` holds a fresh lease is written under its identity. -/
theorem accepted_identity {id : ι → String} {s : State ι} {put : Put} (hready : Ready s put)
    (hacc : s.accepts put = true) (hfresh : Fresh id s) {i : ι} (hgr : Granted (s.agent i))
    (hheld : Held id s i) : put.identity = id i := by
  obtain ⟨l, r, hl, hspec⟩ := hheld
  by_contra hne
  have hother : ¬id i = put.identity := fun e => hne e.symm
  have hnow : (newSpec (id i) r).fresh s.now = true := hfresh i hgr l _ hl hspec rfl
  have hthen : (newSpec (id i) r).fresh put.now = true := fresh_earlier hready.past hnow
  have hdecided := hready.decided hacc
  unfold heldByOtherAndFresh at hdecided
  rw [hl] at hdecided
  simp only [Option.bind_some, hspec] at hdecided
  rw [show (newSpec (id i) r).holderIdentity = some (id i) from rfl] at hdecided
  simp [hother, hthen] at hdecided

namespace Inv

variable {id : ι → String} {s : State ι}

/-- A step of one agent that leaves the server alone. -/
theorem setAgent [DecidableEq ι] (h : Inv id s) (i : ι) (a : Agent)
    (hask : ∀ now, a.phase = .asking now → now ≤ s.now)
    (hwrite : ∀ put, a.phase = .writing put → put.identity = id i ∧ Ready s put)
    (hgr : Granted a → Held id s i) (hgate : a.phase = .allocating → a.isLeader = true) :
    Inv id (s.setAgent i a) := by
  have hagent : ∀ j, (s.setAgent i a).agent j = if j = i then a else s.agent j := by
    intro j
    exact Function.update_apply s.agent i a j
  have hready : ∀ put, Ready s put → Ready (s.setAgent i a) put :=
    fun put hput => hput.move (Nat.le_refl _) rfl rfl
  refine ⟨h.version, ?_, ?_, fun put hput => hready put (h.stray put hput), ?_, ?_⟩
  · intro j now hj
    rw [hagent] at hj
    split at hj
    · exact hask now hj
    · exact h.asking j now hj
  · intro j put hj
    rw [hagent] at hj
    split at hj
    · next hji =>
      rw [hji]
      exact ⟨(hwrite put hj).1, hready put (hwrite put hj).2⟩
    · exact ⟨(h.own j put hj).1, hready put (h.own j put hj).2⟩
  · intro j hj
    rw [hagent] at hj
    split at hj
    · next hji =>
      rw [hji]
      exact hgr hj
    · exact h.held j hj
  · intro j hj
    rw [hagent] at hj ⊢
    by_cases hji : j = i
    · rw [if_pos hji] at hj ⊢
      exact hgate hj
    · rw [if_neg hji] at hj ⊢
      exact h.gate j hj

/-- After a write was applied no write decided before it can be. -/
theorem ready_after {put q : Put} (hq : Ready s q) (hacc : s.accepts put = true) :
    Ready (s.apply put) q := by
  unfold State.apply
  rw [if_pos hacc]
  refine ⟨hq.past, fun v hv => Nat.lt_succ_of_lt (hq.old v hv), fun hacc' => ?_⟩
  have hfetched : q.fetched = some s.nextVersion := by
    have hbeq : (some s.nextVersion == q.fetched) = true := hacc'
    exact (beq_iff_eq.mp hbeq).symm
  exact absurd (hq.old _ hfetched) (Nat.lt_irrefl _)

/-- The server handles a write while every leader's lease is fresh. -/
theorem apply (h : Inv id s) (hfresh : Fresh id s) {put : Put} (hput : Ready s put) :
    Inv id (s.apply put) := by
  by_cases hacc : s.accepts put = true
  · have hready : ∀ q, Ready s q → Ready (s.apply put) q := fun q hq => ready_after hq hacc
    have happ : s.apply put = { s with
        lease := some ⟨s.nextVersion, some (newSpec put.identity put.now)⟩,
        nextVersion := s.nextVersion + 1 } := if_pos hacc
    refine ⟨?_, ?_, ?_, ?_, ?_, ?_⟩
    · intro l hl
      rw [happ] at hl ⊢
      cases hl
      exact Nat.lt_succ_self _
    · rw [happ]
      exact h.asking
    · intro i q hq
      have hq' : (s.agent i).phase = .writing q := by
        rw [happ] at hq
        exact hq
      exact ⟨(h.own i q hq').1, hready q (h.own i q hq').2⟩
    · intro q hq
      have hq' : q ∈ s.stray := by
        rw [happ] at hq
        exact hq
      exact hready q (h.stray q hq')
    · intro i hi
      have hi' : Granted (s.agent i) := by
        rw [happ] at hi
        exact hi
      have hid := accepted_identity hput hacc hfresh hi' (h.held i hi')
      rw [happ]
      exact ⟨_, put.now, rfl, by rw [← hid]⟩
    · rw [happ]
      exact h.gate
  · have happ : s.apply put = s := if_neg hacc
    rw [happ]
    exact h

/-- The agent goes idle. -/
theorem setIdle [DecidableEq ι] (h : Inv id s) (i : ι) {a : Agent} (hidle : a.phase = .idle)
    (hlead : a.isLeader = true → Held id s i) : Inv id (s.setAgent i a) := by
  refine h.setAgent i _ (fun now hp => ?_) (fun put hp => ?_) (fun hgr => ?_) (fun hp => ?_)
  · rw [hidle] at hp
    cases hp
  · rw [hidle] at hp
    cases hp
  · exact hlead (by simpa [Granted, hidle] using hgr)
  · rw [hidle] at hp
    cases hp

/-- The agent's tick ends without leadership. -/
theorem tickFalse [DecidableEq ι] (h : Inv id s) (i : ι) :
    Inv id (s.setAgent i (Agent.tick false)) := by
  refine h.setIdle i rfl fun hlead => ?_
  cases hlead

theorem wait (h : Inv id s) (d : Nat) : Inv id { s with now := s.now + d } := by
  have hlater : s.now ≤ s.now + d := Nat.le_add_right _ _
  refine ⟨h.version, fun i now hi => Nat.le_trans (h.asking i now hi) hlater, ?_, ?_, h.held,
    h.gate⟩
  · intro i put hi
    exact ⟨(h.own i put hi).1, (h.own i put hi).2.move hlater rfl rfl⟩
  · intro put hput
    exact (h.stray put hput).move hlater rfl rfl

/-- Other writes are on their way, decided on the lease as it stands. -/
theorem setStray (h : Inv id s) {stray : List Put} (hstray : ∀ put ∈ stray, Ready s put) :
    Inv id { s with stray := stray } := by
  refine ⟨h.version, h.asking, ?_, ?_, h.held, h.gate⟩
  · intro i put hi
    exact ⟨(h.own i put hi).1, (h.own i put hi).2.move (Nat.le_refl _) rfl rfl⟩
  · intro put hput
    exact (hstray put hput).move (Nat.le_refl _) rfl rfl

/-- An agent that asked, and found no fresh lease of another identity, sends its write. -/
theorem startWrite [DecidableEq ι] (h : Inv id s) {i : ι} {now : Timestamp}
    (hphase : (s.agent i).phase = .asking now)
    (hdecided : heldByOtherAndFresh (id i) now s.lease = false) :
    Inv id (s.setAgent i { s.agent i with
      phase := .writing ⟨id i, now, s.lease.map (·.resourceVersion)⟩ }) := by
  refine h.setAgent i _ (fun now hp => ?_) (fun put hp => ?_) (fun hgr => ?_) (fun hp => ?_)
  · cases hp
  · cases hp
    refine ⟨rfl, h.asking i now hphase, ?_, fun _ => hdecided⟩
    intro v hv
    obtain ⟨l, hl, rfl⟩ := Option.map_eq_some_iff.mp hv
    exact h.version l hl
  · exact h.held i (Or.inl (by simpa [Granted] using hgr))
  · cases hp

/-- The server handles the write of an agent that waits for the answer. -/
theorem land [DecidableEq ι] (h : Inv id s) (hfresh : Fresh id s) {i : ι} {put : Put}
    (hphase : (s.agent i).phase = .writing put) :
    Inv id ((s.apply put).setAgent i { s.agent i with phase := .answered (s.accepts put) }) := by
  obtain ⟨hid, hput⟩ := h.own i put hphase
  refine (h.apply hfresh hput).setAgent i _ (fun now hp => ?_) (fun put hp => ?_)
    (fun hgr => ?_) (fun hp => ?_)
  · cases hp
  · cases hp
  · by_cases hacc : s.accepts put = true
    · unfold State.apply
      rw [if_pos hacc]
      exact ⟨_, put.now, rfl, by rw [← hid]⟩
    · have hlead : (s.agent i).isLeader = true := by simpa [Granted, hacc] using hgr
      unfold State.apply
      rw [if_neg hacc]
      exact h.held i (Or.inl hlead)
  · cases hp

/-- One step keeps the invariant, as long as every leader's lease is fresh. -/
theorem step [DecidableEq ι] {t : State ι} {a : Action ι} (h : Inv id s) (hfresh : Fresh id s)
    (hstep : Lballoc.step id s a = some t) : Inv id t := by
  cases a with
  | wait d =>
    cases hstep
    exact h.wait d
  | beginTick i =>
    simp only [Lballoc.step] at hstep
    split at hstep
    · cases hstep
      refine h.setAgent i _ (fun now hp => ?_) (fun put hp => ?_) (fun hgr => ?_)
        (fun hp => ?_)
      · cases hp
        exact Nat.le_refl _
      · cases hp
      · exact h.held i (Or.inl (by simpa [Granted] using hgr))
      · cases hp
    · cases hstep
  | fetch i =>
    simp only [Lballoc.step] at hstep
    split at hstep
    · next now hphase =>
      split at hstep
      · cases hstep
        exact h.tickFalse i
      · next hdecided =>
        cases hstep
        exact h.startWrite hphase (by simpa using hdecided)
    · cases hstep
  | fetchError i =>
    simp only [Lballoc.step] at hstep
    split at hstep
    · cases hstep
      exact h.tickFalse i
    · cases hstep
  | land i =>
    simp only [Lballoc.step] at hstep
    split at hstep
    · next put hphase =>
      cases hstep
      exact h.land hfresh hphase
    · cases hstep
  | giveUp i =>
    simp only [Lballoc.step] at hstep
    split at hstep
    · next put hphase =>
      cases hstep
      refine (h.tickFalse i).setStray fun q hq => ?_
      obtain hq | hq := List.mem_append.mp hq
      · exact (h.stray q hq).move (Nat.le_refl _) rfl rfl
      · rw [List.mem_singleton.mp hq]
        exact (h.own i put hphase).2.move (Nat.le_refl _) rfl rfl
    · cases hstep
  | answer i =>
    simp only [Lballoc.step] at hstep
    split at hstep
    · next ok hphase =>
      cases hstep
      refine h.setIdle i rfl fun hok => h.held i (Or.inr ?_)
      rw [hphase, show ok = true from hok]
    · cases hstep
  | loseAnswer i =>
    simp only [Lballoc.step] at hstep
    split at hstep
    · cases hstep
      exact h.tickFalse i
    · cases hstep
  | landStray n =>
    simp only [Lballoc.step] at hstep
    split at hstep
    · next put hput =>
      cases hstep
      have hready := h.stray put (List.mem_of_getElem? hput)
      have happ := h.apply hfresh hready
      have hstray : (s.apply put).stray = s.stray := by
        unfold State.apply
        split <;> rfl
      refine happ.setStray fun q hq => happ.stray q ?_
      rw [hstray]
      exact List.mem_of_mem_eraseIdx hq
    · cases hstep
  | beginSync i =>
    simp only [Lballoc.step] at hstep
    split at hstep
    · split at hstep
      · next hlead =>
        cases hstep
        refine h.setAgent i _ (fun now hp => ?_) (fun put hp => ?_) (fun _ => ?_)
          (fun _ => hlead)
        · cases hp
        · cases hp
        · exact h.held i (Or.inl hlead)
      · cases hstep
    · cases hstep
  | endSync i =>
    simp only [Lballoc.step] at hstep
    split at hstep
    · cases hstep
      exact h.setIdle i rfl fun hlead => h.held i (Or.inl hlead)
    · cases hstep

theorem exclusive (h : Inv id s) : Exclusive id s := by
  intro i j hi hj
  obtain ⟨l, r, hl, hspec⟩ := h.held i (Or.inl (hi.elim (fun hl => hl) (h.gate i)))
  obtain ⟨l', r', hl', hspec'⟩ := h.held j (Or.inl (hj.elim (fun hl => hl) (h.gate j)))
  rw [hl] at hl'
  cases hl'
  rw [hspec] at hspec'
  have hholder : some (id i) = some (id j) :=
    congrArg (fun o => Option.bind o LeaseSpec.holderIdentity) hspec'
  exact Option.some.inj hholder

end Inv

/-- Two agents that are authorised to allocate have one identity, after every run whose steps
all start with every leader's lease fresh. -/
theorem leaders_agree [DecidableEq ι] (id : ι → String) (s t : State ι)
    (actions : List (Action ι)) (h0 : Initial s) (hrun : System.run (step id) s actions = some t)
    (hfresh : System.Meets (step id) (fun u _ => Fresh id u) s actions) : Exclusive id t := by
  have hinv : Inv id t := System.run_invariant (I := Inv id) (C := fun u _ => Fresh id u)
    (fun u a v hu hC hstep => hu.step hC hstep) (inv_init h0) hfresh hrun
  exact hinv.exclusive

/-! ## A pass that outlives its lease -/

section Sample

/-- Agents `false` and `true`. -/
def pods : Bool → String
  | false => "kube-router-a"
  | true => "kube-router-b"

def noLease : State Bool where
  now := 0
  lease := none
  nextVersion := 1
  agent := fun _ => {}
  stray := []

theorem noLease_initial : Initial noLease where
  agents := fun _ => rfl
  stray := rfl
  version := fun l hl => by simp [noLease] at hl

/-- Agent `i` takes the lease, learns of it and starts an allocation pass. -/
def takeAndSync (i : Bool) : List (Action Bool) :=
  [.beginTick i, .fetch i, .land i, .answer i, .beginSync i]

/-- The first agent's pass takes 14 s; the second agent looks while it is running. -/
def quickPass : List (Action Bool) :=
  takeAndSync false ++ [.wait 14000000000, .beginTick true, .fetch true, .endSync false]

/-- The first agent's pass is still running when the second agent looks, 15 s later. -/
def slowPass : List (Action Bool) :=
  takeAndSync false ++ [.wait 15000000000] ++ takeAndSync true

end Sample

/-- The second agent looks while the lease is fresh, and is refused. -/
theorem quickPass_exclusive :
    ∃ t, System.run (step pods) noLease quickPass = some t ∧ Exclusive pods t := by
  have hrun : (System.run (step pods) noLease quickPass).isSome = true := by decide +kernel
  obtain ⟨t, ht⟩ := Option.isSome_iff_exists.mp hrun
  exact ⟨t, ht, leaders_agree pods noLease t quickPass noLease_initial ht (by decide +kernel)⟩

theorem two_allocators :
    ¬∀ (ι : Type) [DecidableEq ι] (id : ι → String) (s t : State ι) (actions : List (Action ι)),
      Initial s → System.run (step id) s actions = some t → Exclusive id t := by
  intro h
  have hrun : (System.run (step pods) noLease slowPass).isSome = true := by decide +kernel
  obtain ⟨t, ht⟩ := Option.isSome_iff_exists.mp hrun
  have hboth : ((System.run (step pods) noLease slowPass).map fun t =>
      ((t.agent false).phase, (t.agent true).phase)) = some (.allocating, .allocating) := by
    decide +kernel
  rw [ht] at hboth
  have hphases := Prod.mk.inj (Option.some.inj hboth)
  have hsame := h Bool pods noLease t slowPass noLease_initial ht false true
    (Or.inr hphases.1) (Or.inr hphases.2)
  exact absurd hsame (by decide)

end KubeRouter.Lballoc
