/-
  Heartbeats (`observability/src/health.rs`), the components the agent registers
  (`orchestrate.rs`) and the controllers' loops that beat them (`run_routing`,
  `receive_side_inject` and `run_loadbalancer` in `main.rs`, the `run` functions of the
  controllers).

  Time is in nanoseconds. Every loop waits for its client and caches, then makes a ticker whose
  first tick is due at once; a tick is served when it is due, and a sync pass takes no time. The
  service proxy also wakes up on a watch event and sleeps 200 ms before it syncs; the route
  injector of the gobgp engine also beats on every best path it installs. No loop beats a
  component other than its own, so loops are named by their component.

  Proved:
  * `stays_healthy`: in every run of an agent whose local node was found, and whose injector is
    started in time for its period, the agent is healthy once each loop has ticked.
  * `lost_node_unhealthy`: an agent that did not find its local node registers NetworkRoutes and
    never beats it.
  * `loop_period_pos`: in a valid configuration every ticker has a positive period.
-/
import Mathlib.Logic.Function.Basic
import Mathlib.Data.Fintype.Basic
import KubeRouter.Lib.System
import KubeRouter.Agent.Config

namespace KubeRouter.Agent

/-! ## Heartbeats -/

inductive Component where
  | NetworkRoutes
  | LoadBalancer
  | NetworkPolicy
  | NetworkServices
  | Hairpin
  | Metrics
  | RouteSync
deriving DecidableEq, Repr

def Component.all : List Component :=
  [.NetworkRoutes, .LoadBalancer, .NetworkPolicy, .NetworkServices, .Hairpin, .Metrics, .RouteSync]

theorem Component.mem_all (c : Component) : c ∈ Component.all := by
  cases c <;> decide

instance : Fintype Component := Fintype.ofList Component.all Component.mem_all

/-- `GRACE`. -/
def grace : Nat := milliseconds 1500

structure ComponentHealth where
  last : Nat
  registered : Nat
  syncPeriod : Nat
  ttl : Option Nat
deriving DecidableEq, Repr

namespace ComponentHealth

def window (c : ComponentHealth) : Nat := c.syncPeriod + c.ttl.getD 0 + grace

/-- The first heartbeat fixes the TTL. -/
def beat (c : ComponentHealth) (now : Nat) : ComponentHealth :=
  { c with ttl := some (c.ttl.getD (now - c.registered)), last := now }

/-- How late the component is, when its window is over. -/
def late (c : ComponentHealth) (now : Nat) : Option Nat :=
  if now - c.last > c.window then some (now - c.last) else none

end ComponentHealth

abbrev HealthState := Component → Option ComponentHealth

namespace HealthState

def new : HealthState := fun _ => none

def register (h : HealthState) (component : Component) (syncPeriod now : Nat) : HealthState :=
  Function.update h component
    (some { last := now, registered := now, syncPeriod := syncPeriod, ttl := none })

theorem register_apply (h : HealthState) (component comp : Component) (syncPeriod now : Nat) :
    h.register component syncPeriod now comp =
      if comp = component then some ⟨now, now, syncPeriod, none⟩ else h comp := by
  simp [register, Function.update_apply]

def heartbeat (h : HealthState) (component : Component) (now : Nat) : HealthState :=
  Function.update h component ((h component).map (·.beat now))

theorem heartbeat_apply (h : HealthState) (component comp : Component) (now : Nat) :
    h.heartbeat component now comp =
      if comp = component then (h comp).map (·.beat now) else h comp := by
  unfold heartbeat
  rw [Function.update_apply]
  split
  · rename_i heq
    rw [heq]
  · rfl

/-- The order of the hash map does not matter to a caller. -/
def staleComponents (h : HealthState) (now : Nat) : List (Component × Nat) :=
  Component.all.filterMap fun comp => ((h comp).bind (·.late now)).map (comp, ·)

def isHealthy (h : HealthState) (now : Nat) : Bool := (h.staleComponents now).isEmpty

theorem isHealthy_of_window {h : HealthState} {now : Nat}
    (hwin : ∀ comp c, h comp = some c → now - c.last ≤ c.window) : h.isHealthy now = true := by
  have hlate : ∀ comp, (h comp).bind (·.late now) = none := by
    intro comp
    cases hc : h comp with
    | none => rfl
    | some c =>
      have hle := hwin comp c hc
      rw [Option.bind_some, ComponentHealth.late, if_neg (Nat.not_lt.mpr hle)]
  rw [isHealthy, staleComponents, List.isEmpty_iff, List.filterMap_eq_nil_iff]
  intro comp _
  rw [hlate]
  rfl

end HealthState

/-! ## Loops -/

/-- `components_for`: the registered components with their sync periods. -/
def componentsFor (cfg : KubeRouterConfig) : List (Component × Nat) :=
  (if cfg.runRouter then
    [(.NetworkRoutes, cfg.routesSyncPeriod), (.RouteSync, cfg.routesSyncPeriod)] else []) ++
  (if cfg.runFirewall then [(.NetworkPolicy, cfg.iptablesSyncPeriod)] else []) ++
  (if cfg.runServiceProxy then [(.NetworkServices, cfg.ipvsSyncPeriod)] else []) ++
  (if cfg.runLoadbalancer then [(.LoadBalancer, cfg.loadbalancerSyncPeriod)] else [])

inductive SelectedEngine where
  | Gobgp
  | Logging
deriving DecidableEq, Repr

/-- What a loop waits for: its ticker, best paths, and watch events to settle after. -/
structure Loop where
  period : Nat
  paths : Bool := false
  debounce : Option Nat := none
deriving DecidableEq, Repr

/-- The longest time between two beats of the loop. -/
def Loop.reach (l : Loop) : Nat := l.period + l.debounce.getD 0

/-- The agent as it came up: `found` is whether `build_controller` returned a controller. -/
structure Setup where
  config : KubeRouterConfig
  engine : SelectedEngine
  found : Bool

/-- The loop that beats a component. Under gobgp the injector takes the place of podnet. -/
def Setup.loopOf (agent : Setup) : Component → Option Loop
  | .NetworkRoutes =>
    if agent.config.runRouter && agent.found then
      some { period := agent.config.routesSyncPeriod } else none
  | .RouteSync =>
    if agent.config.runRouter then
      match agent.engine with
      | .Gobgp => some { period := agent.config.injectedRoutesSyncPeriod, paths := true }
      | .Logging => some { period := agent.config.routesSyncPeriod }
    else none
  | .NetworkPolicy =>
    if agent.config.runFirewall then some { period := agent.config.iptablesSyncPeriod } else none
  | .NetworkServices =>
    if agent.config.runServiceProxy then
      some { period := agent.config.ipvsSyncPeriod, debounce := some (milliseconds 200) } else none
  | .LoadBalancer =>
    if agent.config.runLoadbalancer then
      some { period := agent.config.loadbalancerSyncPeriod } else none
  | .Hairpin => none
  | .Metrics => none

/-- Where a loop is: before its ticker, in the select, or in the sleep after a watch event.
`due` is the ticker's next tick. -/
inductive Phase where
  | waiting
  | idle (due : Nat)
  | settling (due wake : Nat)
deriving DecidableEq, Repr

structure LoopState where
  phase : Phase := .waiting
  ticked : Bool := false
deriving DecidableEq, Repr

/-- A ticker fires when it is due, and a sleep ends in time. -/
def Phase.allows (p : Phase) (t : Nat) : Bool :=
  match p with
  | .waiting => true
  | .idle due => t ≤ due
  | .settling _ wake => t ≤ wake

inductive Event where
  | start
  | tick
  | path
  | notify
  | settle
deriving DecidableEq, Repr

/-- One step of a loop at `now`: its next state, and whether it beats. -/
def Loop.step (l : Loop) (now : Nat) (s : LoopState) : Event → Option (LoopState × Bool)
  | .start =>
    match s.phase with
    | .waiting => some ({ s with phase := .idle now }, false)
    | _ => none
  | .tick =>
    match s.phase with
    | .idle due => if due ≤ now then some (⟨.idle (due + l.period), true⟩, true) else none
    | _ => none
  | .path =>
    match s.phase with
    | .idle _ => if l.paths then some (s, true) else none
    | _ => none
  | .notify =>
    match s.phase, l.debounce with
    | .idle due, some d => some ({ s with phase := .settling due (now + d) }, false)
    | _, _ => none
  | .settle =>
    match s.phase with
    | .settling due wake => if wake ≤ now then some ({ s with phase := .idle due }, true) else none
    | _ => none

/-! ## The agent -/

structure AgentState where
  now : Nat
  health : HealthState
  loops : Component → LoopState

inductive Action where
  | pass (d : Nat)
  | on (c : Component) (e : Event)
deriving DecidableEq, Repr

namespace Setup

/-- The state after the registrations of `main`. -/
def boot (agent : Setup) (now : Nat) : AgentState where
  now := now
  health := (componentsFor agent.config).foldl (fun h e => h.register e.1 e.2 now) .new
  loops := fun _ => {}

def step (agent : Setup) (s : AgentState) : Action → Option AgentState
  | .pass d =>
    if ∀ c, (s.loops c).phase.allows (s.now + d) = true then some { s with now := s.now + d }
    else none
  | .on c e =>
    (agent.loopOf c).bind fun l => (l.step s.now (s.loops c) e).map fun out =>
      { s with
        loops := Function.update s.loops c out.1
        health := if out.2 then s.health.heartbeat c s.now else s.health }

/-- Every loop of the agent has served a tick. -/
def AllTicked (agent : Setup) (s : AgentState) : Prop :=
  ∀ c, (agent.loopOf c).isSome = true → (s.loops c).ticked = true

instance (agent : Setup) (s : AgentState) : Decidable (agent.AllTicked s) :=
  inferInstanceAs (Decidable (∀ c, (agent.loopOf c).isSome = true → (s.loops c).ticked = true))

/-- The gobgp injector is started late enough for its period to fit the window of the routes
period. -/
def Paced (agent : Setup) (t0 : Nat) (s : AgentState) (a : Action) : Prop :=
  a = .on .RouteSync .start → agent.engine = .Gobgp →
    agent.config.injectedRoutesSyncPeriod ≤
      agent.config.routesSyncPeriod + (s.now - t0) + grace

instance (agent : Setup) (t0 : Nat) (s : AgentState) (a : Action) :
    Decidable (agent.Paced t0 s a) :=
  inferInstanceAs (Decidable (_ → _ → _))

end Setup

/-! ## One loop keeps up -/

section Loop

/-- A loop that has ticked serves its next tick, or wakes up, within its reach of the last
beat. -/
def Phase.Timely (l : Loop) (now last : Nat) : Phase → Prop
  | .waiting => False
  | .idle due => due ≤ last + l.period ∧ (now ≤ due ∨ now ≤ last)
  | .settling due wake => due ≤ last + l.period ∧ wake ≤ last + l.reach ∧ now ≤ wake

/-- What a component and its loop keep at every time after the registration at `t0`. -/
structure Steady (l : Loop) (t0 now : Nat) (c : ComponentHealth) (s : LoopState) : Prop where
  registered : c.registered = t0
  since : t0 ≤ now
  past : c.last ≤ now
  fresh : s.phase = .waiting → s.ticked = false ∧ c.ttl = none
  covered : s.phase ≠ .waiting → l.reach ≤ c.syncPeriod + c.ttl.getD (now - t0) + grace
  timely : s.ticked = true → c.ttl.isSome = true ∧ s.phase.Timely l now c.last

variable {l : Loop} {t0 now : Nat} {c : ComponentHealth} {s : LoopState}

/-- The beat takes the time since the registration into the window. -/
theorem Steady.beat_covers (h : Steady l t0 now c s) :
    (c.beat now).ttl.getD (now - t0) = c.ttl.getD (now - t0) := by
  simp [ComponentHealth.beat, h.registered]

theorem Steady.beat (h : Steady l t0 now c s) {s' : LoopState}
    (hphase : s.phase ≠ .waiting) (hphase' : s'.phase ≠ .waiting)
    (htimely : s'.ticked = true → s'.phase.Timely l now now) :
    Steady l t0 now (c.beat now) s' where
  registered := h.registered
  since := h.since
  past := Nat.le_refl now
  fresh := fun hw => absurd hw hphase'
  covered := by
    intro _
    rw [h.beat_covers]
    exact h.covered hphase
  timely := fun ht => ⟨rfl, htimely ht⟩

theorem Steady.step (h : Steady l t0 now c s) {e : Event} {out : LoopState × Bool}
    (hstart : e = .start → l.reach ≤ c.syncPeriod + (now - t0) + grace)
    (hstep : l.step now s e = some out) :
    Steady l t0 now (if out.2 then c.beat now else c) out.1 := by
  obtain ⟨phase, ticked⟩ := s
  cases e with
  | start =>
    cases phase with
    | waiting =>
      cases hstep
      obtain ⟨hticked, httl⟩ := h.fresh rfl
      refine ⟨h.registered, h.since, h.past, (by simp), fun _ => ?_, fun ht => ?_⟩
      · simpa [httl] using hstart rfl
      · rw [show ticked = false from hticked] at ht
        cases ht
    | idle due => cases hstep
    | settling due wake => cases hstep
  | tick =>
    cases phase with
    | waiting => cases hstep
    | idle due =>
      obtain ⟨hdue, hout⟩ := Option.ite_none_right_eq_some.mp hstep
      cases hout
      refine h.beat (by simp) (by simp) fun _ => ⟨by simpa using hdue, Or.inr (Nat.le_refl now)⟩
    | settling due wake => cases hstep
  | path =>
    cases phase with
    | waiting => cases hstep
    | idle due =>
      obtain ⟨-, hout⟩ := Option.ite_none_right_eq_some.mp hstep
      cases hout
      refine h.beat (by simp) (by simp) fun ht => ⟨?_, Or.inr (Nat.le_refl now)⟩
      have hdue := (h.timely ht).2.1
      have hpast := h.past
      omega
    | settling due wake => cases hstep
  | notify =>
    cases phase with
    | waiting => cases hstep
    | idle due =>
      cases hd : l.debounce with
      | none => simp [Loop.step, hd] at hstep
      | some d =>
        rw [Loop.step, hd] at hstep
        cases hstep
        refine ⟨h.registered, h.since, h.past, (by simp),
          fun _ => h.covered (by simp), fun ht => ⟨(h.timely ht).1, ?_⟩⟩
        obtain ⟨hdue, hnow⟩ := (h.timely ht).2
        have hreach : l.reach = l.period + d := by simp [Loop.reach, hd]
        have hwake : now + d ≤ c.last + l.reach := by omega
        exact ⟨hdue, hwake, Nat.le_add_right now d⟩
    | settling due wake => cases hstep
  | settle =>
    cases phase with
    | waiting => cases hstep
    | idle due => cases hstep
    | settling due wake =>
      obtain ⟨-, hout⟩ := Option.ite_none_right_eq_some.mp hstep
      cases hout
      refine h.beat (by simp) (by simp) fun ht => ⟨?_, Or.inr (Nat.le_refl now)⟩
      have hdue := (h.timely ht).2.1
      have hpast := h.past
      omega

theorem Steady.pass (h : Steady l t0 now c s) {d : Nat}
    (hallow : s.phase.allows (now + d) = true) : Steady l t0 (now + d) c s where
  registered := h.registered
  since := Nat.le_add_right_of_le h.since
  past := Nat.le_add_right_of_le h.past
  fresh := h.fresh
  covered := by
    intro hphase
    have hcov := h.covered hphase
    cases httl : c.ttl with
    | none =>
      rw [httl, Option.getD_none] at hcov
      rw [Option.getD_none]
      omega
    | some ttl => simpa [httl] using hcov
  timely := by
    intro ht
    obtain ⟨httl, htimely⟩ := h.timely ht
    refine ⟨httl, ?_⟩
    obtain ⟨phase, ticked⟩ := s
    cases phase with
    | waiting => exact htimely
    | idle due => exact ⟨htimely.1, Or.inl (of_decide_eq_true hallow)⟩
    | settling due wake => exact ⟨htimely.1, htimely.2.1, of_decide_eq_true hallow⟩

/-- A loop that has ticked is within its window. -/
theorem Steady.within_window (h : Steady l t0 now c s) (hticked : s.ticked = true) :
    now - c.last ≤ c.window := by
  obtain ⟨httl, htimely⟩ := h.timely hticked
  have hphase : s.phase ≠ .waiting := by
    intro hw
    rw [hw] at htimely
    exact htimely
  have hreach : now - c.last ≤ l.reach := by
    have hperiod : l.period ≤ l.reach := Nat.le_add_right _ _
    obtain ⟨phase, ticked⟩ := s
    cases phase with
    | waiting => exact absurd rfl hphase
    | idle due =>
      obtain ⟨hdue, hnow⟩ := htimely
      omega
    | settling due wake =>
      obtain ⟨-, hwake, hnow⟩ := htimely
      omega
  obtain ⟨ttl, hsome⟩ := Option.isSome_iff_exists.mp httl
  have hcov := h.covered hphase
  rw [hsome, Option.getD_some] at hcov
  rw [ComponentHealth.window, hsome, Option.getD_some]
  exact hreach.trans hcov

end Loop

/-! ## The agent stays healthy -/

section Agent

variable {agent : Setup} {t0 : Nat}

theorem mem_foldl_register {entries : List (Component × Nat)} {h : HealthState} {comp : Component}
    {c : ComponentHealth} (hc : entries.foldl (fun h e => h.register e.1 e.2 t0) h comp = some c) :
    h comp = some c ∨ ∃ p, (comp, p) ∈ entries ∧ c = ⟨t0, t0, p, none⟩ := by
  induction entries generalizing h with
  | nil => exact Or.inl hc
  | cons e entries ih =>
    rcases ih hc with hreg | ⟨p, hp, rfl⟩
    · simp only [HealthState.register_apply] at hreg
      split at hreg
      · rename_i heq
        exact Or.inr ⟨e.2, heq ▸ List.mem_cons_self, (Option.some.inj hreg).symm⟩
      · exact Or.inl hreg
    · exact Or.inr ⟨p, List.mem_cons_of_mem _ hp, rfl⟩

theorem boot_health {comp : Component} {c : ComponentHealth}
    (h : (agent.boot t0).health comp = some c) :
    ∃ p, (comp, p) ∈ componentsFor agent.config ∧ c = ⟨t0, t0, p, none⟩ := by
  rcases mem_foldl_register h with hnew | hreg
  · cases hnew
  · exact hreg

/-- Registered components have the period `components_for` gives them, and are steady when they
have a loop. -/
def Setup.Keeps (agent : Setup) (t0 : Nat) (s : AgentState) : Prop :=
  ∀ comp c, s.health comp = some c → (comp, c.syncPeriod) ∈ componentsFor agent.config ∧
    ∀ l, agent.loopOf comp = some l → Steady l t0 s.now c (s.loops comp)

theorem boot_keeps : agent.Keeps t0 (agent.boot t0) := by
  intro comp c hc
  obtain ⟨p, hp, rfl⟩ := boot_health hc
  refine ⟨hp, fun l _ => ⟨rfl, Nat.le_refl t0, Nat.le_refl t0, fun _ => ⟨rfl, rfl⟩, ?_, ?_⟩⟩
  · intro hne
    exact absurd rfl hne
  · intro ht
    cases ht

/-- Apart from the injector, a loop's reach is covered by its registered period. -/
theorem start_covered {s : AgentState} {comp : Component} {p : Nat} {l : Loop}
    (hmem : (comp, p) ∈ componentsFor agent.config) (hl : agent.loopOf comp = some l)
    (hpaced : agent.Paced t0 s (.on comp .start)) : l.reach ≤ p + (s.now - t0) + grace := by
  have hgrace : milliseconds 200 ≤ grace := by decide
  simp only [componentsFor, List.mem_append, List.mem_ite_nil_right, List.mem_cons,
    List.not_mem_nil, or_false, Prod.mk.injEq] at hmem
  cases comp with
  | NetworkRoutes | LoadBalancer | NetworkPolicy | NetworkServices =>
    simp [Setup.loopOf] at hmem hl
    simp [Loop.reach, ← hl.2, hmem]
    omega
  | Hairpin => cases hl
  | Metrics => cases hl
  | RouteSync =>
    simp [Setup.loopOf] at hmem hl
    obtain ⟨-, hl⟩ := hl
    cases hengine : agent.engine with
    | Gobgp =>
      have hle := hpaced rfl hengine
      simp [hengine] at hl
      simpa [Loop.reach, ← hl, hmem] using hle
    | Logging =>
      simp [hengine] at hl
      simp [Loop.reach, ← hl, hmem]
      omega

theorem Setup.Keeps.pass {s s' : AgentState} {d : Nat} (h : agent.Keeps t0 s)
    (hstep : agent.step s (.pass d) = some s') : agent.Keeps t0 s' := by
  obtain ⟨hallow, hs'⟩ := Option.ite_none_right_eq_some.mp hstep
  cases hs'
  intro comp c hc
  obtain ⟨hmem, hsteady⟩ := h comp c hc
  exact ⟨hmem, fun l hl => (hsteady l hl).pass (hallow comp)⟩

theorem step_on {s s' : AgentState} {comp : Component} {e : Event}
    (hstep : agent.step s (.on comp e) = some s') :
    ∃ l out, agent.loopOf comp = some l ∧ l.step s.now (s.loops comp) e = some out ∧
      s' = { s with
        loops := Function.update s.loops comp out.1
        health := if out.2 then s.health.heartbeat comp s.now else s.health } := by
  obtain ⟨l, hl, hrest⟩ := Option.bind_eq_some_iff.mp hstep
  obtain ⟨out, hout, hs'⟩ := Option.map_eq_some_iff.mp hrest
  exact ⟨l, out, hl, hout, hs'.symm⟩

theorem Setup.Keeps.on {s s' : AgentState} {comp : Component} {e : Event} (h : agent.Keeps t0 s)
    (hpaced : agent.Paced t0 s (.on comp e)) (hstep : agent.step s (.on comp e) = some s') :
    agent.Keeps t0 s' := by
  obtain ⟨l, out, hl, hout, rfl⟩ := step_on hstep
  intro comp' c' hc'
  by_cases heq : comp' = comp
  · subst heq
    -- the component's own loop has stepped, and may have beaten
    obtain ⟨c, hc, hbeat⟩ : ∃ c, s.health comp' = some c ∧
        c' = if out.2 then c.beat s.now else c := by
      cases hb : out.2 with
      | true =>
        simp only [hb, if_true, HealthState.heartbeat_apply] at hc'
        obtain ⟨c, hc, hcb⟩ := Option.map_eq_some_iff.mp hc'
        exact ⟨c, hc, by simp [hcb]⟩
      | false => exact ⟨c', by simpa [hb] using hc', by simp⟩
    obtain ⟨hmem, hsteady⟩ := h comp' c hc
    have hsync : c'.syncPeriod = c.syncPeriod := by
      rw [hbeat]
      split <;> rfl
    refine ⟨by rw [hsync]; exact hmem, fun l' hl' => ?_⟩
    rw [hl] at hl'
    cases hl'
    have hstart : e = .start → l.reach ≤ c.syncPeriod + (s.now - t0) + grace := by
      intro he
      exact start_covered hmem hl (he ▸ hpaced)
    simp only [Function.update_self, hbeat]
    exact (hsteady l hl).step hstart hout
  · have hc : s.health comp' = some c' := by
      cases hb : out.2 with
      | true => simpa [hb, HealthState.heartbeat_apply, heq] using hc'
      | false => simpa [hb] using hc'
    obtain ⟨hmem, hsteady⟩ := h comp' c' hc
    refine ⟨hmem, fun l' hl' => ?_⟩
    simp only [Function.update_of_ne heq]
    exact hsteady l' hl'

theorem keeps_of_run {acts : List Action} {s : AgentState}
    (hmeets : System.Meets agent.step (agent.Paced t0) (agent.boot t0) acts)
    (hrun : System.run agent.step (agent.boot t0) acts = some s) : agent.Keeps t0 s := by
  refine System.run_invariant ?_ boot_keeps hmeets hrun
  intro s a s' h hpaced hstep
  cases a with
  | pass d => exact h.pass hstep
  | on comp e => exact h.on hpaced hstep

/-- With a local node, every registered component has a loop. -/
theorem loopOf_isSome (hfound : agent.config.runRouter = true → agent.found = true)
    {entry : Component × Nat} (h : entry ∈ componentsFor agent.config) :
    (agent.loopOf entry.1).isSome = true := by
  simp only [componentsFor, List.mem_append, List.mem_ite_nil_right, List.mem_cons,
    List.not_mem_nil, or_false] at h
  rcases h with ((⟨hon, rfl | rfl⟩ | ⟨hon, rfl⟩) | ⟨hon, rfl⟩) | ⟨hon, rfl⟩
  · simp [Setup.loopOf, hon, hfound hon]
  · cases hengine : agent.engine <;> simp [Setup.loopOf, hon, hengine]
  · simp [Setup.loopOf, hon]
  · simp [Setup.loopOf, hon]
  · simp [Setup.loopOf, hon]

/-- An agent that found its local node, and whose injector starts in time for its period, is
healthy whenever each of its loops has ticked; each component it registered has such a loop. -/
theorem stays_healthy (agent : Setup) (t0 : Nat)
    (hfound : agent.config.runRouter = true → agent.found = true) {acts : List Action}
    (hmeets : System.Meets agent.step (agent.Paced t0) (agent.boot t0) acts) {s : AgentState}
    (hrun : System.run agent.step (agent.boot t0) acts = some s) (hticked : agent.AllTicked s) :
    (∀ entry ∈ componentsFor agent.config, (agent.loopOf entry.1).isSome = true) ∧
      s.health.isHealthy s.now = true := by
  refine ⟨fun entry => loopOf_isSome hfound, HealthState.isHealthy_of_window ?_⟩
  intro comp c hc
  obtain ⟨hmem, hsteady⟩ := keeps_of_run hmeets hrun comp c hc
  obtain ⟨l, hl⟩ := Option.isSome_iff_exists.mp (loopOf_isSome hfound hmem)
  exact (hsteady l hl).within_window (hticked comp (by rw [hl]; rfl))

end Agent

/-- `tokio::time::interval` panics on a zero period; no loop of a valid configuration has one. -/
theorem loop_period_pos {parseNet : String → Except String IpNet} {agent : Setup}
    (hvalid : agent.config.validate parseNet = .ok ()) {comp : Component} {l : Loop}
    (hl : agent.loopOf comp = some l) : 0 < l.period := by
  have hpos := KubeRouterConfig.validate_periods hvalid
  simp only [KubeRouterConfig.periods, List.forall_mem_cons] at hpos
  obtain ⟨-, hroutes, hiptables, hipvs, -, hinjected, hlb, -⟩ := hpos
  cases comp with
  | NetworkRoutes | LoadBalancer | NetworkPolicy | NetworkServices =>
    obtain ⟨-, hl⟩ := Option.ite_none_right_eq_some.mp hl
    cases hl
    assumption
  | Hairpin => cases hl
  | Metrics => cases hl
  | RouteSync =>
    obtain ⟨-, hl⟩ := Option.ite_none_right_eq_some.mp hl
    cases hengine : agent.engine with
    | Gobgp | Logging =>
      rw [hengine] at hl
      cases hl
      assumption

section Sample

/-- Only the router, with the gobgp engine and an injector that syncs every 301 s. -/
def gobgpAgent : Setup where
  config := { runFirewall := false, runServiceProxy := false,
              injectedRoutesSyncPeriod := seconds 301 }
  engine := .Gobgp
  found := true

def gobgpRun : List Action :=
  [.on .NetworkRoutes .start, .on .NetworkRoutes .tick, .on .RouteSync .start, .on .RouteSync .tick,
   .pass (seconds 300), .on .NetworkRoutes .tick, .pass (seconds 1)]

theorem gobgpAgent_healthy :
    ∃ s, System.run gobgpAgent.step (gobgpAgent.boot 0) gobgpRun = some s ∧
      s.health.isHealthy s.now = true := by
  have hticked : ∀ s ∈ System.run gobgpAgent.step (gobgpAgent.boot 0) gobgpRun,
      gobgpAgent.AllTicked s := by decide
  obtain ⟨s, hs⟩ := Option.isSome_iff_exists.mp
    (show (System.run gobgpAgent.step (gobgpAgent.boot 0) gobgpRun).isSome = true by decide)
  exact ⟨s, hs, (stays_healthy gobgpAgent 0 (fun _ => rfl) (by decide) hs (hticked s hs)).2⟩

/-- The default cluster IP range as the parser reads it. -/
def parseClusterRange (s : String) : Except String IpNet :=
  if s = "10.96.0.0/12" then .ok ⟨.ofOctets 10 96 0 0, 12, by decide⟩
  else .error "invalid IP address syntax"

/-- Only the router, with the logging engine, on a node that is not in the store. -/
def lostAgent : Setup where
  config := { runFirewall := false, runServiceProxy := false }
  engine := .Logging
  found := false

def lostRun : List Action :=
  [.on .RouteSync .start, .on .RouteSync .tick, .pass (seconds 300), .on .RouteSync .tick,
   .pass (seconds 2)]

/-- NetworkRoutes is registered and nothing beats it. -/
theorem lost_node_unhealthy :
    ¬ ∀ (parseNet : String → Except String IpNet) (agent : Setup) (t0 : Nat) (acts : List Action)
      (s : AgentState), agent.config.validate parseNet = .ok () →
      System.run agent.step (agent.boot t0) acts = some s → agent.AllTicked s →
      s.health.isHealthy s.now = true := by
  intro h
  have hvalid : lostAgent.config.validate parseClusterRange = .ok () := by rfl
  have hticked : ∀ s ∈ System.run lostAgent.step (lostAgent.boot 0) lostRun,
      lostAgent.AllTicked s ∧ s.health.isHealthy s.now = false := by decide
  obtain ⟨s, hs⟩ := Option.isSome_iff_exists.mp
    (show (System.run lostAgent.step (lostAgent.boot 0) lostRun).isSome = true by decide)
  have hhealthy := h parseClusterRange lostAgent 0 lostRun s hvalid hs (hticked s hs).1
  rw [(hticked s hs).2] at hhealthy
  cases hhealthy

end Sample

end KubeRouter.Agent
