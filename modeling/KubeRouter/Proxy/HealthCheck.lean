/-
  The health-check servers of services with `externalTrafficPolicy: Local`
  (`proxy/src/nodeport_hc.rs`).

  The manager keeps one server per port and a table of counts that all servers read. A sync
  replaces the table, stops the servers whose port is gone and binds the new ports in order, up
  to the first one that cannot be bound. A server whose `accept` fails ends by itself; its entry
  in the map stays.

  Proved:
  * `activeLocalCounts_spec`: the count of a port, by services.
  * `sync_spec`: the servers behind a sync, however it ends.
  * `running_iff`: after any run the server of a port runs if and only if some sync has bound the
    port, every sync since has wanted it, and the server has not ended.
  * `after_counts`: the counts are those of the last snapshot.
-/
import KubeRouter.Common.Http
import KubeRouter.Lib.Program
import KubeRouter.Proxy.Model

namespace KubeRouter.Proxy.HealthCheck

open Http (Response)
open Program

/-! ## Counts -/

/-- A service with its health-check port. -/
structure HealthService extends ServiceInfo where
  healthCheckNodePort : Option UInt16
deriving DecidableEq, Repr

abbrev Snapshot := List (HealthService × List EndpointInfo)

abbrev Counts := Std.TreeMap UInt16 Nat

/-- The ready endpoints on this node. -/
def active (eps : List EndpointInfo) : Nat := (eps.filter fun e => e.isLocal && e.ready).length

def activeLocalCounts (services : Snapshot) : Counts :=
  services.foldl (fun out (svc, eps) =>
    match svc.healthCheckNodePort with
    | none => out
    | some port => out.insert port (out[port]?.getD 0 + active eps)) ∅

def nphcResponse (path : List Char) (port : UInt16) (counts : Counts) : Response :=
  if !Http.isHealthz path then Http.notFound
  else
    let active := counts[port]?.getD 0
    if active > 0 then ⟨200, "text/plain", toString active ++ " Service Endpoints found\n"⟩
    else ⟨503, "text/plain", "No Service Endpoints Found\n"⟩

/-! ## The manager -/

/-- A server is known by its port; the map tells whether its accept loop still runs. -/
structure NodePortHealthChecks where
  counts : Counts := ∅
  servers : Std.TreeMap UInt16 Bool := ∅
  bindHost : String := "0.0.0.0"

namespace NodePortHealthChecks

/-- `binds` is what comes of binding an address: an error, if it fails. -/
def sync (binds : String → Option String) (desired : Counts) :
    Prog NodePortHealthChecks String PUnit := do
  modify fun n => { n with counts := desired }
  let n ← get
  let removed := n.servers.keys.filter fun p => !desired.contains p
  removed.forM fun p => modify fun n => { n with servers := n.servers.erase p }
  desired.keys.forM fun port => do
    let n ← get
    if n.servers.contains port then return
    match binds (n.bindHost ++ ":" ++ toString port.toNat) with
    | some e => throw e
    | none => modify fun n => { n with servers := n.servers.insert port true }

end NodePortHealthChecks

/-! ### Runs -/

inductive Event where
  /-- `sync_nodeport_healthchecks` -/
  | sync (services : Snapshot) (binds : String → Option String)
  /-- The accept loop of a server ends. -/
  | acceptFails (port : UInt16)

def step (n : NodePortHealthChecks) : Event → NodePortHealthChecks
  | .sync services binds =>
      (Prog.exec (NodePortHealthChecks.sync binds (activeLocalCounts services)) n).2
  | .acceptFails port =>
    if n.servers.contains port then { n with servers := n.servers.insert port false } else n

def after (events : List Event) : NodePortHealthChecks := events.foldl step {}

/-- What a probe of `port` gets, if there is a server. -/
def answer (n : NodePortHealthChecks) (port : UInt16) (req : List Char) : Option String :=
  match n.servers[port]? with
  | some true => some (Http.handleConn (nphcResponse · port n.counts) req)
  | _ => none

/-! ## What is wanted -/

/-- Some service has the health-check port. -/
def wants (services : Snapshot) (port : UInt16) : Prop :=
  ∃ s ∈ services, s.1.healthCheckNodePort = some port

/-- The ready local endpoints of all services with the port. -/
def endpointsOf (services : Snapshot) (port : UInt16) : Nat :=
  ((services.filter fun s => s.1.healthCheckNodePort == some port).map fun s => active s.2).sum

theorem activeLocalCounts_spec (services : Snapshot) (port : UInt16) :
    (port ∈ activeLocalCounts services ↔ wants services port) ∧
      (activeLocalCounts services)[port]?.getD 0 = endpointsOf services port := by
  -- generalised to counts that are there already
  have main : ∀ (services : Snapshot) (out : Counts),
      let counts := services.foldl (fun (out : Counts) (s : HealthService × List EndpointInfo) =>
        match s.1.healthCheckNodePort with
        | none => out
        | some port => out.insert port (out[port]?.getD 0 + active s.2)) out
      (port ∈ counts ↔ port ∈ out ∨ wants services port) ∧
        counts[port]?.getD 0 = out[port]?.getD 0 + endpointsOf services port := by
    intro services
    induction services with
    | nil => intro out; simp [wants, endpointsOf]
    | cons s services ih =>
      intro out
      rw [List.foldl_cons]
      cases hport : s.1.healthCheckNodePort with
      | none =>
        obtain ⟨hmem, hcount⟩ := ih out
        refine ⟨hmem.trans (or_congr_right ?_), ?_⟩
        · simp [wants, hport]
        · rw [hcount]
          simp [endpointsOf, hport]
      | some p =>
        obtain ⟨hmem, hcount⟩ := ih (out.insert p (out[p]?.getD 0 + active s.2))
        by_cases heq : p = port
        · subst heq
          refine ⟨hmem.trans ?_, ?_⟩
          · simp [wants, hport]
          · rw [hcount]
            simp [endpointsOf, hport, Nat.add_assoc]
        · have hne : ¬compare p port = .eq := fun h => heq (Std.LawfulEqOrd.eq_of_compare h)
          refine ⟨hmem.trans ?_, ?_⟩
          · simp [wants, hport, heq, Std.TreeMap.mem_insert]
          · rw [hcount, Std.TreeMap.getElem?_insert, if_neg hne]
            simp [endpointsOf, hport, heq]
  exact ⟨(main services ∅).1.trans (by simp), (main services ∅).2.trans (by simp)⟩

/-! ## A sync -/

section Sync

variable (binds : String → Option String) (desired : Counts)

/-- The loop gets to `port`: the ports up to it are served or can be bound. -/
def Reaches (n : NodePortHealthChecks) (port : UInt16) : Prop :=
  ∀ q, q ≤ port → q ∈ desired → n.servers[q]? = none →
    binds (n.bindHost ++ ":" ++ toString q.toNat) = none

/-- The servers behind a sync, by port: those that are there stay if they are wanted, and the
wanted ones that the loop gets to are there. -/
structure Synced (n u : NodePortHealthChecks) : Prop where
  counts : u.counts = desired
  host : u.bindHost = n.bindHost
  gone : ∀ p, p ∉ desired → u.servers[p]? = none
  kept : ∀ p ∈ desired, n.servers[p]? ≠ none → u.servers[p]? = n.servers[p]?
  bound : ∀ p ∈ desired, n.servers[p]? = none → Reaches binds desired n p →
    u.servers[p]? = some true
  unbound : ∀ p ∈ desired, n.servers[p]? = none → ¬Reaches binds desired n p →
    u.servers[p]? = none

variable {binds desired} in
/-- Taking servers away. -/
theorem forM_erase (removed : List UInt16) (n : NodePortHealthChecks) :
    wp (removed.forM fun p => (modify fun n => { n with servers := n.servers.erase p } :
        Prog NodePortHealthChecks String PUnit))
      (fun _ u => u.counts = n.counts ∧ u.bindHost = n.bindHost ∧
        ∀ p, u.servers[p]? = if p ∈ removed then none else n.servers[p]?)
      (fun _ _ => False) n := by
  refine wp_forM (fun done (u : NodePortHealthChecks) => u.counts = n.counts ∧
    u.bindHost = n.bindHost ∧ ∀ p, u.servers[p]? = if p ∈ done then none else n.servers[p]?) removed
    ⟨rfl, rfl, by simp⟩ ?_
  intro done q rest u _ hu
  obtain ⟨hcounts, hhost, hservers⟩ := hu
  refine ⟨hcounts, hhost, fun p => ?_⟩
  show (u.servers.erase q)[p]? = _
  rw [get_erase, Function.update_apply, hservers p]
  by_cases hpq : p = q <;> by_cases hdone : p ∈ done <;> simp [hpq, hdone]

/-- What the loop has done behind the ports `done`. -/
structure Bound (n u : NodePortHealthChecks) (done : List UInt16) : Prop where
  counts : u.counts = desired
  host : u.bindHost = n.bindHost
  servers : ∀ p, u.servers[p]? =
    if p ∈ done then some (n.servers[p]?.getD true)
    else if p ∈ desired then n.servers[p]? else none
  reached : ∀ q ∈ done, n.servers[q]? = none →
    binds (n.bindHost ++ ":" ++ toString q.toNat) = none

/-- The loop ends behind `done` because of `port`, or because there is no port left. -/
theorem Bound.synced {n u : NodePortHealthChecks} {done rest : List UInt16}
    (h : Bound binds desired n u done) (hkeys : desired.keys = done ++ rest)
    (hstop : ∀ p ∈ rest.head?, n.servers[p]? = none ∧
      binds (n.bindHost ++ ":" ++ toString p.toNat) ≠ none) : Synced binds desired n u := by
  have hsorted : (done ++ rest).Pairwise fun a b => compare a b = .lt :=
    hkeys ▸ Std.TreeMap.ordered_keys
  have hmem : ∀ p, p ∈ desired ↔ p ∈ done ∨ p ∈ rest := fun p => by
    rw [← Std.TreeMap.mem_keys, hkeys, List.mem_append]
  have hlt : ∀ a ∈ done, ∀ b ∈ rest, a < b := fun a ha b hb =>
    Std.compare_eq_lt.mp ((List.pairwise_append.mp hsorted).2.2 a ha b hb)
  have hdone : ∀ p ∈ done, Reaches binds desired n p := by
    intro p hp q hq hqd hnone
    obtain hqdone | hqrest := (hmem q).mp hqd
    · exact h.reached q hqdone hnone
    · exact absurd (hlt p hp q hqrest) (UInt16.not_lt.mpr hq)
  -- a port behind the one that stopped the loop is not reached
  have hrest : ∀ p ∈ rest, ¬Reaches binds desired n p := by
    cases rest with
    | nil => simp
    | cons r rest =>
      obtain ⟨hnone, hfails⟩ := hstop r rfl
      intro p hp hreach
      have hrp : r ≤ p := by
        obtain rfl | hp := List.mem_cons.mp hp
        · exact UInt16.le_refl _
        · exact UInt16.le_of_lt (Std.compare_eq_lt.mp
            ((List.pairwise_cons.mp (List.pairwise_append.mp hsorted).2.1).1 p hp))
      exact hfails (hreach r hrp ((hmem r).mpr (.inr List.mem_cons_self)) hnone)
  refine ⟨h.counts, h.host, fun p hp => ?_, fun p hp hsome => ?_, fun p hp hnone hreach => ?_,
    fun p hp hnone hreach => ?_⟩
  · have hnot : p ∉ done := fun hd => hp ((hmem p).mpr (.inl hd))
    rw [h.servers, if_neg hnot, if_neg hp]
  · rw [h.servers]
    obtain ⟨b, hb⟩ := Option.ne_none_iff_exists'.mp hsome
    by_cases hd : p ∈ done <;> simp [hd, hp, hb]
  · have hd : p ∈ done := by
      obtain hd | hr := (hmem p).mp hp
      · exact hd
      · exact absurd hreach (hrest p hr)
    rw [h.servers, if_pos hd, hnone]
    rfl
  · have hd : p ∉ done := fun hd => hreach (hdone p hd)
    rw [h.servers, if_neg hd, if_pos hp, hnone]

theorem sync_spec (n : NodePortHealthChecks) :
    wp (NodePortHealthChecks.sync binds desired)
      (fun _ u => Synced binds desired n u) (fun _ u => Synced binds desired n u) n := by
  unfold NodePortHealthChecks.sync
  rw [wp_bind, wp_modify, wp_bind, wp_get, wp_bind]
  refine wp_mono (forM_erase _ _) (fun _ v hv => ?_) (fun _ _ he => he.elim)
  obtain ⟨hcounts, hhost, hservers⟩ := hv
  have hstart : Bound binds desired n v [] := by
    refine ⟨hcounts, hhost, fun p => ?_, by simp⟩
    rw [hservers, if_neg List.not_mem_nil]
    by_cases hp : p ∈ desired
    · have hnot : p ∉ n.servers.keys.filter fun p => !desired.contains p := by
        simp [Std.TreeMap.contains_iff_mem.mpr hp]
      rw [if_neg hnot, if_pos hp]
    · rw [if_neg hp]
      cases hsome : n.servers[p]? with
      | none => simp
      | some b =>
        have hmem : p ∈ n.servers :=
          Std.TreeMap.mem_iff_isSome_getElem?.mpr (by rw [hsome]; rfl)
        rw [if_pos]
        refine List.mem_filter.mpr ⟨Std.TreeMap.mem_keys.mpr hmem, ?_⟩
        rw [Bool.not_eq_true', Bool.eq_false_iff]
        exact fun hc => hp (Std.TreeMap.contains_iff_mem.mp hc)
  refine wp_mono (wp_forM (fun done u => Bound binds desired n u done) desired.keys hstart ?_)
    (fun _ u hu => hu.synced binds desired (List.append_nil _).symm (by simp)) (fun _ _ he => he)
  intro done port rest u hkeys hu
  have hport : port ∈ desired := by
    rw [← Std.TreeMap.mem_keys, hkeys]
    simp
  have hfresh : port ∉ done := by
    intro hmem
    have hsorted : (done ++ port :: rest).Pairwise fun a b => compare a b = .lt :=
      hkeys ▸ Std.TreeMap.ordered_keys
    have hlt := Std.compare_eq_lt.mp
      ((List.pairwise_append.mp hsorted).2.2 port hmem port List.mem_cons_self)
    exact absurd hlt (UInt16.lt_irrefl port)
  have hthere : u.servers[port]? = n.servers[port]? := by
    rw [hu.servers, if_neg hfresh, if_pos hport]
  rw [wp_bind, wp_get]
  cases hserved : n.servers[port]? with
  | some b =>
    have hcontains : u.servers.contains port = true := by
      rw [Std.TreeMap.contains_eq_isSome_getElem?, hthere, hserved]
      rfl
    simp only [hcontains, if_true]
    refine ⟨hu.counts, hu.host, fun p => ?_, fun q hq hnone => ?_⟩
    · rw [hu.servers]
      by_cases hp : p = port
      · subst hp
        simp [hfresh, hport, hserved]
      · simp [hp]
    · obtain hq | hq := List.mem_append.mp hq
      · exact hu.reached q hq hnone
      · rw [List.mem_singleton.mp hq, hserved] at hnone
        cases hnone
  | none =>
    have hcontains : u.servers.contains port = false := by
      rw [Std.TreeMap.contains_eq_isSome_getElem?, hthere, hserved]
      rfl
    simp only [hcontains, Bool.false_eq_true, if_false]
    cases hbind : binds (u.bindHost ++ ":" ++ toString port.toNat) with
    | some e =>
      refine hu.synced binds desired hkeys fun p hp => ?_
      obtain rfl : port = p := Option.some.inj hp
      refine ⟨hserved, ?_⟩
      rw [← hu.host, hbind]
      simp
    | none =>
      refine ⟨hu.counts, hu.host, fun p => ?_, fun q hq hnone => ?_⟩
      · show (u.servers.insert port true)[p]? = _
        rw [get_insert, Function.update_apply, hu.servers]
        by_cases hp : p = port
        · subst hp
          simp [hserved]
        · simp [hp]
      · obtain hq | hq := List.mem_append.mp hq
        · exact hu.reached q hq hnone
        · rw [List.mem_singleton.mp hq, ← hu.host, hbind]

end Sync

/-! ## Runs -/

/-- The snapshot of the last sync. -/
def lastServices (events : List Event) : Snapshot :=
  events.foldl (fun last e =>
    match e with
    | .sync services _ => services
    | .acceptFails _ => last) []

/-- A sync in `n` binds the port. -/
def Opens (n : NodePortHealthChecks) (services : Snapshot) (binds : String → Option String)
    (port : UInt16) : Prop :=
  wants services port ∧ n.servers[port]? = none ∧ Reaches binds (activeLocalCounts services) n port

/-- An event that leaves a running server of the port running. -/
def Keeps (port : UInt16) : Event → Prop
  | .sync services _ => wants services port
  | .acceptFails q => q ≠ port

theorem after_concat (events : List Event) (e : Event) :
    after (events ++ [e]) = step (after events) e := by
  simp [after, List.foldl_append]

theorem step_acceptFails (n : NodePortHealthChecks) (port : UInt16) :
    step n (.acceptFails port) =
      (if n.servers.contains port then { n with servers := n.servers.insert port false } else n) :=
    rfl

theorem step_sync (n : NodePortHealthChecks) (services : Snapshot)
    (binds : String → Option String) :
    Synced binds (activeLocalCounts services) n (step n (.sync services binds)) :=
  wp_state (P := fun u => Synced binds (activeLocalCounts services) n u) (sync_spec binds _ n)

/-- One event, seen from a port. -/
theorem step_running (n : NodePortHealthChecks) (e : Event) (port : UInt16) :
    (step n e).servers[port]? = some true ↔
      (n.servers[port]? = some true ∧ Keeps port e) ∨
        ∃ services binds, e = .sync services binds ∧ Opens n services binds port := by
  cases e with
  | sync services binds =>
    have hs := step_sync n services binds
    have hwants := (activeLocalCounts_spec services port).1
    by_cases hp : port ∈ activeLocalCounts services
    · cases hserved : n.servers[port]? with
      | some b =>
        rw [hs.kept port hp (by simp [hserved]), hserved]
        simp [Keeps, hwants.mp hp, Opens, hserved]
      | none =>
        by_cases hreach : Reaches binds (activeLocalCounts services) n port
        · rw [hs.bound port hp hserved hreach]
          simp [Opens, hwants.mp hp, hserved, hreach]
        · rw [hs.unbound port hp hserved hreach]
          simp [Opens, hserved, hreach]
    · rw [hs.gone port hp]
      have hnot : ¬wants services port := fun h => hp (hwants.mpr h)
      simp [Keeps, Opens, hnot]
  | acceptFails q =>
    rw [step_acceptFails]
    by_cases hq : n.servers.contains q = true
    · rw [if_pos hq]
      show (n.servers.insert q false)[port]? = _ ↔ _
      rw [get_insert, Function.update_apply]
      by_cases heq : port = q
      · simp [heq, Keeps]
      · simp [heq, Keeps, Ne.symm heq]
    · rw [if_neg hq]
      have hne : n.servers[port]? = some true → q ≠ port := by
        rintro hserved rfl
        rw [Std.TreeMap.contains_eq_isSome_getElem?, hserved] at hq
        exact hq rfl
      simpa [Keeps] using hne

theorem running_iff (events : List Event) (port : UInt16) :
    (after events).servers[port]? = some true ↔ ∃ before services binds later,
      events = before ++ .sync services binds :: later ∧
        Opens (after before) services binds port ∧ ∀ e ∈ later, Keeps port e := by
  induction events using List.reverseRecOn with
  | nil => simp [after]
  | append_singleton events e ih =>
    rw [after_concat, step_running, ih]
    constructor
    · rintro (⟨⟨before, services, binds, later, rfl, hopens, hlater⟩, hkeeps⟩ |
        ⟨services, binds, rfl, hopens⟩)
      · refine ⟨before, services, binds, later ++ [e], by simp, hopens, fun f hf => ?_⟩
        obtain hf | hf := List.mem_append.mp hf
        · exact hlater f hf
        · rw [List.mem_singleton.mp hf]
          exact hkeeps
      · exact ⟨events, services, binds, [], rfl, hopens, by simp⟩
    · rintro ⟨before, services, binds, later, heq, hopens, hlater⟩
      obtain rfl | ⟨later, f, rfl⟩ := List.eq_nil_or_concat' later
      · obtain ⟨rfl, he⟩ := List.append_inj' heq rfl
        exact .inr ⟨services, binds, List.singleton_inj.mp he, hopens⟩
      · have hcut : events ++ [e] = (before ++ .sync services binds :: later) ++ [f] := by
          rw [heq]
          simp
        obtain ⟨rfl, he⟩ := List.append_inj' hcut rfl
        obtain rfl := List.singleton_inj.mp he
        exact .inl ⟨⟨before, services, binds, later, rfl, hopens,
          fun g hg => hlater g (List.mem_append_left _ hg)⟩, hlater e (by simp)⟩

/-- The counts are those of the last snapshot. -/
theorem after_counts (events : List Event) (port : UInt16) :
    (after events).counts[port]?.getD 0 = endpointsOf (lastServices events) port := by
  induction events using List.reverseRecOn with
  | nil => simp [after, lastServices, endpointsOf]
  | append_singleton events e ih =>
    rw [after_concat, lastServices, List.foldl_append]
    cases e with
    | sync services binds =>
      rw [(step_sync _ services binds).counts]
      exact (activeLocalCounts_spec services port).2
    | acceptFails q =>
      have hcounts : (step (after events) (.acceptFails q)).counts = (after events).counts := by
        rw [step_acceptFails]
        split <;> rfl
      rw [hcounts]
      exact ih

/-- What a probe should read: whether the path is known, and the ready local endpoints of the
services of the last snapshot that have the port. -/
def expected (services : Snapshot) (port : UInt16) (path : List Char) : Response :=
  if !Http.isHealthz path then Http.notFound
  else if endpointsOf services port > 0 then
    ⟨200, "text/plain", toString (endpointsOf services port) ++ " Service Endpoints found\n"⟩
  else ⟨503, "text/plain", "No Service Endpoints Found\n"⟩

/-- In every run, whatever is bound and whatever fails: a port is answered if and only if a sync
that wanted it got to it and bound it, every later sync has wanted it, and its server has not
ended since. A server that has ended is not replaced while its port is wanted. Every answer is a
well-formed reply that tells the ready local endpoints of the last snapshot. -/
theorem probe_answers (events : List Event) (port : UInt16) (req : List Char) :
    ((answer (after events) port req).isSome ↔ ∃ before services binds later,
      events = before ++ .sync services binds :: later ∧
        Opens (after before) services binds port ∧ ∀ e ∈ later, Keeps port e) ∧
    ∀ text ∈ answer (after events) port req, Http.readReply text.toList =
      some (expected (lastServices events) port ((Http.parsePath req).getD ['/'])) := by
  constructor
  · rw [← running_iff]
    unfold answer
    split
    · next h => simp [h]
    · next h =>
      simp only [Option.isSome_none, Bool.false_eq_true, false_iff]
      exact h
  · intro text htext
    have hresp : nphcResponse ((Http.parsePath req).getD ['/']) port (after events).counts =
        expected (lastServices events) port ((Http.parsePath req).getD ['/']) := by
      unfold nphcResponse expected
      rw [after_counts]
    unfold answer at htext
    split at htext
    · obtain rfl := Option.some.inj htext
      show Http.readReply (Http.replyText (nphcResponse _ port (after events).counts)).toList = _
      rw [hresp, Http.readReply_replyText]
      have hplain : '\r' ∉ "text/plain".toList := by decide
      unfold expected
      split
      · exact hplain
      · split <;> exact hplain
    · cases htext

end KubeRouter.Proxy.HealthCheck
