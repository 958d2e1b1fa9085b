/-
  The SNAT rules of the service proxy in the nat table (`proxy/src/hairpin.rs`,
  `proxy/src/masquerade.rs`, `sync_hairpin` and `sync_masquerade` of `proxy/src/sync.rs`).

  A handler runs `iptables -w -t nat` once per command. The command may exit with a failure or
  not be heard of again, done or not; `-C` finds out what is there. A pass sets up the hairpin
  chain of every family, and then the masquerade rules behind the jump to it.

  Somebody else's rules are arguments whose meaning is a parameter.

  Proved:
  * `mem_hairpinRulesForFamily`: which services, endpoints and addresses get a rule.
  * `exec_frame`: no command of a pass touches a rule that is not one of its own.
  * `syncHairpin_clean`, `syncMasquerade_clean`: a pass in which no command fails.
-/
import KubeRouter.Common.Line
import KubeRouter.Lib.Collect
import KubeRouter.Lib.Program
import KubeRouter.Proxy.Firewall

namespace KubeRouter.Proxy.Nat

open Firewall (Args Chains)
open Program

/-! ## Rules -/

def hairpinChain : String := "KUBE-ROUTER-HAIRPIN"

def cidrSelf : IpAddr → String
  | .V4 a => (IpAddr.V4 a).toText ++ "/32"
  | .V6 a => (IpAddr.V6 a).toText ++ "/128"

def hairpinSnatArgs (epIp vip : IpAddr) (port : UInt16) : Args :=
  ["-s", cidrSelf epIp, "-d", cidrSelf epIp, "-m", "ipvs", "--vaddr", vip.toText,
    "--vport", toString port.toNat, "-j", "SNAT", "--to-source", vip.toText]

def hairpinJumpArgs : Args := ["-m", "ipvs", "--vdir", "ORIGINAL", "-j", hairpinChain]

def masqueradeArgs (primaryIp : IpAddr) (cidr : Option String) (randomFully : Bool) : Args :=
  ["-m", "ipvs", "--ipvs", "--vdir", "ORIGINAL", "--vmethod", "MASQ"] ++
    (match cidr with
    | some cidr => ["!", "-s", cidr, "!", "-d", cidr]
    | none => []) ++
    ["-j", "SNAT", "--to-source", primaryIp.toText] ++
    if randomFully then ["--random-fully"] else []

/-- A service with its hairpin annotations. -/
structure HairpinService extends ServiceInfo where
  hairpin : Bool
  hairpinExternalIps : Bool
deriving DecidableEq, Repr

abbrev Snapshot := List (HairpinService × List EndpointInfo)

/-- The addresses of a family that get a rule: external ones only if the service asks for it. -/
def vipsOf (svc : HairpinService) (ipv6 : Bool) : List IpAddr :=
  let external := if svc.hairpinExternalIps then svc.externalIps else []
  (svc.clusterIps ++ external).filter (·.isIpv6 == ipv6)

def hairpinRulesForFamily (services : Snapshot) (global ipv6 : Bool) : List Args :=
  services.foldl (fun rules (svc, eps) =>
    if !(global || svc.hairpin) then rules
    else
      let vips := vipsOf svc ipv6
      if vips.isEmpty then rules
      else
        eps.foldl (fun rules ep =>
          if !ep.isLocal || !ep.ready || ep.ip.isIpv6 != ipv6 then rules
          else
            vips.foldl (fun rules vip =>
              Collect.pushNew rules (hairpinSnatArgs ep.ip vip svc.port)) rules) rules) []

/-! ### Which services have one -/

/-- The service at `vip` and `port` is reached from its own endpoint `ep`. -/
def Hairpins (services : Snapshot) (global ipv6 : Bool) (ep vip : IpAddr) (port : UInt16) : Prop :=
  ∃ s ∈ services, (global || s.1.hairpin) = true ∧ port = s.1.port ∧ vip ∈ vipsOf s.1 ipv6 ∧
    ∃ e ∈ s.2, e.ip = ep ∧ e.isLocal = true ∧ e.ready = true ∧ e.ip.isIpv6 = ipv6

/-- The endpoints of a family that can meet themselves. -/
def selfReaching (eps : List EndpointInfo) (ipv6 : Bool) : List EndpointInfo :=
  eps.filter fun ep => ep.isLocal && ep.ready && ep.ip.isIpv6 == ipv6

/-- The rules of a service, with repetitions. -/
def rulesOfService (global ipv6 : Bool) (s : HairpinService × List EndpointInfo) : List Args :=
  if global || s.1.hairpin then
    (selfReaching s.2 ipv6).flatMap fun ep =>
      (vipsOf s.1 ipv6).map fun vip => hairpinSnatArgs ep.ip vip s.1.port
  else []

theorem hairpinRulesForFamily_eq (services : Snapshot) (global ipv6 : Bool) :
    hairpinRulesForFamily services global ipv6 =
      Collect.pushAll [] (services.flatMap (rulesOfService global ipv6)) := by
  rw [← Collect.foldl_pushAll]
  unfold hairpinRulesForFamily
  congr 1
  funext rules s
  unfold rulesOfService
  by_cases hon : (global || s.1.hairpin) = true
  · simp only [hon, Bool.not_true, Bool.false_eq_true, if_false, if_true]
    by_cases hvips : (vipsOf s.1 ipv6).isEmpty = true
    · have hnone : (selfReaching s.2 ipv6).flatMap (fun ep =>
          (vipsOf s.1 ipv6).map fun vip => hairpinSnatArgs ep.ip vip s.1.port) = [] := by
        rw [List.isEmpty_iff.mp hvips]
        exact List.flatMap_eq_nil_iff.mpr fun _ _ => rfl
      rw [if_pos hvips, hnone]
      rfl
    · rw [if_neg hvips, ← Collect.foldl_pushAll, selfReaching, List.foldl_filter]
      congr 1
      funext rules ep
      unfold Collect.pushAll
      rw [List.foldl_map]
      by_cases hlocal : ep.isLocal = true <;> by_cases hready : ep.ready = true <;>
        by_cases hfamily : ep.ip.isIpv6 = ipv6 <;> simp [hlocal, hready, hfamily]
  · simp only [Bool.not_eq_true] at hon
    simp [hon, Collect.pushAll]

theorem mem_hairpinRulesForFamily {services : Snapshot} {global ipv6 : Bool} {args : Args} :
    args ∈ hairpinRulesForFamily services global ipv6 ↔
      ∃ ep vip port, Hairpins services global ipv6 ep vip port ∧
        args = hairpinSnatArgs ep vip port := by
  rw [hairpinRulesForFamily_eq, Collect.mem_pushAll, List.mem_flatMap]
  constructor
  · rintro (h | ⟨s, hs, hargs⟩)
    · cases h
    · unfold rulesOfService at hargs
      by_cases hon : (global || s.1.hairpin) = true
      · rw [if_pos hon] at hargs
        obtain ⟨e, he, hargs⟩ := List.mem_flatMap.mp hargs
        obtain ⟨vip, hvip, rfl⟩ := List.mem_map.mp hargs
        obtain ⟨he, hself⟩ := List.mem_filter.mp he
        simp only [Bool.and_eq_true, beq_iff_eq] at hself
        obtain ⟨⟨hlocal, hready⟩, hfamily⟩ := hself
        exact ⟨e.ip, vip, s.1.port,
          ⟨s, hs, hon, rfl, hvip, e, he, rfl, hlocal, hready, hfamily⟩, rfl⟩
      · rw [if_neg hon] at hargs
        cases hargs
  · rintro ⟨ep, vip, port, ⟨s, hs, hon, rfl, hvip, e, he, rfl, hlocal, hready, hfamily⟩, rfl⟩
    refine .inr ⟨s, hs, ?_⟩
    unfold rulesOfService
    rw [if_pos hon]
    refine List.mem_flatMap.mpr ⟨e, List.mem_filter.mpr ⟨he, ?_⟩, List.mem_map.mpr ⟨vip, hvip, rfl⟩⟩
    simp [hlocal, hready, hfamily]

theorem hairpinRulesForFamily_nodup (services : Snapshot) (global ipv6 : Bool) :
    (hairpinRulesForFamily services global ipv6).Nodup := by
  rw [hairpinRulesForFamily_eq]
  exact Collect.pushAll_nodup List.nodup_nil _

/-! ## The nat table -/

/-- Targets that are no chains. -/
def extensions : List String :=
  ["ACCEPT", "DROP", "RETURN", "SNAT", "DNAT", "MASQUERADE", "REDIRECT", "NETMAP", "LOG", "MARK"]

/-- The target of a rule is an extension or a chain that exists. -/
def hasTarget (t : Chains) (args : Args) : Bool :=
  match args.dropWhile (· != "-j") with
  | _ :: target :: _ => extensions.contains target || (t target).isSome
  | _ => true

/-- Rules are equal if their words are. -/
local instance lawful_words : LawfulBEq (List String) := inferInstance

/-- One `iptables -w -t nat` command; none for one that fails. -/
def exec (t : Chains) : Args → Option Chains
  | ["-N", chain] => if (t chain).isSome then none else some (Function.update t chain (some []))
  | ["-F", chain] => (t chain).map fun _ => Function.update t chain (some [])
  | "-C" :: chain :: args =>
    match t chain with
    | some rules => if args ∈ rules then some t else none
    | none => none
  | "-A" :: chain :: args =>
    match t chain with
    | some rules =>
      if hasTarget t args then some (Function.update t chain (some (rules ++ [args]))) else none
    | none => none
  | "-D" :: chain :: args =>
    match t chain with
    | some rules =>
      if args ∈ rules then some (Function.update t chain (some (rules.erase args))) else none
    | none => none
  | _ => none

/-! ## Passes -/

structure NatError where
  message : String
deriving DecidableEq, Repr

/-- How a command ends: as it should, with a failure, or without an answer; `done` tells whether
it has worked all the same. -/
inductive Exit where
  | normal
  | failure (done : Bool)
  | lost (done : Bool) (e : String)
deriving DecidableEq, Repr

/-- The nat tables by family (true for IPv6) and the number of commands so far. -/
structure World where
  tables : Bool → Chains
  calls : Nat := 0

def World.setTable (w : World) (ipv6 : Bool) (t : Chains) : World :=
  { w with tables := Function.update w.tables ipv6 t }

/-- The table behind a command that did what it can. -/
def World.after (w : World) (ipv6 : Bool) (args : Args) (done : Bool) : World :=
  match exec (w.tables ipv6) args with
  | some t => if done then w.setTable ipv6 t else w
  | none => w

def base (ipv6 : Bool) : String := if ipv6 then "ip6tables" else "iptables"

variable (exits : Nat → Exit)

/-- `{:?}` of a list of arguments. -/
def debugArgs (args : Args) : String := "[" ++ ", ".intercalate (args.map String.quote) ++ "]"

/-- `SystemNat::run`: whether the command exited with success. -/
def run (ipv6 : Bool) (args : Args) : Prog World NatError Bool := do
  let w ← get
  modify fun w => { w with calls := w.calls + 1 }
  match exits w.calls with
  | .normal => do
    modify fun w => w.after ipv6 args true
    return (exec (w.tables ipv6) args).isSome
  | .failure done => do
    modify fun w => w.after ipv6 args done
    return false
  | .lost done e => do
    modify fun w => w.after ipv6 args done
    throw ⟨"spawn " ++ base ipv6 ++ " " ++ debugArgs (["-w", "-t", "nat"] ++ args) ++ ": " ++ e⟩

def ensureChain (ipv6 : Bool) (chain : String) : Prog World NatError PUnit := do
  let _ ← run exits ipv6 ["-N", chain]

def appendUnique (ipv6 : Bool) (chain : String) (args : Args) : Prog World NatError PUnit := do
  if ← run exits ipv6 ("-C" :: chain :: args) then return
  if !(← run exits ipv6 ("-A" :: chain :: args)) then
    throw ⟨"failed to append nat " ++ chain ++ " rule"⟩

def flushChain (ipv6 : Bool) (chain : String) : Prog World NatError PUnit := do
  let _ ← run exits ipv6 ["-F", chain]

/-- A rule that is not there is no failure. -/
def delete (ipv6 : Bool) (chain : String) (args : Args) : Prog World NatError PUnit := do
  let _ ← run exits ipv6 ("-D" :: chain :: args)

def syncHairpin (ipv6 : Bool) (rules : List Args) : Prog World NatError PUnit := do
  ensureChain exits ipv6 hairpinChain
  appendUnique exits ipv6 "POSTROUTING" hairpinJumpArgs
  flushChain exits ipv6 hairpinChain
  rules.forM (appendUnique exits ipv6 hairpinChain)

def syncMasquerade (ipv6 : Bool) (primaryIp : IpAddr) (podCidrs : List String)
    (masqueradeAll randomFully : Bool) : Prog World NatError PUnit := do
  let allRule := masqueradeArgs primaryIp none randomFully
  (if masqueradeAll then appendUnique exits ipv6 "POSTROUTING" allRule
    else delete exits ipv6 "POSTROUTING" allRule)
  podCidrs.forM fun cidr =>
    appendUnique exits ipv6 "POSTROUTING" (masqueradeArgs primaryIp (some cidr) randomFully)

structure MasqueradeCfg where
  all : Bool
  randomFully : Bool
  /-- The primary address of the node, by family. -/
  primary : List (Bool × IpAddr)
  podCidrs : List String
deriving DecidableEq, Repr

namespace MasqueradeCfg

def primaryOf (cfg : MasqueradeCfg) (ipv6 : Bool) : Option IpAddr :=
  (cfg.primary.find? fun (f, _) => f == ipv6).map (·.2)

def cidrsOf (cfg : MasqueradeCfg) (ipv6 : Bool) : List String :=
  cfg.podCidrs.filter fun c => c.toList.contains ':' == ipv6

end MasqueradeCfg

/-- The settings of `ServiceSync` that the nat table depends on; `families` are those of
`hairpin_nat`. -/
structure NatCfg where
  families : List Bool
  hairpinGlobal : Bool
  masquerade : Option MasqueradeCfg
deriving DecidableEq, Repr

/-- `ServiceSync::sync_hairpin`. -/
def syncHairpins (cfg : NatCfg) (services : Snapshot) : Prog World NatError PUnit :=
  cfg.families.forM fun ipv6 =>
    syncHairpin exits ipv6 (hairpinRulesForFamily services cfg.hairpinGlobal ipv6)

/-- `ServiceSync::sync_masquerade`. -/
def syncMasquerades (cfg : NatCfg) : Prog World NatError PUnit :=
  match cfg.masquerade with
  | none => return
  | some m =>
    cfg.families.forM fun ipv6 =>
      match m.primaryOf ipv6 with
      | none => return
      | some primary => syncMasquerade exits ipv6 primary (m.cidrsOf ipv6) m.all m.randomFully

/-- The part of a pass that writes the nat table. -/
def syncNat (cfg : NatCfg) (services : Snapshot) : Prog World NatError PUnit := do
  syncHairpins exits cfg services
  syncMasquerades exits cfg

/-- What `main` makes the settings from: flags and the node. -/
structure Settings where
  enableIpv4 : Bool
  enableIpv6 : Bool
  hairpinMode : Bool
  masqueradeAll : Bool
  primaryIp : Option IpAddr
  podCidrs : List IpNet
deriving DecidableEq, Repr

def Settings.cfg (o : Settings) : NatCfg where
  families := (if o.enableIpv4 then [false] else []) ++ if o.enableIpv6 then [true] else []
  hairpinGlobal := o.hairpinMode
  masquerade := some {
    all := o.masqueradeAll
    randomFully := true
    primary := (o.primaryIp.map fun ip => (ip.isIpv6, ip)).toList
    podCidrs := o.podCidrs.map (·.toText) }

/-! ## What one command does -/

section Exec

variable {t t' : Chains} {chain : String} {args : Args}

theorem exec_new (h : exec t ["-N", chain] = some t') :
    t chain = none ∧ t' = Function.update t chain (some []) := by
  simp only [exec] at h
  split at h
  · cases h
  · next hnone => exact ⟨by simpa using hnone, (Option.some.inj h).symm⟩

theorem exec_flush (h : exec t ["-F", chain] = some t') :
    (t chain).isSome ∧ t' = Function.update t chain (some []) := by
  simp only [exec] at h
  obtain ⟨rules, hrules, rfl⟩ := Option.map_eq_some_iff.mp h
  exact ⟨by rw [hrules]; rfl, rfl⟩

theorem exec_check (h : exec t ("-C" :: chain :: args) = some t') :
    t' = t ∧ ∃ rules, t chain = some rules ∧ args ∈ rules := by
  simp only [exec] at h
  cases hchain : t chain with
  | none => simp [hchain] at h
  | some rules =>
    by_cases hmem : args ∈ rules
    · simp only [hchain, hmem, if_true] at h
      exact ⟨(Option.some.inj h).symm, rules, rfl, hmem⟩
    · simp [hchain, hmem] at h

theorem exec_append (h : exec t ("-A" :: chain :: args) = some t') :
    ∃ rules, t chain = some rules ∧ t' = Function.update t chain (some (rules ++ [args])) := by
  simp only [exec] at h
  cases hchain : t chain with
  | none => simp [hchain] at h
  | some rules =>
    by_cases htarget : hasTarget t args = true
    · simp only [hchain, htarget, if_true] at h
      exact ⟨rules, rfl, (Option.some.inj h).symm⟩
    · simp [hchain, htarget] at h

theorem exec_delete (h : exec t ("-D" :: chain :: args) = some t') :
    ∃ rules, t chain = some rules ∧ args ∈ rules ∧
      t' = Function.update t chain (some (rules.erase args)) := by
  simp only [exec] at h
  cases hchain : t chain with
  | none => simp [hchain] at h
  | some rules =>
    by_cases hmem : args ∈ rules
    · simp only [hchain, hmem, if_true] at h
      exact ⟨rules, rfl, hmem, (Option.some.inj h).symm⟩
    · simp [hchain, hmem] at h

/-- A command changes the chain that it names. -/
theorem exec_elsewhere {cmd other : String} (h : exec t (cmd :: chain :: args) = some t')
    (hne : other ≠ chain) : t' other = t other := by
  unfold exec at h
  split at h
  · next heq =>
    obtain ⟨_, rfl, _⟩ := by simpa using heq
    obtain ⟨_, rfl⟩ := exec_new h
    exact Function.update_of_ne hne _ _
  · next heq =>
    obtain ⟨_, rfl, _⟩ := by simpa using heq
    obtain ⟨_, rfl⟩ := exec_flush h
    exact Function.update_of_ne hne _ _
  · next heq =>
    obtain ⟨_, rfl, rfl⟩ := by simpa using heq
    rw [(exec_check h).1]
  · next heq =>
    obtain ⟨_, rfl, rfl⟩ := by simpa using heq
    obtain ⟨_, _, rfl⟩ := exec_append h
    exact Function.update_of_ne hne _ _
  · next heq =>
    obtain ⟨_, rfl, rfl⟩ := by simpa using heq
    obtain ⟨_, _, _, rfl⟩ := exec_delete h
    exact Function.update_of_ne hne _ _
  · cases h

end Exec

/-! ## The commands of a pass -/

/-- The masquerade settings of a family with its primary address. -/
def masqueradeOf (cfg : NatCfg) (ipv6 : Bool) : Option (MasqueradeCfg × IpAddr) :=
  cfg.masquerade.bind fun m => (m.primaryOf ipv6).map fun primary => (m, primary)

/-- The rule for all traffic, wanted or not. -/
def allRule (p : MasqueradeCfg × IpAddr) : Args := masqueradeArgs p.2 none p.1.randomFully

def cidrRules (p : MasqueradeCfg × IpAddr) (ipv6 : Bool) : List Args :=
  (p.1.cidrsOf ipv6).map fun cidr => masqueradeArgs p.2 (some cidr) p.1.randomFully

/-- The masquerade rules that a pass adds. -/
def wantedRules (cfg : NatCfg) (ipv6 : Bool) : List Args :=
  match masqueradeOf cfg ipv6 with
  | none => []
  | some p => (if p.1.all then [allRule p] else []) ++ cidrRules p ipv6

/-- Those that it takes away. -/
def unwantedRules (cfg : NatCfg) (ipv6 : Bool) : List Args :=
  match masqueradeOf cfg ipv6 with
  | none => []
  | some p => if p.1.all then [] else [allRule p]

/-- The rules in POSTROUTING that are the business of a pass. -/
def ownRules (cfg : NatCfg) (ipv6 : Bool) : List Args :=
  hairpinJumpArgs :: (wantedRules cfg ipv6 ++ unwantedRules cfg ipv6)

inductive HairpinCmd (rules : List Args) : Args → Prop where
  | new : HairpinCmd rules ["-N", hairpinChain]
  | check (chain : String) (args : Args) : HairpinCmd rules ("-C" :: chain :: args)
  | jump : HairpinCmd rules ("-A" :: "POSTROUTING" :: hairpinJumpArgs)
  | flush : HairpinCmd rules ["-F", hairpinChain]
  | rule (args : Args) (h : args ∈ rules) : HairpinCmd rules ("-A" :: hairpinChain :: args)

inductive MasqueradeCmd (cfg : NatCfg) (ipv6 : Bool) : Args → Prop where
  | check (chain : String) (args : Args) : MasqueradeCmd cfg ipv6 ("-C" :: chain :: args)
  | add (args : Args) (h : args ∈ wantedRules cfg ipv6) :
      MasqueradeCmd cfg ipv6 ("-A" :: "POSTROUTING" :: args)
  | remove (args : Args) (h : args ∈ unwantedRules cfg ipv6) :
      MasqueradeCmd cfg ipv6 ("-D" :: "POSTROUTING" :: args)

section Within

/- `R` relates the tables of a family before and after. -/
variable {R : Bool → Chains → Chains → Prop}

def Each (R : Bool → Chains → Chains → Prop) (w u : World) : Prop :=
  ∀ ipv6, R ipv6 (w.tables ipv6) (u.tables ipv6)

variable (hrefl : ∀ ipv6 t, R ipv6 t t)
  (htrans : ∀ ipv6 t t' t'', R ipv6 t t' → R ipv6 t' t'' → R ipv6 t t'')

include hrefl

theorem each_refl (w : World) : Each R w w := fun ipv6 => hrefl ipv6 _

theorem each_after {ipv6 : Bool} {args : Args}
    (h : ∀ t t', exec t args = some t' → R ipv6 t t') (w : World) (done : Bool) :
    Each R w (w.after ipv6 args done) := by
  intro other
  unfold World.after
  cases hexec : exec (w.tables ipv6) args with
  | none => exact hrefl other _
  | some t =>
    cases done with
    | false => exact hrefl other _
    | true =>
      show R other (w.tables other) (Function.update w.tables ipv6 t other)
      by_cases heq : other = ipv6
      · subst heq
        rw [Function.update_self]
        exact h _ t hexec
      · rw [Function.update_of_ne heq]
        exact hrefl other _

theorem within_run {ipv6 : Bool} {args : Args} (h : ∀ t t', exec t args = some t' → R ipv6 t t') :
    Within (Each R) (run exits ipv6 args) := by
  intro w
  unfold run
  rw [wp_bind, wp_get, wp_bind, wp_modify]
  cases exits w.calls with
  | normal => exact each_after hrefl h { w with calls := w.calls + 1 } true
  | failure done => exact each_after hrefl h { w with calls := w.calls + 1 } done
  | lost done e => exact each_after hrefl h { w with calls := w.calls + 1 } done

include htrans

omit hrefl in
theorem each_trans (w u v : World) (h : Each R w u) (h' : Each R u v) : Each R w v :=
  fun ipv6 => htrans ipv6 _ _ _ (h ipv6) (h' ipv6)

theorem within_append {ipv6 : Bool} {chain : String} {args : Args}
    (hcheck : ∀ t t', exec t ("-C" :: chain :: args) = some t' → R ipv6 t t')
    (h : ∀ t t', exec t ("-A" :: chain :: args) = some t' → R ipv6 t t') :
    Within (Each R) (appendUnique exits ipv6 chain args) := by
  unfold appendUnique
  refine .bind (each_trans htrans) (within_run exits hrefl hcheck) fun there => ?_
  cases there with
  | true => exact .done (each_refl hrefl) _
  | false =>
    refine .bind (each_trans htrans) (within_run exits hrefl h) fun added => ?_
    cases added with
    | true => exact .done (each_refl hrefl) _
    | false => exact each_refl hrefl

theorem within_hairpin {ipv6 : Bool} {rules : List Args}
    (h : ∀ args, HairpinCmd rules args → ∀ t t', exec t args = some t' → R ipv6 t t') :
    Within (Each R) (syncHairpin exits ipv6 rules) := by
  have hquiet : ∀ args, HairpinCmd rules args → Within (Each R) (do
      let _ ← run exits ipv6 args) := fun args hargs =>
    .bind (each_trans htrans) (within_run exits hrefl (h args hargs)) fun _ =>
      .done (each_refl hrefl) _
  unfold syncHairpin
  refine .bind (each_trans htrans) (hquiet _ .new) fun _ => ?_
  refine .bind (each_trans htrans)
    (within_append exits hrefl htrans (h _ (.check _ _)) (h _ .jump)) fun _ => ?_
  refine .bind (each_trans htrans) (hquiet _ .flush) fun _ => ?_
  exact .forM (each_refl hrefl) (each_trans htrans) _ fun args hargs =>
    within_append exits hrefl htrans (h _ (.check _ _)) (h _ (.rule args hargs))

theorem within_hairpins {cfg : NatCfg} {services : Snapshot}
    (h : ∀ ipv6 ∈ cfg.families, ∀ args,
      HairpinCmd (hairpinRulesForFamily services cfg.hairpinGlobal ipv6) args →
      ∀ t t', exec t args = some t' → R ipv6 t t') :
    Within (Each R) (syncHairpins exits cfg services) :=
  .forM (each_refl hrefl) (each_trans htrans) _ fun ipv6 hipv6 =>
    within_hairpin exits hrefl htrans (h ipv6 hipv6)

theorem within_masquerades {cfg : NatCfg}
    (h : ∀ ipv6 ∈ cfg.families, ∀ args, MasqueradeCmd cfg ipv6 args →
      ∀ t t', exec t args = some t' → R ipv6 t t') :
    Within (Each R) (syncMasquerades exits cfg) := by
  unfold syncMasquerades
  cases hm : cfg.masquerade with
  | none => exact .done (each_refl hrefl) _
  | some m =>
    refine .forM (each_refl hrefl) (each_trans htrans) _ fun ipv6 hipv6 => ?_
    cases hprimary : m.primaryOf ipv6 with
    | none => exact .done (each_refl hrefl) _
    | some primary =>
      have hof : masqueradeOf cfg ipv6 = some (m, primary) := by
        simp only [masqueradeOf, hm, hprimary, Option.bind_some, Option.map_some]
      show Within (Each R) (syncMasquerade exits ipv6 primary (m.cidrsOf ipv6) m.all m.randomFully)
      unfold syncMasquerade
      refine .bind (each_trans htrans) ?_ fun _ => ?_
      · cases hall : m.all with
        | true =>
          have hadd : allRule (m, primary) ∈ wantedRules cfg ipv6 := by
            simp [wantedRules, hof, hall]
          exact within_append exits hrefl htrans (h ipv6 hipv6 _ (.check _ _))
            (h ipv6 hipv6 _ (.add _ hadd))
        | false =>
          have hremove : allRule (m, primary) ∈ unwantedRules cfg ipv6 := by
            simp [unwantedRules, hof, hall]
          exact .bind (each_trans htrans)
            (within_run exits hrefl (h ipv6 hipv6 _ (.remove _ hremove))) fun _ =>
              .done (each_refl hrefl) _
      · refine .forM (each_refl hrefl) (each_trans htrans) _ fun cidr hcidr => ?_
        have hadd : masqueradeArgs primary (some cidr) m.randomFully ∈ wantedRules cfg ipv6 := by
          simp only [wantedRules, hof]
          exact List.mem_append_right _ (List.mem_map.mpr ⟨cidr, hcidr, rfl⟩)
        exact within_append exits hrefl htrans (h ipv6 hipv6 _ (.check _ _))
          (h ipv6 hipv6 _ (.add _ hadd))

end Within

/-! ## What a pass keeps -/

def postrouting (t : Chains) : List Args := (t "POSTROUTING").getD []

theorem postrouting_ne : "POSTROUTING" ≠ hairpinChain := by decide

section Cmds

variable {cfg : NatCfg} {ipv6 : Bool} {rules : List Args} {args : Args} {t t' : Chains}

/-- In POSTROUTING a hairpin command puts the jump behind the rules, or nothing. -/
theorem HairpinCmd.postrouting_eq (h : HairpinCmd rules args) (hexec : exec t args = some t') :
    t' "POSTROUTING" = t "POSTROUTING" ∨ ∃ old, t "POSTROUTING" = some old ∧
      t' "POSTROUTING" = some (old ++ [hairpinJumpArgs]) := by
  cases h with
  | new => exact .inl (exec_elsewhere hexec postrouting_ne)
  | check chain args => exact .inl (by rw [(exec_check hexec).1])
  | jump =>
    obtain ⟨old, hold, rfl⟩ := exec_append hexec
    exact .inr ⟨old, hold, Function.update_self ..⟩
  | flush => exact .inl (exec_elsewhere hexec postrouting_ne)
  | rule args _ => exact .inl (exec_elsewhere hexec postrouting_ne)

/-- A masquerade command adds a wanted rule there, or takes an unwanted one away. -/
theorem MasqueradeCmd.postrouting_eq (h : MasqueradeCmd cfg ipv6 args)
    (hexec : exec t args = some t') :
    t' "POSTROUTING" = t "POSTROUTING" ∨ ∃ old, t "POSTROUTING" = some old ∧
      ((∃ a ∈ wantedRules cfg ipv6, t' "POSTROUTING" = some (old ++ [a])) ∨
        ∃ a ∈ unwantedRules cfg ipv6, t' "POSTROUTING" = some (old.erase a)) := by
  cases h with
  | check chain args => exact .inl (by rw [(exec_check hexec).1])
  | add a ha =>
    obtain ⟨old, hold, rfl⟩ := exec_append hexec
    exact .inr ⟨old, hold, .inl ⟨a, ha, Function.update_self ..⟩⟩
  | remove a ha =>
    obtain ⟨old, hold, _, rfl⟩ := exec_delete hexec
    exact .inr ⟨old, hold, .inr ⟨a, ha, Function.update_self ..⟩⟩

theorem HairpinCmd.other (h : HairpinCmd rules args) (hexec : exec t args = some t')
    {chain : String} (hpost : chain ≠ "POSTROUTING") (hhairpin : chain ≠ hairpinChain) :
    t' chain = t chain := by
  cases h with
  | check other args => rw [(exec_check hexec).1]
  | jump => exact exec_elsewhere hexec hpost
  | new | flush | rule => exact exec_elsewhere hexec hhairpin

theorem MasqueradeCmd.other (h : MasqueradeCmd cfg ipv6 args) (hexec : exec t args = some t')
    {chain : String} (hpost : chain ≠ "POSTROUTING") : t' chain = t chain := by
  cases h with
  | check other args => rw [(exec_check hexec).1]
  | add | remove => exact exec_elsewhere hexec hpost

/-- A rule of the hairpin chain was there or is one of `rules`. -/
theorem HairpinCmd.origin (h : HairpinCmd rules args) (hexec : exec t args = some t') :
    ∀ a ∈ (t' hairpinChain).getD [], a ∈ (t hairpinChain).getD [] ∨ a ∈ rules := by
  intro a ha
  cases h with
  | check chain args =>
    rw [(exec_check hexec).1] at ha
    exact .inl ha
  | jump =>
    rw [exec_elsewhere hexec postrouting_ne.symm] at ha
    exact .inl ha
  | new =>
    obtain ⟨_, rfl⟩ := exec_new hexec
    simp at ha
  | flush =>
    obtain ⟨_, rfl⟩ := exec_flush hexec
    simp at ha
  | rule args hargs =>
    obtain ⟨old, hold, rfl⟩ := exec_append hexec
    rw [Function.update_self, Option.getD_some, List.mem_append, List.mem_singleton] at ha
    rw [hold]
    obtain ha | rfl := ha
    · exact .inl ha
    · exact .inr hargs

end Cmds

/-- Everything of somebody else is as before: the other chains, and the other rules of
POSTROUTING in their order. -/
structure Frame (cfg : NatCfg) (ipv6 : Bool) (t u : Chains) : Prop where
  other : ∀ chain, chain ≠ "POSTROUTING" → chain ≠ hairpinChain → u chain = t chain
  foreign : (u "POSTROUTING").map (List.filter (· ∉ ownRules cfg ipv6)) =
    (t "POSTROUTING").map (List.filter (· ∉ ownRules cfg ipv6))

section Frame

variable {cfg : NatCfg} {ipv6 : Bool}

theorem Frame.refl (t : Chains) : Frame cfg ipv6 t t := ⟨fun _ _ _ => rfl, rfl⟩

theorem Frame.trans (t t' t'' : Chains) (h : Frame cfg ipv6 t t') (h' : Frame cfg ipv6 t' t'') :
    Frame cfg ipv6 t t'' :=
  ⟨fun chain hpost hhairpin => (h'.other chain hpost hhairpin).trans (h.other chain hpost hhairpin),
    h'.foreign.trans h.foreign⟩

theorem mem_ownRules_jump : hairpinJumpArgs ∈ ownRules cfg ipv6 := List.mem_cons_self

theorem mem_ownRules_wanted {a : Args} (h : a ∈ wantedRules cfg ipv6) : a ∈ ownRules cfg ipv6 :=
  List.mem_cons_of_mem _ (List.mem_append_left _ h)

theorem mem_ownRules_unwanted {a : Args} (h : a ∈ unwantedRules cfg ipv6) :
    a ∈ ownRules cfg ipv6 :=
  List.mem_cons_of_mem _ (List.mem_append_right _ h)

theorem foreign_concat {a : Args} (h : a ∈ ownRules cfg ipv6) (old : List Args) :
    (old ++ [a]).filter (· ∉ ownRules cfg ipv6) = old.filter (· ∉ ownRules cfg ipv6) := by
  simp [List.filter_append, h]

theorem foreign_erase {a : Args} (h : a ∈ ownRules cfg ipv6) (old : List Args) :
    (old.erase a).filter (· ∉ ownRules cfg ipv6) = old.filter (· ∉ ownRules cfg ipv6) := by
  rw [← List.erase_filter, List.erase_of_not_mem]
  simp [h]

/-- A pass leaves everything of somebody else alone, whatever happens to its commands. -/
theorem syncNat_frame (cfg : NatCfg) (services : Snapshot) :
    Within (Each (Frame cfg)) (syncNat exits cfg services) := by
  refine .bind (each_trans fun _ => Frame.trans) ?_ fun _ => ?_
  · refine within_hairpins exits (fun _ => Frame.refl) (fun _ => Frame.trans)
      fun ipv6 _ args hargs t t' hexec => ⟨fun chain => hargs.other hexec, ?_⟩
    obtain heq | ⟨old, hold, hnew⟩ := hargs.postrouting_eq hexec
    · rw [heq]
    · rw [hold, hnew, Option.map_some, Option.map_some, foreign_concat mem_ownRules_jump]
  · refine within_masquerades exits (fun _ => Frame.refl) (fun _ => Frame.trans)
      fun ipv6 _ args hargs t t' hexec => ⟨fun chain hpost _ => hargs.other hexec hpost, ?_⟩
    obtain heq | ⟨old, hold, ⟨a, ha, hnew⟩ | ⟨a, ha, hnew⟩⟩ := hargs.postrouting_eq hexec
    · rw [heq]
    · rw [hold, hnew, Option.map_some, Option.map_some, foreign_concat (mem_ownRules_wanted ha)]
    · rw [hold, hnew, Option.map_some, Option.map_some, foreign_erase (mem_ownRules_unwanted ha)]

end Frame

/-! ### The order of POSTROUTING -/

/-- The rules of a pass in POSTROUTING, in order. -/
def own (cfg : NatCfg) (ipv6 : Bool) (t : Chains) : List Args :=
  (postrouting t).filter (· ∈ ownRules cfg ipv6)

/-- The jump to the hairpin chain stands in front of the masquerade rules, and a rule that a pass
takes away stands there once at most. -/
structure Orderly (cfg : NatCfg) (ipv6 : Bool) (t : Chains) : Prop where
  present : (t "POSTROUTING").isSome
  first : own cfg ipv6 t = [] ∨ ∃ rest, own cfg ipv6 t = hairpinJumpArgs :: rest
  once : ∀ a ∈ unwantedRules cfg ipv6, (postrouting t).count a ≤ 1

def Jumps (t : Chains) : Prop := hairpinJumpArgs ∈ postrouting t

section Order

variable {cfg : NatCfg} {ipv6 : Bool} {t t' : Chains}

theorem Orderly.congr (h : Orderly cfg ipv6 t) (heq : t' "POSTROUTING" = t "POSTROUTING") :
    Orderly cfg ipv6 t' := by
  have hpost : postrouting t' = postrouting t := congrArg (Option.getD · []) heq
  have hown : own cfg ipv6 t' = own cfg ipv6 t := by
    unfold own
    rw [hpost]
  exact ⟨heq ▸ h.present, hown ▸ h.first, hpost ▸ h.once⟩

/-- The sixth word of a masquerade rule is MASQ. -/
theorem masqueradeArgs_ne_jump (primary : IpAddr) (cidr : Option String) (randomFully : Bool) :
    masqueradeArgs primary cidr randomFully ≠ hairpinJumpArgs := by
  unfold masqueradeArgs hairpinJumpArgs
  simp

/-- The rule for all traffic is none of the rules for the pod networks. -/
theorem allRule_not_mem_cidrRules (p : MasqueradeCfg × IpAddr) (ipv6 : Bool) :
    allRule p ∉ cidrRules p ipv6 := by
  intro h
  obtain ⟨cidr, _, heq⟩ := List.mem_map.mp h
  simp [allRule, masqueradeArgs] at heq

theorem ne_jump_of_wanted {a : Args} (h : a ∈ wantedRules cfg ipv6) : a ≠ hairpinJumpArgs := by
  unfold wantedRules at h
  cases hof : masqueradeOf cfg ipv6 with
  | none => simp [hof] at h
  | some p =>
    simp only [hof, List.mem_append] at h
    obtain h | h := h
    · cases hall : p.1.all with
      | true =>
        rw [hall, if_pos rfl, List.mem_singleton] at h
        rw [h]
        exact masqueradeArgs_ne_jump _ _ _
      | false => simp [hall] at h
    · obtain ⟨cidr, _, rfl⟩ := List.mem_map.mp h
      exact masqueradeArgs_ne_jump _ _ _

theorem ne_jump_of_unwanted {a : Args} (h : a ∈ unwantedRules cfg ipv6) : a ≠ hairpinJumpArgs := by
  unfold unwantedRules at h
  cases hof : masqueradeOf cfg ipv6 with
  | none => simp [hof] at h
  | some p =>
    cases hall : p.1.all with
    | true => simp [hof, hall] at h
    | false =>
      simp only [hof, hall, Bool.false_eq_true, if_false, List.mem_singleton] at h
      rw [h]
      exact masqueradeArgs_ne_jump _ _ _

/-- What a pass takes away it does not add. -/
theorem wanted_not_unwanted {a : Args} (h : a ∈ wantedRules cfg ipv6) :
    a ∉ unwantedRules cfg ipv6 := by
  unfold wantedRules at h
  unfold unwantedRules
  cases hof : masqueradeOf cfg ipv6 with
  | none => simp
  | some p =>
    cases hall : p.1.all with
    | true => simp [hall]
    | false =>
      simp only [hof, hall, Bool.false_eq_true, if_false, List.nil_append] at h ⊢
      intro hmem
      rw [List.mem_singleton.mp hmem] at h
      exact allRule_not_mem_cidrRules p ipv6 h

/-- Putting a rule behind the others keeps the order, if it is the jump or the jump is there. -/
theorem Orderly.concat (h : Orderly cfg ipv6 t) {old : List Args} {a : Args}
    (hold : t "POSTROUTING" = some old) (hnew : t' "POSTROUTING" = some (old ++ [a]))
    (ha : a = hairpinJumpArgs ∨ a ∈ wantedRules cfg ipv6 ∧ Jumps t) : Orderly cfg ipv6 t' := by
  have hpost : postrouting t = old := congrArg (Option.getD · []) hold
  have hpost' : postrouting t' = old ++ [a] := congrArg (Option.getD · []) hnew
  refine ⟨hnew ▸ rfl, ?_, fun b hb => ?_⟩
  · have hmem : a ∈ ownRules cfg ipv6 := by
      obtain rfl | ⟨ha, _⟩ := ha
      · exact mem_ownRules_jump
      · exact mem_ownRules_wanted ha
    have hown : own cfg ipv6 t' = own cfg ipv6 t ++ [a] := by
      simp [own, hpost, hpost', hmem]
    obtain hnil | ⟨rest, hrest⟩ := h.first
    · obtain rfl | ⟨_, hjump⟩ := ha
      · exact .inr ⟨[], by rw [hown, hnil, List.nil_append]⟩
      · have hin : hairpinJumpArgs ∈ own cfg ipv6 t :=
          List.mem_filter.mpr ⟨hjump, by simpa using mem_ownRules_jump⟩
        rw [hnil] at hin
        cases hin
    · exact .inr ⟨rest ++ [a], by rw [hown, hrest, List.cons_append]⟩
  · have hne : a ≠ b := by
      rintro rfl
      obtain rfl | ⟨ha, _⟩ := ha
      · exact ne_jump_of_unwanted hb rfl
      · exact wanted_not_unwanted ha hb
    have honce := h.once b hb
    rw [hpost] at honce
    rw [hpost', List.count_append, List.count_singleton, if_neg (by simpa using hne)]
    exact honce

/-- Taking an unwanted rule away keeps it. -/
theorem Orderly.erase (h : Orderly cfg ipv6 t) {old : List Args} {a : Args}
    (hold : t "POSTROUTING" = some old) (hnew : t' "POSTROUTING" = some (old.erase a))
    (ha : a ∈ unwantedRules cfg ipv6) : Orderly cfg ipv6 t' := by
  have hpost : postrouting t = old := congrArg (Option.getD · []) hold
  have hpost' : postrouting t' = old.erase a := congrArg (Option.getD · []) hnew
  refine ⟨hnew ▸ rfl, ?_, fun b hb => ?_⟩
  · have hown : own cfg ipv6 t' = (own cfg ipv6 t).erase a := by
      rw [own, own, hpost, hpost', List.erase_filter]
    rw [hown]
    obtain hnil | ⟨rest, hrest⟩ := h.first
    · exact .inl (by rw [hnil, List.erase_nil])
    · refine .inr ⟨rest.erase a, ?_⟩
      rw [hrest, List.erase_cons_tail (by simpa using (ne_jump_of_unwanted ha).symm)]
  · have honce := h.once b hb
    rw [hpost] at honce
    rw [hpost']
    exact (List.erase_sublist.count_le b).trans honce

/-- Hairpin commands keep the order, and the jump once it is there. -/
theorem HairpinCmd.keeps {rules : List Args} {args : Args} (h : HairpinCmd rules args)
    (hexec : exec t args = some t') :
    (Orderly cfg ipv6 t → Orderly cfg ipv6 t') ∧ (Jumps t → Jumps t') := by
  obtain heq | ⟨old, hold, hnew⟩ := h.postrouting_eq hexec
  · refine ⟨fun ho => ho.congr heq, fun hj => ?_⟩
    unfold Jumps postrouting at hj ⊢
    rw [heq]
    exact hj
  · refine ⟨fun ho => ho.concat hold hnew (.inl rfl), fun _ => ?_⟩
    unfold Jumps postrouting
    rw [hnew]
    exact List.mem_append_right _ List.mem_cons_self

/-- Masquerade commands keep the jump. -/
theorem MasqueradeCmd.jumps {args : Args} (h : MasqueradeCmd cfg ipv6 args)
    (hexec : exec t args = some t') (hj : Jumps t) : Jumps t' := by
  unfold Jumps postrouting at hj ⊢
  obtain heq | ⟨old, hold, ⟨a, ha, hnew⟩ | ⟨a, ha, hnew⟩⟩ := h.postrouting_eq hexec
  · rwa [heq]
  · rw [hold] at hj
    rw [hnew]
    exact List.mem_append_left _ hj
  · rw [hold] at hj
    rw [hnew]
    exact (List.mem_erase_of_ne (ne_jump_of_unwanted ha).symm).mpr hj

/-- Where the jump is there they keep the order too. -/
theorem MasqueradeCmd.orderly {args : Args} (h : MasqueradeCmd cfg ipv6 args)
    (hexec : exec t args = some t') (ho : Orderly cfg ipv6 t) (hj : Jumps t) :
    Orderly cfg ipv6 t' := by
  obtain heq | ⟨old, hold, ⟨a, ha, hnew⟩ | ⟨a, ha, hnew⟩⟩ := h.postrouting_eq hexec
  · exact ho.congr heq
  · exact ho.concat hold hnew (.inr ⟨ha, hj⟩)
  · exact ho.erase hold hnew ha

end Order

/-! ## What a pass achieves -/

/-- A command that exits with success has worked. -/
theorem run_ok (ipv6 : Bool) (args : Args) (w : World) :
    wp (run exits ipv6 args)
      (fun ok u => ok = true → ∃ t, exec (w.tables ipv6) args = some t ∧
        u.tables = Function.update w.tables ipv6 t) (fun _ _ => True) w := by
  unfold run
  rw [wp_bind, wp_get, wp_bind, wp_modify]
  cases exits w.calls with
  | normal =>
    intro hok
    obtain ⟨t, ht⟩ := Option.isSome_iff_exists.mp hok
    refine ⟨t, ht, ?_⟩
    simp [World.after, ht, World.setTable]
  | failure done =>
    intro hok
    cases hok
  | lost done e => trivial

/-- An append that succeeds leaves the rule in the chain. -/
theorem append_ok (ipv6 : Bool) (chain : String) (args : Args) (w : World) :
    wp (appendUnique exits ipv6 chain args)
      (fun _ u => args ∈ (u.tables ipv6 chain).getD []) (fun _ _ => True) w := by
  unfold appendUnique
  rw [wp_bind]
  refine wp_mono (run_ok exits ipv6 _ w) (fun there u hu => ?_) (fun _ _ he => he)
  cases there with
  | true =>
    obtain ⟨t, ht, htables⟩ := hu rfl
    obtain ⟨rfl, rules, hrules, hmem⟩ := exec_check ht
    show args ∈ (u.tables ipv6 chain).getD []
    rw [htables, Function.update_self, hrules]
    exact hmem
  | false =>
    show wp (run exits ipv6 ("-A" :: chain :: args) >>= _) _ _ u
    rw [wp_bind]
    refine wp_mono (run_ok exits ipv6 _ u) (fun added v hv => ?_) (fun _ _ he => he)
    cases added with
    | true =>
      obtain ⟨t, ht, htables⟩ := hv rfl
      obtain ⟨rules, hrules, rfl⟩ := exec_append ht
      show args ∈ (v.tables ipv6 chain).getD []
      rw [htables, Function.update_self, Function.update_self]
      exact List.mem_append_right _ List.mem_cons_self
    | false => trivial

/-- No rule is lost. -/
def Grows (t t' : Chains) : Prop := ∀ chain, ∀ a ∈ (t chain).getD [], a ∈ (t' chain).getD []

theorem append_grows (ipv6 : Bool) (chain : String) (args : Args) :
    Within (Each fun _ => Grows) (appendUnique exits ipv6 chain args) := by
  refine within_append exits (fun _ _ _ _ h => h) (fun _ _ _ _ h h' c a ha => h' c a (h c a ha))
    (fun t t' h => ?_) (fun t t' h => ?_)
  · rw [(exec_check h).1]
    exact fun _ _ ha => ha
  · obtain ⟨rules, hrules, rfl⟩ := exec_append h
    intro other a ha
    by_cases heq : other = chain
    · subst heq
      rw [hrules] at ha
      rw [Function.update_self]
      exact List.mem_append_left _ ha
    · rw [Function.update_of_ne heq]
      exact ha

/-- A family whose hairpin rules were synced: the jump and all of the rules are there. -/
structure Reached (rules : List Args) (t : Chains) : Prop where
  jumps : Jumps t
  rules : ∀ a ∈ rules, a ∈ (t hairpinChain).getD []

theorem Reached.grows {rules : List Args} {t t' : Chains} (h : Reached rules t)
    (hgrows : Grows t t') : Reached rules t' :=
  ⟨hgrows _ _ h.jumps, fun a ha => hgrows _ a (h.rules a ha)⟩

/-- A sync that succeeds reaches this, even if a command it does not look at has failed. -/
theorem syncHairpin_ok (ipv6 : Bool) (rules : List Args) (w : World) :
    wp (syncHairpin exits ipv6 rules) (fun _ u => Reached rules (u.tables ipv6))
      (fun _ _ => True) w := by
  unfold syncHairpin
  rw [wp_bind]
  have hany : ∀ (x : Prog World NatError PUnit) w, wp x (fun _ _ => True) (fun _ _ => True) w := by
    intro x w
    unfold wp
    split <;> trivial
  refine wp_mono (hany _ w) (fun _ u _ => ?_) (fun _ _ he => he)
  rw [wp_bind]
  refine wp_mono (append_ok exits ipv6 _ _ u) (fun _ v hv => ?_) (fun _ _ he => he)
  rw [wp_bind]
  -- the flush leaves POSTROUTING alone
  have hflush : Within (Each fun _ t t' => Jumps t → Jumps t')
      (flushChain exits ipv6 hairpinChain) := by
    unfold flushChain
    refine .bind (each_trans fun _ _ _ _ h h' hj => h' (h hj))
      (within_run exits (fun _ _ hj => hj) fun t t' h hj => ?_) fun _ =>
        .done (each_refl fun _ _ hj => hj) _
    unfold Jumps postrouting
    rw [exec_elsewhere h postrouting_ne]
    exact hj
  refine wp_mono (hflush v) (fun _ x hx => ?_) (fun _ _ _ => trivial)
  refine wp_forM (fun done (y : World) => Reached done (y.tables ipv6)) rules
    ⟨hx ipv6 hv, by simp⟩ ?_
  intro done a rest y _ hy
  refine wp_mono (wp_and (append_ok exits ipv6 hairpinChain a y)
    (append_grows exits ipv6 hairpinChain a y)) (fun _ z hz => ?_) (fun _ _ _ => trivial)
  obtain ⟨hmem, hgrows⟩ := hz
  have hreached := hy.grows (hgrows ipv6)
  refine ⟨hreached.jumps, fun b hb => ?_⟩
  obtain hb | hb := List.mem_append.mp hb
  · exact hreached.rules b hb
  · rw [List.mem_singleton.mp hb]
    exact hmem

/-! ## A pass in which no command fails -/

section Clean

variable {exits} (hclean : ∀ n, exits n = .normal)

include hclean

theorem run_clean (ipv6 : Bool) (args : Args) (w : World) :
    wp (run exits ipv6 args)
      (fun ok u => ok = (exec (w.tables ipv6) args).isSome ∧ u.tables =
        Function.update w.tables ipv6 ((exec (w.tables ipv6) args).getD (w.tables ipv6)))
      (fun _ _ => False) w := by
  unfold run
  rw [wp_bind, wp_get, wp_bind, wp_modify, hclean, wp_bind, wp_modify]
  refine ⟨rfl, ?_⟩
  cases hexec : exec (w.tables ipv6) args with
  | none => simp [World.after, hexec]
  | some t => simp [World.after, hexec, World.setTable]

/-- The table of one family becomes `t`. -/
def Becomes (w : World) (ipv6 : Bool) (t : Chains) (u : World) : Prop :=
  u.tables = Function.update w.tables ipv6 t

theorem append_clean (ipv6 : Bool) {chain : String} {args : Args} {rules : List Args} {w : World}
    (hchain : w.tables ipv6 chain = some rules) (htarget : hasTarget (w.tables ipv6) args = true) :
    wp (appendUnique exits ipv6 chain args)
      (fun _ u => Becomes w ipv6
        (Function.update (w.tables ipv6) chain (some (Collect.pushNew rules args))) u)
      (fun _ _ => False) w := by
  unfold appendUnique
  rw [wp_bind]
  refine wp_mono (run_clean hclean ipv6 _ w) (fun there u hu => ?_) (fun _ _ he => he)
  obtain ⟨hthere, htables⟩ := hu
  by_cases hmem : args ∈ rules
  · -- found by `-C`
    have hexec : exec (w.tables ipv6) ("-C" :: chain :: args) = some (w.tables ipv6) := by
      simp [exec, hchain, hmem]
    rw [hexec] at hthere htables
    obtain rfl : there = true := hthere
    show u.tables = _
    rw [htables, Collect.pushNew_of_mem hmem, ← hchain, Function.update_eq_self, Option.getD_some]
  · have hexec : exec (w.tables ipv6) ("-C" :: chain :: args) = none := by
      simp [exec, hchain, hmem]
    rw [hexec, Option.getD_none, Function.update_eq_self] at htables
    rw [hexec] at hthere
    obtain rfl : there = false := hthere
    show wp (run exits ipv6 ("-A" :: chain :: args) >>= _) _ _ u
    rw [wp_bind]
    refine wp_mono (run_clean hclean ipv6 _ u) (fun added v hv => ?_) (fun _ _ he => he)
    obtain ⟨hadded, htables'⟩ := hv
    have happend : exec (u.tables ipv6) ("-A" :: chain :: args) =
        some (Function.update (w.tables ipv6) chain (some (rules ++ [args]))) := by
      rw [htables]
      simp [exec, hchain, htarget]
    rw [happend] at hadded htables'
    obtain rfl : added = true := hadded
    show v.tables = _
    rw [htables', htables, Collect.pushNew_of_not_mem hmem, Option.getD_some]

/-- A loop of appends. -/
theorem forM_append_clean (ipv6 : Bool) {chain : String} (items : List Args) {rules : List Args}
    {w : World} (hchain : w.tables ipv6 chain = some rules)
    (htarget : ∀ a ∈ items, ∀ t, hasTarget t a = true) :
    wp (items.forM (appendUnique exits ipv6 chain))
      (fun _ u => Becomes w ipv6
        (Function.update (w.tables ipv6) chain (some (Collect.pushAll rules items))) u)
      (fun _ _ => False) w := by
  refine wp_forM (fun done u => Becomes w ipv6
    (Function.update (w.tables ipv6) chain (some (Collect.pushAll rules done))) u) items ?_ ?_
  · show w.tables = _
    rw [Collect.pushAll, List.foldl_nil, ← hchain, Function.update_eq_self, Function.update_eq_self]
  · intro done a rest u heq hu
    have htable : u.tables ipv6 =
        Function.update (w.tables ipv6) chain (some (Collect.pushAll rules done)) := by
      rw [hu, Function.update_self]
    have ha : a ∈ items := by
      rw [heq]
      simp
    have hchainu : u.tables ipv6 chain = some (Collect.pushAll rules done) := by
      rw [htable, Function.update_self]
    refine wp_mono (append_clean hclean ipv6 hchainu (htarget a ha _)) (fun _ v hv => ?_)
      (fun _ _ he => he)
    have hpush : Collect.pushAll rules (done ++ [a]) =
        Collect.pushNew (Collect.pushAll rules done) a := by
      simp [Collect.pushAll]
    show v.tables = _
    rw [hv, hu, Function.update_self, hpush, Function.update_idem, Function.update_idem]

/-- A command whose status nobody looks at. -/
theorem quiet_clean (ipv6 : Bool) (args : Args) (w : World) :
    wp (do let _ ← run exits ipv6 args)
      (fun _ u => Becomes w ipv6 ((exec (w.tables ipv6) args).getD (w.tables ipv6)) u)
      (fun _ _ => False) w := by
  rw [wp_bind]
  exact wp_mono (run_clean hclean ipv6 args w) (fun _ _ hu => hu.2) (fun _ _ he => he)

/-- The tables of a family behind the hairpin part of a pass. -/
def hairpinTable (t : Chains) (post rules : List Args) : Chains :=
  Function.update
    (Function.update t "POSTROUTING" (some (Collect.pushNew post hairpinJumpArgs)))
    hairpinChain (some rules)

omit hclean in
theorem Becomes.trans {w u v : World} {ipv6 : Bool} {t t' : Chains} (h : Becomes w ipv6 t u)
    (h' : Becomes u ipv6 t' v) : Becomes w ipv6 t' v := by
  show v.tables = _
  rw [h', h, Function.update_idem]

omit hclean in
theorem Becomes.table {w u : World} {ipv6 : Bool} {t : Chains} (h : Becomes w ipv6 t u) :
    u.tables ipv6 = t := by
  rw [h, Function.update_self]

theorem syncHairpin_clean (ipv6 : Bool) {rules post : List Args} {w : World}
    (hpost : w.tables ipv6 "POSTROUTING" = some post) (hnodup : rules.Nodup)
    (htarget : ∀ a ∈ rules, ∀ t, hasTarget t a = true) :
    wp (syncHairpin exits ipv6 rules)
      (fun _ u => Becomes w ipv6 (hairpinTable (w.tables ipv6) post rules) u)
      (fun _ _ => False) w := by
  unfold syncHairpin
  rw [wp_bind]
  refine wp_mono (quiet_clean hclean ipv6 ["-N", hairpinChain] w) (fun _ u hu => ?_)
    (fun _ _ he => he)
  -- the chain is there, empty or as it was
  obtain ⟨cell, hcell⟩ : ∃ cell, u.tables ipv6 =
      Function.update (w.tables ipv6) hairpinChain (some cell) := by
    rw [hu.table]
    cases hchain : w.tables ipv6 hairpinChain with
    | none =>
      refine ⟨[], ?_⟩
      simp [exec, hchain]
    | some cell =>
      refine ⟨cell, ?_⟩
      rw [← hchain, Function.update_eq_self]
      simp [exec, hchain]
  have hpostu : u.tables ipv6 "POSTROUTING" = some post := by
    rw [hcell, Function.update_of_ne postrouting_ne, hpost]
  have hjump : hasTarget (u.tables ipv6) hairpinJumpArgs = true := by
    have hthere : (u.tables ipv6 hairpinChain).isSome := by
      rw [hcell, Function.update_self]
      rfl
    show (extensions.contains hairpinChain || (u.tables ipv6 hairpinChain).isSome) = true
    rw [hthere, Bool.or_true]
  rw [wp_bind]
  refine wp_mono (append_clean hclean ipv6 hpostu hjump) (fun _ v hv => ?_) (fun _ _ he => he)
  rw [wp_bind]
  refine wp_mono (quiet_clean hclean ipv6 ["-F", hairpinChain] v) (fun _ x hx => ?_)
    (fun _ _ he => he)
  have hflush : x.tables ipv6 = hairpinTable (w.tables ipv6) post [] := by
    have hchain : v.tables ipv6 hairpinChain = some cell := by
      rw [hv.table, Function.update_of_ne postrouting_ne.symm, hcell, Function.update_self]
    have hexec : exec (v.tables ipv6) ["-F", hairpinChain] =
        some (Function.update (v.tables ipv6) hairpinChain (some [])) := by
      simp [exec, hchain]
    rw [hx.table, hexec, Option.getD_some, hv.table, hcell, hairpinTable,
      Function.update_comm postrouting_ne, Function.update_idem,
      Function.update_comm postrouting_ne.symm]
  have hempty : x.tables ipv6 hairpinChain = some [] := by
    rw [hflush, hairpinTable, Function.update_self]
  refine wp_mono (forM_append_clean hclean ipv6 rules hempty htarget) (fun _ y hy => ?_)
    (fun _ _ he => he)
  rw [hflush, Collect.pushAll_nil hnodup, hairpinTable, Function.update_idem] at hy
  exact ((hu.trans hv).trans hx).trans hy

/-- POSTROUTING behind the masquerade part of a pass. -/
def masqueraded (post : List Args) (allRule : Args) (all : Bool) (cidrRules : List Args) :
    List Args :=
  Collect.pushAll (if all then Collect.pushNew post allRule else post.erase allRule) cidrRules

omit hclean in
theorem hasTarget_masquerade (t : Chains) (primary : IpAddr) (cidr : Option String)
    (randomFully : Bool) (h : ∀ c ∈ cidr, c ≠ "-j") :
    hasTarget t (masqueradeArgs primary cidr randomFully) = true := by
  cases cidr with
  | none => rfl
  | some c =>
    have hc : (c != "-j") = true := by simpa using h c rfl
    unfold hasTarget masqueradeArgs
    simp [hc, extensions]

theorem syncMasquerade_clean (ipv6 : Bool) {primary : IpAddr} {podCidrs : List String}
    {all randomFully : Bool} {post : List Args} {w : World}
    (hpost : w.tables ipv6 "POSTROUTING" = some post) (hcidrs : ∀ c ∈ podCidrs, c ≠ "-j") :
    wp (syncMasquerade exits ipv6 primary podCidrs all randomFully)
      (fun _ u => Becomes w ipv6 (Function.update (w.tables ipv6) "POSTROUTING"
        (some (masqueraded post (masqueradeArgs primary none randomFully) all
          (podCidrs.map fun c => masqueradeArgs primary (some c) randomFully)))) u)
      (fun _ _ => False) w := by
  unfold syncMasquerade
  rw [wp_bind]
  have htoggle : wp (if all then
        appendUnique exits ipv6 "POSTROUTING" (masqueradeArgs primary none randomFully)
      else delete exits ipv6 "POSTROUTING" (masqueradeArgs primary none randomFully))
      (fun _ u => Becomes w ipv6 (Function.update (w.tables ipv6) "POSTROUTING"
        (some (if all then Collect.pushNew post (masqueradeArgs primary none randomFully)
          else post.erase (masqueradeArgs primary none randomFully)))) u)
      (fun _ _ => False) w := by
    cases all with
    | true =>
      exact append_clean hclean ipv6 hpost (hasTarget_masquerade _ _ none _ (by simp))
    | false =>
      refine wp_mono (quiet_clean hclean ipv6 _ w) (fun _ u hu => ?_) (fun _ _ he => he)
      by_cases hmem : masqueradeArgs primary none randomFully ∈ post
      · simpa [exec, hpost, hmem] using hu
      · have hsame : Function.update (w.tables ipv6) "POSTROUTING" (some post) = w.tables ipv6 := by
          rw [← hpost, Function.update_eq_self]
        rw [if_neg Bool.false_ne_true, List.erase_of_not_mem hmem, hsame]
        simpa [exec, hpost, hmem] using hu
  refine wp_mono htoggle (fun _ u hu => ?_) (fun _ _ he => he)
  have hpostu : u.tables ipv6 "POSTROUTING" =
      some (if all then Collect.pushNew post (masqueradeArgs primary none randomFully)
        else post.erase (masqueradeArgs primary none randomFully)) := by
    rw [hu.table, Function.update_self]
  have hloop := forM_append_clean hclean ipv6
    (podCidrs.map fun c => masqueradeArgs primary (some c) randomFully) hpostu fun a ha t => by
      obtain ⟨c, hc, rfl⟩ := List.mem_map.mp ha
      exact hasTarget_masquerade t primary (some c) randomFully fun d hd =>
        Option.some.inj hd ▸ hcidrs c hc
  rw [List.forM_eq_forM, List.forM_map] at hloop
  refine wp_mono hloop (fun _ v hv => ?_) (fun _ _ he => he)
  rw [hu.table, Function.update_idem] at hv
  exact hu.trans hv

end Clean

end KubeRouter.Proxy.Nat
