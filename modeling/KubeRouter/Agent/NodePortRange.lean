/-
  The two readings of `--service-node-port-range`: `validate_node_port_range`
  (`netpol/src/naming.rs`) for the firewall and `parse_port_range` (`proxy/src/sync.rs`) for the
  service proxy, and how `main.rs` hands them on.

  The firewall also takes a colon and asks for an increasing range; without a range it exempts no
  port, while the proxy then programs every port.

  Proved:
  * `range_read_alike_iff`: the two agree on a flag exactly when it is an increasing range of two
    ports with a dash between them.
  * `colon_range_differs`: a range with a colon.
-/
import KubeRouter.Agent.Config
import KubeRouter.Common.Text
import KubeRouter.Netpol.Plan
import KubeRouter.Proxy.Claims

namespace KubeRouter

/-! ## The two readings -/

/-- Two ports, cut at the first separator. -/
def Text.portPair (sep : Char → Bool) (text : List Char) : Option (UInt16 × UInt16) := do
  let (lo, hi) ← Split.once sep text
  let lo ← parseU16 (trim lo)
  let hi ← parseU16 (trim hi)
  return (lo, hi)

namespace Netpol

/-- The bounds that `validate_node_port_range` finds. -/
def nodePortBounds (range : List Char) : Option (UInt16 × UInt16) := do
  let (lo, hi) ← Text.portPair (fun c => c == '-' || c == ':') range
  if lo ≥ hi then none else some (lo, hi)

/-- The form `lo:hi`. -/
def rangeText (range : UInt16 × UInt16) : List Char :=
  Nat.toDigits 10 range.1.toNat ++ ':' :: Nat.toDigits 10 range.2.toNat

def validateNodePortRange (range : List Char) : Option (List Char) :=
  (nodePortBounds range).map rangeText

end Netpol

namespace Proxy

def parsePortRange (range : List Char) : Option (UInt16 × UInt16) := Text.portPair (· == '-') range

end Proxy

namespace Agent

namespace KubeRouterConfig

/-- The range of the firewall controller. -/
def firewallConfig (config : KubeRouterConfig) (cfg : Netpol.Config) : Netpol.Config :=
  { cfg with nodePortRange := Netpol.nodePortBounds config.serviceNodePortRange.toList }

/-- The range of the service proxy. -/
def proxyConfig (config : KubeRouterConfig) (cfg : Proxy.Config) : Proxy.Config :=
  { cfg with nodePortRange := Proxy.parsePortRange config.serviceNodePortRange.toList }

end KubeRouterConfig

/-! ## Ports that are programmed and ports that are exempt -/

/-- The ports of which the pass programs a service, as its NodePort, on a node address. -/
def programmedPorts (cfg : Proxy.Config) (nip : IpAddr) (proto : Proxy.Protocol) : Set UInt16 :=
  {p | ∃ svc eps, svc.protocol = proto ∧ svc.nodePort = some p ∧
    ((Proxy.Desired.addNodePort cfg svc eps {}).services[
      Proxy.svcKey (Proxy.ipvsService svc nip p)]?).isSome = true}

/-- The ports of the RETURNs for local addresses in KUBE-ROUTER-INPUT. -/
def exemptPorts (plan : Netpol.FirewallPlan) (proto : Proxy.Protocol) : Set UInt16 :=
  {p | ∃ lo hi, lo ≤ p ∧ p ≤ hi ∧
      Netpol.nodePortReturn (lo, hi) (Proxy.protoName proto) ∈ plan.rules}

/-- The firewall and the proxy read the flag alike. -/
structure RangeReadAlike (config : KubeRouterConfig) : Prop where
  parsed : ∀ lo hi,
    Netpol.validateNodePortRange config.serviceNodePortRange.toList =
        some (Netpol.rangeText (lo, hi)) ↔
      Proxy.parsePortRange config.serviceNodePortRange.toList = some (lo, hi)
  ports : ∀ (proxy : Proxy.Config) (firewall : Netpol.Config) (w : Netpol.PolicyWorld)
    (family : IpFamily) (proto : Proxy.Protocol), ∀ nip ∈ proxy.nodeIps,
      programmedPorts (config.proxyConfig proxy) nip proto =
        exemptPorts (Netpol.buildPlan (config.firewallConfig firewall) w family) proto

/-- Two ports, the first below the second, with a dash between them and blanks around them at
will. -/
def IsDashRange (range : List Char) : Prop :=
  ∃ x y lo hi, range = x ++ '-' :: y ∧ Text.parseU16 (Text.trim x) = some lo ∧
    Text.parseU16 (Text.trim y) = some hi ∧ lo < hi

/-! ## Texts -/

theorem parseU16_chars {text : List Char} {n : UInt16} (h : Text.parseU16 text = some n) :
    ∀ c ∈ text, c.isDigit = true ∨ c = '+' := by
  obtain ⟨m, hm, -⟩ := Option.map_eq_some_iff.mp h
  exact Text.parseUnsigned_chars hm

/-- A number has no other character than those of `parseU16_chars` and blanks. -/
theorem not_mem_of_parseU16 {x : List Char} {n : UInt16} (h : Text.parseU16 (Text.trim x) = some n)
    {c : Char} (hblank : isWhiteSpace c = false) (hdigit : c.isDigit = false) (hplus : c ≠ '+') :
    c ∉ x := by
  intro hc
  obtain ⟨front, back, hx, hfront, hback⟩ := Split.exists_trim isWhiteSpace x
  rw [hx] at hc
  obtain (hc | hc) | hc := List.mem_append.mp hc |>.imp_left List.mem_append.mp
  · rw [hfront c hc] at hblank
    cases hblank
  · obtain hd | hp := parseU16_chars h c hc
    · rw [hd] at hdigit
      cases hdigit
    · exact hplus hp
  · rw [hback c hc] at hblank
    cases hblank

/-- The characters of `sep` stand in no number. -/
theorem portPair_eq_some_iff {sep : Char → Bool}
    (hsep : ∀ c, sep c = true → isWhiteSpace c = false ∧ c.isDigit = false ∧ c ≠ '+')
    {text : List Char} {lo hi : UInt16} :
    Text.portPair sep text = some (lo, hi) ↔ ∃ x c y, text = x ++ c :: y ∧ sep c = true ∧
      Text.parseU16 (Text.trim x) = some lo ∧ Text.parseU16 (Text.trim y) = some hi := by
  unfold Text.portPair
  simp only [Option.bind_eq_bind, Option.bind_eq_some_iff, Option.pure_def, Option.some.injEq,
    Prod.mk.injEq]
  constructor
  · rintro ⟨⟨x, y⟩, hcut, lo', hlo, hi', hhi, rfl, rfl⟩
    obtain ⟨c, rfl, hc, -⟩ := Split.once_eq_some_iff.mp hcut
    exact ⟨x, c, y, rfl, hc, hlo, hhi⟩
  · rintro ⟨x, c, y, rfl, hc, hlo, hhi⟩
    refine ⟨(x, y), Split.once_append (fun a ha => ?_) hc y, lo, hlo, hi, hhi, rfl, rfl⟩
    by_contra ha'
    obtain ⟨hblank, hdigit, hplus⟩ := hsep a (by simpa using ha')
    exact not_mem_of_parseU16 hlo hblank hdigit hplus ha

theorem nodePortBounds_eq_some_iff {range : List Char} {lo hi : UInt16} :
    Netpol.nodePortBounds range = some (lo, hi) ↔
      Text.portPair (fun c => c == '-' || c == ':') range = some (lo, hi) ∧ lo < hi := by
  unfold Netpol.nodePortBounds
  cases hpair : Text.portPair (fun c => c == '-' || c == ':') range with
  | none => simp
  | some pair =>
    obtain ⟨lo', hi'⟩ := pair
    simp only [Option.bind_eq_bind, Option.bind_some, Option.some.injEq, Prod.mk.injEq]
    split
    · next hge =>
      simp only [reduceCtorEq, false_iff, not_and]
      rintro ⟨rfl, rfl⟩
      exact UInt16.not_lt.mpr hge
    · next hlt =>
      rw [Option.some.injEq, Prod.mk.injEq]
      constructor
      · rintro ⟨rfl, rfl⟩
        exact ⟨⟨rfl, rfl⟩, UInt16.not_le.mp hlt⟩
      · exact fun h => h.1

/-- A range is read back from its text. -/
theorem portPair_rangeText (range : UInt16 × UInt16) :
    Text.portPair (· == ':') (Netpol.rangeText range) = some range := by
  obtain ⟨lo, hi⟩ := range
  have htrim : ∀ n, Text.trim (Nat.toDigits 10 n) = Nat.toDigits 10 n := by
    intro n
    exact Split.trim_eq_self fun c hc =>
      Text.isWhiteSpace_of_isDigit (Text.isDigit_of_mem_toDigits hc)
  have hport : ∀ p : UInt16, Text.parseU16 (Text.trim (Nat.toDigits 10 p.toNat)) = some p := by
    intro p
    unfold Text.parseU16
    rw [htrim, Text.parseUnsigned_toDigits p.toNat_lt_size, Option.map_some, UInt16.ofNat_toNat]
  refine (portPair_eq_some_iff ?_).mpr ⟨_, ':', _, rfl, by decide, hport lo, hport hi⟩
  intro c hc
  rw [beq_iff_eq.mp hc]
  decide

theorem rangeText_injective : Function.Injective Netpol.rangeText := by
  intro range range' h
  have hrange := portPair_rangeText range
  rw [h, portPair_rangeText range'] at hrange
  exact (Option.some.inj hrange).symm

theorem parsePortRange_eq_some_iff {range : List Char} {lo hi : UInt16} :
    Proxy.parsePortRange range = some (lo, hi) ↔ ∃ x y, range = x ++ '-' :: y ∧
      Text.parseU16 (Text.trim x) = some lo ∧ Text.parseU16 (Text.trim y) = some hi := by
  unfold Proxy.parsePortRange
  rw [portPair_eq_some_iff]
  · constructor
    · rintro ⟨x, c, y, rfl, hc, hlo, hhi⟩
      rw [beq_iff_eq.mp hc]
      exact ⟨x, y, rfl, hlo, hhi⟩
    · rintro ⟨x, y, rfl, hlo, hhi⟩
      exact ⟨x, '-', y, rfl, by decide, hlo, hhi⟩
  · intro c hc
    rw [beq_iff_eq.mp hc]
    decide

/-- A range with a dash is the same for both, but for the order of its ports. -/
theorem nodePortBounds_of_parsePortRange {range : List Char} {lo hi : UInt16}
    (h : Proxy.parsePortRange range = some (lo, hi)) (hlt : lo < hi) :
    Netpol.nodePortBounds range = some (lo, hi) := by
  obtain ⟨x, y, rfl, hlo, hhi⟩ := parsePortRange_eq_some_iff.mp h
  refine nodePortBounds_eq_some_iff.mpr ⟨(portPair_eq_some_iff ?_).mpr
    ⟨x, '-', y, rfl, by decide, hlo, hhi⟩, hlt⟩
  intro c hc
  obtain hc | hc := Bool.or_eq_true_iff.mp hc
  · rw [beq_iff_eq.mp hc]
    decide
  · rw [beq_iff_eq.mp hc]
    decide

/-! ## Ports -/

section Ports

variable {p : UInt16}

theorem services_addNodePort {cfg : Proxy.Config} {svc : Proxy.ServiceInfo}
    {eps : List Proxy.EndpointInfo} {k : String} :
    ((Proxy.Desired.addNodePort cfg svc eps {}).services[k]?).isSome = true ↔
      ∃ c ∈ Proxy.nodePortClaims cfg (svc, eps), Proxy.svcKey c.service = k := by
  have htables : (Proxy.Desired.addNodePort cfg svc eps {}).tables = _ :=
    Proxy.tables_nodePort (svc, eps) {}
  rw [Proxy.foldl_insertClaim] at htables
  have hservices : (Proxy.Desired.addNodePort cfg svc eps {}).services = _ :=
    congrArg Prod.fst htables
  have hempty : ((({} : Proxy.Desired).tables.1)[k]? : Option Proxy.Entry) = none :=
    Std.TreeMap.getElem?_emptyc
  rw [hservices, Proxy.getElem?_foldl_insert, hempty, Option.or_none, Option.isSome_map,
    List.find?_isSome]
  simp only [List.mem_reverse, beq_iff_eq]

/-- A service without a traffic policy that only has a NodePort. -/
def nodePortService (proto : Proxy.Protocol) (p : UInt16) : Proxy.ServiceInfo where
  ns := "default"
  name := "web"
  protocol := proto
  port := p
  nodePort := some p
  clusterIps := []
  externalIps := []
  loadBalancerIps := []
  scheduler := .Rr
  schedFlags := {}
  sessionAffinity := false
  affinityTimeout := 0
  dsr := false
  internalTrafficLocal := false
  externalTrafficLocal := false

theorem mem_programmedPorts {cfg : Proxy.Config} {nip : IpAddr} {proto : Proxy.Protocol} :
    p ∈ programmedPorts cfg nip proto ↔
      nip ∈ cfg.nodeIps ∧ Proxy.Desired.nodePortInRange cfg p = true := by
  constructor
  · rintro ⟨svc, eps, -, -, hsome⟩
    obtain ⟨c, hc, hkey⟩ := services_addNodePort.mp hsome
    obtain ⟨np, hnp, hrange, -, nip', hnip, rfl⟩ := Proxy.mem_nodePortClaims.mp hc
    have hclaim : Proxy.svcKey
      (Proxy.Claim.service ⟨svc, eps, nip', np, svc.externalTrafficLocal⟩) =
        Proxy.svcKey (Proxy.Claim.service ⟨svc, eps, nip, p, svc.externalTrafficLocal⟩) := hkey
    cases Proxy.Claim.svcKey_eq.mp hclaim
    exact ⟨hnip, hrange⟩
  · rintro ⟨hnip, hrange⟩
    refine ⟨nodePortService proto p, [], rfl, rfl, services_addNodePort.mpr ?_⟩
    exact ⟨⟨nodePortService proto p, [], nip, p, false⟩, Proxy.mem_nodePortClaims.mpr
      ⟨p, rfl, hrange, fun h => absurd h Bool.false_ne_true, nip, hnip, rfl⟩, rfl⟩

theorem nodePortReturn_mem_iff {cfg : Netpol.Config} {w : Netpol.PolicyWorld} {family : IpFamily}
    {range : UInt16 × UInt16} {proto : Proxy.Protocol} :
    Netpol.nodePortReturn range (Proxy.protoName proto) ∈ (Netpol.buildPlan cfg w family).rules ↔
      cfg.nodePortRange = some range := by
  constructor
  · intro h
    have hinput : Netpol.nodePortReturn range (Proxy.protoName proto) ∈
        Netpol.chainOf (Netpol.buildPlan cfg w family).rules routerInput :=
      List.mem_filter.mpr ⟨h, by simp [Netpol.nodePortReturn]⟩
    rw [Netpol.chainOf_input] at hinput
    simp only [List.mem_append, List.mem_flatMap, Netpol.serviceReturns, List.mem_map,
      List.mem_singleton] at hinput
    obtain ((⟨net, -, hnet⟩ | hport) | ⟨pod, -, ip, -, hjump⟩) | htail := hinput
    · cases hnet
    · cases hrange : cfg.nodePortRange with
      | none => simp [hrange] at hport
      | some range' =>
        rw [hrange] at hport
        obtain ⟨proto', -, hport⟩ := List.mem_map.mp hport
        obtain ⟨lo, hi⟩ := range
        obtain ⟨lo', hi'⟩ := range'
        cases hport
        rfl
    · cases List.mem_singleton.mp hjump
    · cases htail
  · intro h
    have hproto : Proxy.protoName proto ∈ ["tcp", "udp", "sctp"] := by cases proto <;> decide
    have hreturn : Netpol.nodePortReturn range (Proxy.protoName proto) ∈
        Netpol.serviceReturns cfg family := by
      unfold Netpol.serviceReturns
      rw [h]
      exact List.mem_append_right _ (List.mem_map_of_mem hproto)
    unfold Netpol.buildPlan
    simp [hreturn]

theorem mem_exemptPorts {cfg : Netpol.Config} {w : Netpol.PolicyWorld} {family : IpFamily}
    {proto : Proxy.Protocol} :
    p ∈ exemptPorts (Netpol.buildPlan cfg w family) proto ↔
      ∃ lo hi, cfg.nodePortRange = some (lo, hi) ∧ lo ≤ p ∧ p ≤ hi := by
  unfold exemptPorts
  simp only [Set.mem_ofPred_eq, nodePortReturn_mem_iff]
  constructor
  · rintro ⟨lo, hi, hlo, hhi, hrange⟩
    exact ⟨lo, hi, hrange, hlo, hhi⟩
  · rintro ⟨lo, hi, hrange, hlo, hhi⟩
    exact ⟨lo, hi, hlo, hhi, hrange⟩

end Ports

/-! ## Agreement -/

/-- The firewall and the proxy read the flag alike if and only if it is an increasing range with a
dash. -/
theorem range_read_alike_iff (config : KubeRouterConfig) :
    RangeReadAlike config ↔ IsDashRange config.serviceNodePortRange.toList := by
  constructor
  · intro h
    cases hbounds : Netpol.nodePortBounds config.serviceNodePortRange.toList with
    | some range =>
      obtain ⟨lo, hi⟩ := range
      have hparse := (h.parsed lo hi).mp (by rw [Netpol.validateNodePortRange, hbounds]; rfl)
      obtain ⟨x, y, hrange, hlo, hhi⟩ := parsePortRange_eq_some_iff.mp hparse
      exact ⟨x, y, lo, hi, hrange, hlo, hhi, (nodePortBounds_eq_some_iff.mp hbounds).2⟩
    | none =>
      -- The firewall exempts no port, and the proxy programs port 0 on a node with an address.
      exfalso
      have hparse : Proxy.parsePortRange config.serviceNodePortRange.toList = none := by
        cases hparse : Proxy.parsePortRange config.serviceNodePortRange.toList with
        | none => rfl
        | some range =>
          have htext := (h.parsed range.1 range.2).mpr hparse
          rw [Netpol.validateNodePortRange, hbounds] at htext
          cases htext
      have hports := h.ports { nodeIps := [.ofOctets 10 0 0 1] } { hash16 := id, node := "n1" } {}
        .V4 .Tcp (.ofOctets 10 0 0 1) List.mem_cons_self
      have hprogrammed : (0 : UInt16) ∈ programmedPorts
          (config.proxyConfig { nodeIps := [.ofOctets 10 0 0 1] }) (.ofOctets 10 0 0 1) .Tcp := by
        refine mem_programmedPorts.mpr ⟨List.mem_cons_self, ?_⟩
        unfold Proxy.Desired.nodePortInRange KubeRouterConfig.proxyConfig
        rw [hparse]
      rw [hports] at hprogrammed
      obtain ⟨lo, hi, hrange, -⟩ := mem_exemptPorts.mp hprogrammed
      unfold KubeRouterConfig.firewallConfig at hrange
      rw [hbounds] at hrange
      cases hrange
  · rintro ⟨x, y, lo, hi, hrange, hlo, hhi, hlt⟩
    have hparse := parsePortRange_eq_some_iff.mpr ⟨x, y, hrange, hlo, hhi⟩
    have hbounds := nodePortBounds_of_parsePortRange hparse hlt
    constructor
    · intro lo' hi'
      rw [Netpol.validateNodePortRange, hbounds, hparse, Option.map_some, Option.some.injEq,
        rangeText_injective.eq_iff, Option.some.injEq]
    · intro proxy firewall w family proto nip hnip
      ext p
      rw [mem_programmedPorts, mem_exemptPorts]
      unfold Proxy.Desired.nodePortInRange KubeRouterConfig.proxyConfig
        KubeRouterConfig.firewallConfig
      simp only [hparse, hbounds, Option.some.injEq, Prod.mk.injEq, hnip, true_and]
      constructor
      · intro hp
        simp only [Bool.not_eq_true', Bool.or_eq_false_iff, decide_eq_false_iff_not,
          UInt16.not_lt, gt_iff_lt] at hp
        exact ⟨lo, hi, ⟨rfl, rfl⟩, hp.1, hp.2⟩
      · rintro ⟨_, _, ⟨rfl, rfl⟩, hp⟩
        simp [hp.1, hp.2]

/-- The firewall takes a range with a colon, and the proxy does not. -/
theorem colon_range_differs :
    Netpol.validateNodePortRange "30000:32767".toList = some "30000:32767".toList ∧
      Proxy.parsePortRange "30000:32767".toList = none ∧
      ¬∀ config : KubeRouterConfig, RangeReadAlike config := by
  have hfirewall : Netpol.validateNodePortRange "30000:32767".toList =
      some "30000:32767".toList := by decide +kernel
  have hproxy : Proxy.parsePortRange "30000:32767".toList = none := by decide +kernel
  refine ⟨hfirewall, hproxy, fun h => ?_⟩
  have hparsed := ((h { serviceNodePortRange := "30000:32767" }).parsed 30000 32767).mp
    (hfirewall.trans (by decide +kernel))
  rw [hproxy] at hparsed
  cases hparsed

end Agent

end KubeRouter
