/-
  The agent's configuration (`config/src/lib.rs`) and its validation (`config/src/validate.rs`).

  Only the fields that a modelled function reads are here, with the defaults of the flags.
  Durations are nanoseconds. `parseNet` stands for `s.trim().parse::<IpNet>()` of the `ipnet`
  crate: the prefix, or the text of the error.

  Proved:
  * `validate_periods`: an accepted configuration has no zero period.
  * `validate_peerLists`: an accepted one that has addresses and AS numbers has equally many of
    both.
-/
import KubeRouter.Common.Ip
import KubeRouter.Lib.Collect

namespace KubeRouter.Agent

def milliseconds (n : Nat) : Nat := n * 1000000

def seconds (n : Nat) : Nat := milliseconds (n * 1000)

structure KubeRouterConfig where
  enableIpv4 : Bool := true
  enableIpv6 : Bool := false
  runRouter : Bool := true
  runFirewall : Bool := true
  runServiceProxy : Bool := true
  runLoadbalancer : Bool := false
  serviceClusterIpRange : List String := ["10.96.0.0/12"]
  serviceExternalIpRange : List String := []
  loadbalancerIpRange : List String := []
  excludedCidrs : List String := []
  serviceNodePortRange : String := "30000-32767"
  routerId : String := ""
  overlayEncap : String := "ipip"
  overlayType : String := "subnet"
  peerRouterIps : List IpAddr := []
  peerRouterAsns : List UInt32 := []
  peerRouterPorts : List UInt32 := []
  peerRouterPasswords : List String := []
  peerRouterMultihopTtl : UInt8 := 0
  bgpGracefulRestart : Bool := false
  bgpGracefulRestartTime : Nat := seconds 90
  bgpGracefulRestartDeferralTime : Nat := seconds 360
  cacheSyncTimeout : Nat := seconds 60
  routesSyncPeriod : Nat := seconds 300
  iptablesSyncPeriod : Nat := seconds 300
  ipvsSyncPeriod : Nat := seconds 300
  ipvsGracefulPeriod : Nat := seconds 30
  injectedRoutesSyncPeriod : Nat := seconds 60
  loadbalancerSyncPeriod : Nat := seconds 60

/-- `Error::Config`. -/
structure ConfigError where
  message : String
deriving DecidableEq, Repr

/-- `MAX_CLUSTER_IP_RANGES`: one range per family. -/
def maxClusterIpRanges : Nat := 2

/-- `parse_cidr`: the prefix, or the text of `Error::InvalidIp`. -/
def parseCidr (parseNet : String → Except String IpNet) (s : String) : Except String IpNet :=
  (parseNet s).mapError fun reason => "invalid IP/CIDR " ++ s.quote ++ ": " ++ reason

namespace KubeRouterConfig

def reject (cond : Bool) (message : String) : Except ConfigError Unit :=
  if cond then throw ⟨message⟩ else pure ()

def isV6Only (cfg : KubeRouterConfig) : Bool := cfg.enableIpv6 && !cfg.enableIpv4

/-- The CIDR lists with their flags. -/
def cidrLists (cfg : KubeRouterConfig) : List (String × List String) :=
  [("--service-cluster-ip-range", cfg.serviceClusterIpRange),
   ("--service-external-ip-range", cfg.serviceExternalIpRange),
   ("--loadbalancer-ip-range", cfg.loadbalancerIpRange),
   ("--excluded-cidrs", cfg.excludedCidrs)]

/-- The durations that must be positive, with their flags. -/
def periods (cfg : KubeRouterConfig) : List (String × Nat) :=
  [("--cache-sync-timeout", cfg.cacheSyncTimeout),
   ("--routes-sync-period", cfg.routesSyncPeriod),
   ("--iptables-sync-period", cfg.iptablesSyncPeriod),
   ("--ipvs-sync-period", cfg.ipvsSyncPeriod),
   ("--ipvs-graceful-period", cfg.ipvsGracefulPeriod),
   ("--injected-routes-sync-period", cfg.injectedRoutesSyncPeriod),
   ("--loadbalancer-sync-period", cfg.loadbalancerSyncPeriod)]

def validateCidrs (parseNet : String → Except String IpNet) (flag : String) :
    List String → Except ConfigError Unit
  | [] => pure ()
  | c :: cs =>
    match parseCidr parseNet c with
    | .error e => throw ⟨flag ++ ": " ++ e⟩
    | .ok _ => validateCidrs parseNet flag cs

/-- The first violation found. -/
def validate (parseNet : String → Except String IpNet) (cfg : KubeRouterConfig) :
    Except ConfigError Unit := do
  reject (!(cfg.enableIpv4 || cfg.enableIpv6))
    "at least one of --enable-ipv4 or --enable-ipv6 must be true"
  cfg.cidrLists.forM fun entry => validateCidrs parseNet entry.1 entry.2
  reject (decide (cfg.serviceClusterIpRange.length > maxClusterIpRanges))
    ("--service-cluster-ip-range accepts at most " ++ toString maxClusterIpRanges ++ " entries")
  reject (cfg.runRouter && cfg.isV6Only && cfg.routerId.isEmpty)
    "--router-id is required (or \"generate\") for an IPv6-only cluster"
  reject (!(cfg.overlayEncap == "ipip" || cfg.overlayEncap == "fou"))
    ("--overlay-encap must be \"ipip\" or \"fou\", got " ++ cfg.overlayEncap.quote)
  reject (!(cfg.overlayType == "subnet" || cfg.overlayType == "full"))
    ("--overlay-type must be \"subnet\" or \"full\", got " ++ cfg.overlayType.quote)
  cfg.periods.forM fun entry => reject (entry.2 == 0) (entry.1 ++ " must be greater than 0")
  reject (!cfg.peerRouterIps.isEmpty && !cfg.peerRouterAsns.isEmpty &&
      cfg.peerRouterIps.length != cfg.peerRouterAsns.length)
    "--peer-router-ips and --peer-router-asns must have equal length"

theorem reject_ok {cond : Bool} {message : String} {u : Unit} (h : reject cond message = .ok u) :
    cond = false := by
  cases cond with
  | false => rfl
  | true => cases h

theorem forM_ok {α : Type} {f : α → Except ConfigError Unit} {l : List α} {u : Unit}
    (h : l.forM f = .ok u) : ∀ a ∈ l, f a = .ok () := by
  induction l with
  | nil => exact fun a ha => absurd ha List.not_mem_nil
  | cons b l ih =>
    have hcons : (f b >>= fun _ => l.forM f) = .ok u := h
    obtain ⟨v, hb, hrest⟩ := Collect.bind_eq_ok_iff.mp hcons
    intro a ha
    rcases List.mem_cons.mp ha with rfl | ha
    · exact hb
    · exact ih hrest a ha

/-- The checks of `validate` that the results below use. -/
theorem validate_checks {parseNet : String → Except String IpNet} {cfg : KubeRouterConfig}
    (h : cfg.validate parseNet = .ok ()) :
    (∀ entry ∈ cfg.periods, (entry.2 == 0) = false) ∧
      (!cfg.peerRouterIps.isEmpty && !cfg.peerRouterAsns.isEmpty &&
        cfg.peerRouterIps.length != cfg.peerRouterAsns.length) = false := by
  unfold validate at h
  obtain ⟨-, -, h⟩ := Collect.bind_eq_ok_iff.mp h
  obtain ⟨-, -, h⟩ := Collect.bind_eq_ok_iff.mp h
  obtain ⟨-, -, h⟩ := Collect.bind_eq_ok_iff.mp h
  obtain ⟨-, -, h⟩ := Collect.bind_eq_ok_iff.mp h
  obtain ⟨-, -, h⟩ := Collect.bind_eq_ok_iff.mp h
  obtain ⟨-, -, h⟩ := Collect.bind_eq_ok_iff.mp h
  obtain ⟨_, hperiods, h⟩ := Collect.bind_eq_ok_iff.mp h
  exact ⟨fun entry hentry => reject_ok (forM_ok hperiods entry hentry), reject_ok h⟩

theorem validate_periods {parseNet : String → Except String IpNet} {cfg : KubeRouterConfig}
    (h : cfg.validate parseNet = .ok ()) : ∀ entry ∈ cfg.periods, 0 < entry.2 := by
  intro entry hentry
  have hzero := (validate_checks h).1 entry hentry
  exact Nat.pos_of_ne_zero (by simpa using hzero)

theorem validate_peerLists {parseNet : String → Except String IpNet} {cfg : KubeRouterConfig}
    (h : cfg.validate parseNet = .ok ()) (hips : cfg.peerRouterIps ≠ [])
    (hasns : cfg.peerRouterAsns ≠ []) : cfg.peerRouterIps.length = cfg.peerRouterAsns.length := by
  have hpeers := (validate_checks h).2
  simpa [hips, hasns] using hpeers

end KubeRouterConfig

end KubeRouter.Agent
