/-
  The service proxy's sync loop (`proxy/src/sync.rs`, `proxy/src/graceful.rs`, the host side
  of `proxy/src/dsr.rs` and the clamp rule of `proxy/src/tcpmss.rs`).

  A pass is a program over a `World`: the controller's own record (`ServiceSync`), the kernel,
  the list of the calls that succeeded and the number of questions put to the environment so
  far. The environment (`Backend`) answers by that number: whether a call fails and with which
  message, what a connection count or a clock reading is. A failing call changes nothing and
  ends the pass; the record keeps what it held.

  The stages behind the IPVS sync that program other tables (hairpin, masquerade, health-check
  servers, firewall) are calls that may fail and leave the modelled tables alone. Metrics are
  one read of the service statistics.

  A run (`runPasses`) is a list of passes, each a full resync or an event pass over its own
  snapshot. The loop goes on after a pass that failed.
-/
import KubeRouter.Proxy.Desired
import KubeRouter.Proxy.Kernel

namespace KubeRouter.Proxy

open Program (Prog)

/-! ## FWMARK registry -/

/-- 32-bit FNV-1a hash. -/
def fnv1a32 (data : String) : UInt32 :=
  data.toUTF8.toList.foldl (fun h b => (h ^^^ b.toUInt32) * 0x01000193) 0x811c9dc5

def maxFwmark : UInt32 := 0x3FFF

def maxUniqueFwmarkInc : Nat := 16380

def generateFwmark (serviceKey : String) (increment : Nat) : UInt32 :=
  let s := if increment = 0 then serviceKey else serviceKey ++ "-" ++ toString increment
  fnv1a32 s &&& maxFwmark

def serviceKey (ip : String) (proto : Protocol) (port : UInt16) : String :=
  ip ++ "-" ++ protoName proto ++ "-" ++ toString port.toNat

/-- `FwMarkRegistry`: the service identity of every assigned mark. -/
abbrev FwMarkRegistry := Std.TreeMap UInt32 String

/-- The loop of `assign`: `tries` attempts are left and the salt is `increment`. -/
def assignFrom (reg : FwMarkRegistry) (key : String) : Nat → Nat → Except String UInt32
  | 0, _ =>
    .error ("could not obtain a unique FWMark for " ++ key ++ " after " ++
      toString maxUniqueFwmarkInc ++ " tries")
  | tries + 1, increment =>
    let mark := generateFwmark key increment
    match reg[mark]? with
    | some found => if found != key then assignFrom reg key tries (increment + 1) else .ok mark
    | none => .ok mark

/-- `FwMarkRegistry::assign`: the mark and the registry that holds it. -/
def FwMarkRegistry.assign (reg : FwMarkRegistry) (ip : String) (proto : Protocol)
    (port : UInt16) : Except String (UInt32 × FwMarkRegistry) := do
  let key := serviceKey ip proto port
  let mark ← assignFrom reg key maxUniqueFwmarkInc 0
  return (mark, reg.insert mark key)

/-- `dsr_mark_args`. -/
def dsrMarkArgs (ip : IpAddr) (proto : Protocol) (port : UInt16) (fwmark : UInt32) :
    List String :=
  ["-d", ip.toText, "-m", protoName proto, "-p", protoName proto, "--dport",
    toString port.toNat, "-j", "MARK", "--set-mark", toString fwmark.toNat]

/-- `mtu - (2 * ip_header + tcp_header)`. -/
def tcpMss (mtu : Int) (ipv6 : Bool) : Int :=
  let ipHeader : Int := if ipv6 then 40 else 20
  mtu - (2 * ipHeader + 20)

def tcpmssMangleArgs (ip : IpAddr) (port : UInt16) (mss : Int) : List String :=
  ["-s", ip.toText, "-m", "tcp", "-p", "tcp", "--sport", toString port.toNat, "-i",
    "kube-bridge", "--tcp-flags", "SYN,RST", "SYN", "-j", "TCPMSS", "--set-mss", toString mss]

/-! ## State -/

inductive SyncError where
  | Ipvs (msg : String)
  | Netlink (msg : String)
  | Hairpin (msg : String)
  | NodePort (msg : String)
  | Firewall (msg : String)
  | Dsr (msg : String)
deriving DecidableEq, Repr

/-- A destination drained and awaiting deletion. -/
structure PendingRemoval where
  svc : IpvsService
  dst : IpvsDestination
  deadline : Nat
deriving DecidableEq, Repr

/-- `same_dst`: one service key and one backend. -/
def PendingRemoval.sameDst (p : PendingRemoval) (svc : IpvsService) (dst : IpvsDestination) :
    Bool :=
  p.svc.key == svc.key && p.dst.same dst

/-- `GracefulQueue::enqueue`: ignored when the destination is queued already. -/
def enqueue (items : List PendingRemoval) (svc : IpvsService) (dst : IpvsDestination)
    (deadline : Nat) : List PendingRemoval :=
  if items.any (·.sameDst svc dst) then items else items ++ [⟨svc, dst, deadline⟩]

/-- The mutable part of a `ServiceSync`. -/
structure ServiceSync where
  applied : ServiceTable := ∅
  owner : Std.TreeMap String (String × String) := ∅
  boundVips : Std.TreeSet IpAddr := ∅
  gqueue : List PendingRemoval := []
  sloppyTcp : Bool := false
  dsrRegistry : FwMarkRegistry := ∅

/-- The environment. Its answers are indexed by the number of questions put so far. -/
structure Backend where
  exec : Kernel → Call → Kernel := Kernel.upsert
  /-- The message a call fails with. -/
  fails : Nat → Option String := fun _ => none
  connStats : Nat → Option (UInt32 × UInt32) := fun _ => none
  now : Nat → Nat := fun n => n
  /-- Whether a sysctl write succeeds. -/
  sysctl : Nat → Bool := fun _ => true

structure World where
  sync : ServiceSync := {}
  kernel : Kernel := {}
  /-- The calls that succeeded, in order. -/
  calls : List Call := []
  asked : Nat := 0

abbrev Pass (α : Type) := Prog World SyncError α

section Calls

variable (b : Backend)

/-- The number of the next question, which is now put. -/
def ask : Pass Nat := do
  let w ← get
  modify fun w => { w with asked := w.asked + 1 }
  return w.asked

def call (err : String → SyncError) (c : Call) : Pass Unit := do
  let n ← ask
  match b.fails n with
  | some msg => throw (err msg)
  | none => modify fun w => { w with kernel := b.exec w.kernel c, calls := w.calls ++ [c] }

def ipvs (c : Call) : Pass Unit := call b .Ipvs c

def netlink (c : Call) : Pass Unit := call b .Netlink c

def clockNow : Pass Nat := do
  let n ← ask
  return b.now n

def destConnStats (svc : IpvsService) (dst : IpvsDestination) :
    Pass (Option (UInt32 × UInt32)) := do
  let w ← get
  ipvs b (.destConnStats svc dst)
  return b.connStats w.asked

def modifySync (f : ServiceSync → ServiceSync) : Pass Unit :=
  modify fun w => { w with sync := f w.sync }

/-! ## Programming services and destinations -/

/-- `net.ipv4.vs.sloppy_tcp`, written on change only. An error is logged and retried by the
next pass. -/
def toggleSloppyTcp (want : Bool) : Pass Unit := do
  let w ← get
  if want != w.sync.sloppyTcp then
    let n ← ask
    if b.sysctl n then modifySync fun s => { s with sloppyTcp := want } else pure ()
  else pure ()

def programDestination (full : Bool) (isvc : IpvsService) (prevDests : List IpvsDestination)
    (d : IpvsDestination) : Pass Unit :=
  if full then ipvs b (.addDestination isvc d)
  else
    match prevDests.find? (fun o => o.addr == d.addr && o.port == d.port) with
    | some o => if o = d then pure () else ipvs b (.updateDestination isvc d)
    | none => ipvs b (.addDestination isvc d)

/-- A service whose parameters changed is edited in place; an unchanged one is added again by
a full resync only. -/
def addOrEditService (full : Bool) (applied : ServiceTable) (key : String) (isvc : IpvsService) :
    Pass Unit :=
  match applied[key]? with
  | some (p, _) =>
    if p ≠ isvc then ipvs b (.editService isvc)
    else if full then ipvs b (.addService isvc)
    else pure ()
  | none => ipvs b (.addService isvc)

/-- One entry of the add/update loop. -/
def programService (full : Bool) (applied : ServiceTable) (item : String × Entry) :
    Pass Unit := do
  addOrEditService b full applied item.1 item.2.1
  item.2.2.forM (programDestination b full item.2.1 (destsOf applied item.1))

/-- Recorded destinations of services still desired that lost their endpoint. -/
def staleDests (applied desired : ServiceTable) : List (IpvsService × IpvsDestination) :=
  desired.toList.flatMap fun (k, (isvc, ds)) =>
    ((destsOf applied k).filter fun old => !ds.any (·.same old)).map fun old => (isvc, old)

/-- Recorded services no longer desired. -/
def removedSvcs (applied desired : ServiceTable) : List IpvsService :=
  (applied.toList.filter fun item => !desired.contains item.1).map (·.2.1)

def flushUdp (svc : IpvsService) : Pass Unit :=
  if svc.protocol = .Udp then ipvs b (.flushConntrackUdp svc.addr svc.port) else pure ()

/-- Set the weight to 0 and queue the destination for deletion. -/
def drainDestination (cfg : Config) (svc : IpvsService) (dst : IpvsDestination) :
    Pass Unit := do
  let draining := { dst with weight := 0 }
  ipvs b (.updateDestination svc draining)
  let now ← clockNow b
  modifySync fun s =>
    { s with gqueue := enqueue s.gqueue svc draining (now + cfg.gracefulPeriod) }

/-- Drain and queue under graceful termination, delete otherwise. -/
def removeDestination (cfg : Config) (svc : IpvsService) (dst : IpvsDestination) :
    Pass Unit := do
  if cfg.graceful then drainDestination b cfg svc dst else ipvs b (.delDestination svc dst)
  flushUdp b svc

def removeService (svc : IpvsService) : Pass Unit := do
  ipvs b (.delService svc)
  flushUdp b svc

def bindVip (bound : Std.TreeSet IpAddr) (vip : IpAddr) : Pass Unit :=
  if !bound.contains vip then netlink b (.addrAdd dummyIf vip (prefixLen vip)) else pure ()

def unbindVip (vip : IpAddr) : Pass Unit :=
  netlink b (.addrDel dummyIf vip (prefixLen vip))

/-! ## Graceful queue -/

/-- The endpoint of a drained destination became ready again. -/
def readded (applied : ServiceTable) (p : PendingRemoval) : Bool :=
  (destsOf applied (svcKey p.svc)).any fun d => d.same p.dst && d.weight != 0

def processPending (now : Nat) (p : PendingRemoval) : Pass Unit := do
  let w ← get
  if readded w.sync.applied p then pure ()
  else
    let stats ← destConnStats b p.svc p.dst
    if stats == some (0, 0) || now ≥ p.deadline then ipvs b (.delDestination p.svc p.dst)
    else modifySync fun s => { s with gqueue := s.gqueue ++ [p] }

def processGracefulQueue : Pass Unit := do
  let w ← get
  if w.sync.gqueue.isEmpty then pure ()
  else
    let now ← clockNow b
    modifySync fun s => { s with gqueue := [] }
    w.sync.gqueue.forM (processPending b now)

/-! ## Later stages -/

def updateMetrics (cfg : Config) : Pass Unit :=
  if cfg.metrics then ipvs b .serviceStats else pure ()

/-- Errors of the DSR stage carry the text of the error they wrap. -/
def dsrIpvs (c : Call) : Pass Unit := call b (fun msg => .Dsr ("ipvs error: " ++ msg)) c

def dsrMangle (c : Call) : Pass Unit := call b (fun msg => .Dsr ("mangle error: " ++ msg)) c

/-- One VIP of `configure_dsr_host`. -/
def configureDsrVip (ipv6 : Bool) (job : DsrJob) (vip : IpAddr) : Pass Unit := do
  let w ← get
  match w.sync.dsrRegistry.assign vip.toText job.protocol job.port with
  | .error msg => throw (.Dsr msg)
  | .ok (fwmark, reg) =>
    modifySync fun s => { s with dsrRegistry := reg }
    dsrIpvs b (.addFwmarkService fwmark job.scheduler job.persistent)
    (job.endpoints.filter (·.ready)).forM fun ep =>
      dsrIpvs b (.addFwmarkDestination fwmark
        { addr := ep.ip, port := ep.port, weight := 1, tunnel := true })
    let markRule := dsrMarkArgs vip job.protocol job.port fwmark
    dsrMangle b (.mangleAppend ipv6 "PREROUTING" markRule)
    dsrMangle b (.mangleAppend ipv6 "OUTPUT" markRule)

def ensureTcpmss (ipv6 : Bool) (ip : IpAddr) (port : UInt16) (mtu : Int) : Pass Unit :=
  dsrMangle b (.mangleAppend ipv6 "PREROUTING"
    (tcpmssMangleArgs ip port (tcpMss mtu ip.isIpv6)))

def processDsrJob (cfg : Config) (job : DsrJob) (ipv6 : Bool) : Pass Unit := do
  let vips := job.vips.filter fun v => v.isIpv6 == ipv6
  vips.forM (configureDsrVip b ipv6 job)
  vips.forM fun vip => ensureTcpmss b ipv6 vip job.port cfg.dsrMtu

def processDsrJobs (cfg : Config) (jobs : List DsrJob) : Pass Unit :=
  jobs.forM fun job => cfg.dsrMangle.forM (processDsrJob b cfg job)

/-- The stages that program other tables. -/
def syncOthers : Pass Unit := do
  call b .Hairpin .syncHairpin
  call b .Hairpin .syncMasquerade
  call b .NodePort .syncNodeportHealthchecks
  call b .Firewall .syncFirewall

/-! ## A pass -/

/-- The writes that take the recorded tables `s` to the desired ones `D`. -/
def programTables (cfg : Config) (full : Bool) (s : ServiceSync) (D : Desired) : Pass Unit := do
  D.services.toList.forM (programService b full s.applied)
  (staleDests s.applied D.services).forM fun item => removeDestination b cfg item.1 item.2
  (removedSvcs s.applied D.services).forM (removeService b)
  D.wantVips.toList.forM (bindVip b s.boundVips)
  (s.boundVips.toList.filter fun v => !D.wantVips.contains v).forM (unbindVip b)

/-- The stages behind the graceful queue. -/
def laterStages (cfg : Config) (D : Desired) : Pass Unit := do
  updateMetrics b cfg
  processDsrJobs b cfg D.dsrJobs
  syncOthers b

def reconcileInner (cfg : Config) (full : Bool) (snapshot : Snapshot) : Pass Unit := do
  netlink b (.ensureDummyLink dummyIf)
  let D := desired cfg snapshot
  toggleSloppyTcp b D.wantSloppyTcp
  let w ← get
  programTables b cfg full w.sync D
  modifySync fun s =>
    { s with applied := D.services, boundVips := D.wantVips, owner := D.owner }
  processGracefulQueue b
  laterStages b cfg D

/-- The state after a pass, failed or not. -/
def passWorld (cfg : Config) (w : World) (pass : Bool × Snapshot) : World :=
  (Prog.exec (reconcileInner b cfg pass.1 pass.2) w).2

/-- The state after a list of passes. -/
def runPasses (cfg : Config) (passes : List (Bool × Snapshot)) (w : World) : World :=
  passes.foldl (passWorld b cfg) w

end Calls

end KubeRouter.Proxy
