/-
  The text of the firewall: the rule lines that `build_plan` writes (`netpol/src/synth.rs`), the
  document of `filter_restore_doc` (`netpol/src/iptables.rs`), the payload of
  `build_restore_payload` (`netpol/src/ipset.rs`), and what `iptables-restore` and `ipset restore`
  read in them.

  A rule line is the list of its words; `Text.line` puts one blank between them, as the `format!`
  calls of the source do. A match that is an empty text there is an empty list here.

  The readers take the options one by one, in any order and with their modules, as the tools do.
  Of the options only those are known that the source writes.
-/
import KubeRouter.Agent.NodePortRange
import KubeRouter.Common.Line
import KubeRouter.Netpol.Synth

namespace KubeRouter.Netpol

open Filter (Mark MarkTest)

/-- The words of a rule line. -/
abbrev Args := List String

def MARK_MATCHED : String := "0x10000/0x10000"
def MARK_ACCEPTED : String := "0x20000/0x20000"

def Side.word : Side → String
  | src => "src"
  | dst => "dst"

def Side.flag : Side → String
  | src => "-s"
  | dst => "-d"

def rejectArgs : IpFamily → Args
  | .V4 => ["REJECT", "--reject-with", "icmp-port-unreachable"]
  | .V6 => ["REJECT", "--reject-with", "icmp6-port-unreachable"]

/-- Protocol, option and type of `common_icmp_rules`. -/
def commonIcmpArgs : IpFamily → List (String × String × String)
  | .V4 => [("icmp", "--icmp-type", "echo-request"),
      ("icmp", "--icmp-type", "destination-unreachable"), ("icmp", "--icmp-type", "time-exceeded")]
  | .V6 => [("icmpv6", "--icmpv6-type", "echo-request"),
      ("icmpv6", "--icmpv6-type", "destination-unreachable"),
      ("icmpv6", "--icmpv6-type", "time-exceeded"),
      ("icmpv6", "--icmpv6-type", "neighbor-solicitation"),
      ("icmpv6", "--icmpv6-type", "neighbor-advertisement"),
      ("icmpv6", "--icmpv6-type", "echo-reply")]

/-- ` -m set --match-set <set> <side>` -/
def setMatchArgs (set : String) (side : Side) : Args := ["-m", "set", "--match-set", set, side.word]

/-- `push_policy_verdict`. -/
def verdictLines (pchain : String) (srcMatch targetMatch portMatch : Args) : List Args :=
  [["-A", pchain] ++ (srcMatch ++ targetMatch ++ portMatch) ++
     ["-j", "MARK", "--set-xmark", MARK_MATCHED],
   ["-A", pchain] ++ (srcMatch ++ targetMatch ++ portMatch) ++
     ["-m", "mark", "--mark", MARK_MATCHED, "-j", "RETURN"]]

section Emit

variable (cfg : Config) (w : PolicyWorld) (family : IpFamily)

def peerMatchArgs (dir : Direction) (pol : NetworkPolicy) (idx : Nat) (resolved : ResolvedPeers) :
    List Args :=
  if resolved.matchAll then [[]]
  else
    (if resolved.ipEntries.isEmpty then []
      else [setMatchArgs (podSet cfg family dir pol idx) dir.peerSide]) ++
    (if resolved.netEntries.isEmpty then []
      else [setMatchArgs (ipblockSet cfg family dir pol idx) dir.peerSide])

def portLines (pchain : String) (dir : Direction) (pol : NetworkPolicy) (idx : Nat)
    (recv : List Pod) (peerMatch targetMatch : Args) (port : PortSpec) : List Args :=
  match port.port with
  | .all => verdictLines pchain peerMatch targetMatch ["-p", port.protocol]
  | .number n =>
    verdictLines pchain peerMatch targetMatch ["-p", port.protocol, "--dport", toString n.toNat]
  | .name name =>
    (namedPortGroups family recv port.protocol name).zipIdx.flatMap fun g =>
      let other := match dir with | .ingress => peerMatch | .egress => targetMatch
      verdictLines pchain other (setMatchArgs (namedPortSet cfg family dir pol idx g.2) .dst)
        ["-p", port.protocol, "--dport", toString g.1.1.toNat]

def ruleLines (pchain : String) (dir : Direction) (targetSet : String) (pol : NetworkPolicy)
    (idx : Nat) (rule : PolicyRule) : List Args :=
  let targetMatch := setMatchArgs targetSet dir.targetSide
  let resolved := resolvePeers rule.peers w.pods w.namespaces pol.ns family
  let recv := receivers w family dir pol resolved
  (peerMatchArgs cfg family dir pol idx resolved).flatMap fun peerMatch =>
    if rule.ports.isEmpty then verdictLines pchain peerMatch targetMatch []
    else rule.ports.flatMap (portLines cfg family pchain dir pol idx recv peerMatch targetMatch)

/-- The rules of `emit_policy_rules`. -/
def policyRuleLines (pchain : String) (rules : List PolicyRule) (dir : Direction)
    (targetSet : String) (pol : NetworkPolicy) : List Args :=
  rules.zipIdx.flatMap fun r => ruleLines cfg w family pchain dir targetSet pol r.2 r.1

def directionLines (dir : Direction) (pol : NetworkPolicy) : List Args :=
  if dir.covers pol then
    policyRuleLines cfg w family (policyChain cfg family pol) (dir.rules pol) dir
      (targetSet cfg family dir pol) pol
  else []

def policyLines (pol : NetworkPolicy) : List Args :=
  directionLines cfg w family .ingress pol ++ directionLines cfg w family .egress pol

/-! ### Pod chains -/

def policyJumpArgs (pod : Pod) (ip : IpAddr) (pol : NetworkPolicy) : Args :=
  let pc := policyChain cfg family pol
  match pol.policyTypes.ingress, pol.policyTypes.egress with
  | true, false => ["-A", podChain cfg pod, "-d", ip.toText, "-j", pc]
  | false, true => ["-A", podChain cfg pod, "-s", ip.toText, "-j", pc]
  | _, _ => ["-A", podChain cfg pod, "-j", pc]

def defaultJumpArgs (pod : Pod) (side : Side) (ip : IpAddr) : Args :=
  ["-A", podChain cfg pod, side.flag, ip.toText, "-j", nwplcyDefault]

def dispatchLines (pod : Pod) (ip : IpAddr) : List Args :=
  (selecting w pod).map (policyJumpArgs cfg family pod ip) ++
    (if (selecting w pod).any (·.policyTypes.ingress) then []
      else [defaultJumpArgs cfg pod .dst ip]) ++
    (if (selecting w pod).any (·.policyTypes.egress) then []
      else [defaultJumpArgs cfg pod .src ip])

def podChainLines (pod : Pod) : List Args :=
  let podchain := podChain cfg pod
  [["-A", podchain, "-j", nwplcyCommon]] ++
    (podFamilyIps pod family).map (fun ip =>
      ["-A", podchain, "-m", "addrtype", "--src-type", "LOCAL", "-d", ip.toText, "-j", "ACCEPT"]) ++
    (podFamilyIps pod family).flatMap (dispatchLines cfg w family pod) ++
    [["-A", podchain, "-m", "mark", "!", "--mark", MARK_MATCHED, "-j", "NFLOG", "--nflog-group",
       "100", "-m", "limit", "--limit", "10/minute", "--limit-burst", "10"],
     ["-A", podchain, "-m", "mark", "!", "--mark", MARK_MATCHED, "-j"] ++ rejectArgs family,
     ["-A", podchain, "-j", "MARK", "--set-mark", "0/0x10000"],
     ["-A", podchain, "-j", "MARK", "--set-mark", MARK_ACCEPTED]]

def interceptLines (pod : Pod) (ip : IpAddr) : List Args :=
  let podchain := podChain cfg pod
  [["-A", routerForward, "-d", ip.toText, "-j", podchain],
   ["-A", routerOutput, "-d", ip.toText, "-j", podchain],
   ["-A", routerForward, "-m", "physdev", "--physdev-is-bridged", "-d", ip.toText, "-j",
       podchain]] ++
  [routerInput, routerForward, routerOutput].map (fun chain =>
    ["-A", chain, "-s", ip.toText, "-j", podchain]) ++
  [["-A", routerForward, "-m", "physdev", "--physdev-is-bridged", "-s", ip.toText, "-j", podchain]]

def podLines (pod : Pod) : List Args :=
  podChainLines cfg w family pod ++ (podFamilyIps pod family).flatMap (interceptLines cfg pod)

end Emit

/-! ### The fixed chains -/

section Fixed

variable (cfg : Config) (family : IpFamily)

def commonLines : List Args :=
  [["-A", nwplcyCommon, "-m", "conntrack", "--ctstate", "INVALID", "-j", "DROP"],
   ["-A", nwplcyCommon, "-m", "conntrack", "--ctstate", "RELATED,ESTABLISHED", "-j", "ACCEPT"]] ++
    (commonIcmpArgs family).map fun (proto, icmpType, kind) =>
      ["-A", nwplcyCommon, "-p", proto, icmpType, kind, "-j", "ACCEPT"]

def defaultLines : List Args :=
  [["-A", nwplcyDefault, "-j", "MARK", "--set-xmark", MARK_MATCHED]]

def nodePortReturnArgs (ports proto : String) : Args :=
  ["-A", routerInput, "-p", proto, "-m", "addrtype", "--dst-type", "LOCAL", "-m", "multiport",
    "--dports", ports, "-j", "RETURN"]

/-- The text that `validate_node_port_range` passes on. -/
def portsText (range : UInt16 × UInt16) : String := String.ofList (rangeText range)

def serviceReturnLines : List Args :=
  ((cfg.serviceClusterIpRanges.filter (·.family == family)).map fun range =>
    ["-A", routerInput, "-d", range.toText, "-j", "RETURN"]) ++
  match cfg.nodePortRange with
  | some range => ["tcp", "udp", "sctp"].map (nodePortReturnArgs (portsText range))
  | none => []

def tailLines : List Args :=
  (if cfg.defaultDeny then
    (familyCidrs cfg family).flatMap fun cidr =>
      [["-A", nwplcyTail, "-s", cidr.toText, "-m", "set", "!", "--match-set", localPodsSet family,
         "src", "-j"] ++ rejectArgs family,
       ["-A", nwplcyTail, "-d", cidr.toText, "-m", "set", "!", "--match-set", localPodsSet family,
         "dst", "-j"] ++ rejectArgs family]
   else []) ++
  [["-A", nwplcyTail, "-m", "mark", "--mark", MARK_ACCEPTED, "-j", "ACCEPT"]] ++
  (if cfg.defaultDeny then
    (familyCidrs cfg family).flatMap fun cidr =>
      [["-A", nwplcyTail, "-s", cidr.toText, "-j"] ++ rejectArgs family,
       ["-A", nwplcyTail, "-d", cidr.toText, "-j"] ++ rejectArgs family]
   else [])

def tailJumpLines : List Args :=
  [routerInput, routerForward, routerOutput].map fun c => ["-A", c, "-j", nwplcyTail]

end Fixed

/-- The rules of `build_plan`. -/
def planLines (cfg : Config) (w : PolicyWorld) (family : IpFamily) : List Args :=
  commonLines family ++ defaultLines ++ serviceReturnLines cfg family ++
    (w.policies.filter (·.active)).flatMap (policyLines cfg w family) ++
    (chainPods cfg w family).flatMap (podLines cfg w family) ++
    (tailLines cfg family ++ tailJumpLines)

/-! ## Documents and payloads -/

/-- `:<chain> - [0:0]` -/
def declArgs (chain : String) : Args := [":" ++ chain, "-", "[0:0]"]

/-- `filter_restore_doc`. -/
def filterRestoreDoc (decls rules : List Args) : String :=
  Text.unlines (["*filter"] ++ (decls ++ rules).map Text.line ++ ["COMMIT"])

def SetType.asStr : SetType → String
  | hashIp => "hash:ip"
  | hashNet => "hash:net"

def familyKw : IpFamily → String
  | .V4 => "inet"
  | .V6 => "inet6"

/-- The entries of a plan, in words: `<cidr> nomatch` for an exception. -/
def SetBody.entryArgs : SetBody → List Args
  | hashIp ips => ips.map fun ip => [ip.toText]
  | hashNet nets => nets.map fun e => if e.2 then [e.1.toText, "nomatch"] else [e.1.toText]

/-- The text of `build_restore_payload`. -/
def restorePayloadText (set : String) (family : IpFamily) (body : SetBody) : String :=
  let tmp := "TMP-" ++ set
  let typ := body.setType.asStr
  let fam := familyKw family
  Text.unlines (([["create", set, typ, "family", fam, "-exist"],
      ["create", tmp, typ, "family", fam, "-exist"], ["flush", tmp]] ++
    body.entryArgs.map (fun e => ["add", tmp] ++ e ++ ["-exist"]) ++
    [["swap", tmp, set], ["destroy", tmp]]).map Text.line)

/-! ## Reading rules -/

def readIcmpType (name : String) : Option IcmpType :=
  [("echo-request", IcmpType.echoRequest), ("destination-unreachable", .destinationUnreachable),
    ("time-exceeded", .timeExceeded), ("neighbor-solicitation", .neighborSolicitation),
    ("neighbor-advertisement", .neighborAdvertisement), ("echo-reply", .echoReply)].lookup name

def readCtstate (names : String) : Option (List CtState) :=
  (names.toList.splitOn ',').mapM fun name =>
    [("NEW", CtState.new), ("ESTABLISHED", .established), ("RELATED", .related),
      ("INVALID", .invalid)].lookup (String.ofList name)

def readSide (word : String) : Option Side := [("src", Side.src), ("dst", .dst)].lookup word

/-- Decimal, or hexadecimal behind `0x`. -/
def readMarkNumber : List Char → Option Mark
  | '0' :: 'x' :: digits =>
    if digits.all (Reader.isDigitOf 16) then some (BitVec.ofNat 32 (Reader.ofDigits 16 digits))
    else none
  | digits => (Text.parseUnsigned 4294967296 digits).map (BitVec.ofNat 32)

/-- `<value>/<mask>` -/
def readMark (text : String) : Option (Mark × Mark) := do
  let (value, mask) ← Split.once (· == '/') text.toList
  return (← readMarkNumber value, ← readMarkNumber mask)

/-- An address, or a prefix if there is a slash. -/
def readAddr (side : Side) (text : String) : Option Cond :=
  if '/' ∈ text.toList then (IpNet.parse text.toList).map (.net side)
  else (IpAddr.parse text.toList).map (.addr side)

def readPorts (text : String) : Option Cond :=
  (Text.portPair (· == ':') text.toList).map fun r => .dports r.1 r.2

/-- `<n>/minute` -/
def readRate (text : String) : Option Nat := do
  let (n, unit) ← Split.once (· == '/') text.toList
  if unit = "minute".toList then Text.parseUnsigned 4294967296 n else none

/-- What the options of a line have said. -/
structure Options where
  conds : List Cond := []
  markTest : Option MarkTest := none
  target : Option String := none
  rejectWith : Option String := none
  setXmark : Option (Mark × Mark) := none
  setMark : Option (Mark × Mark) := none
  nflogGroup : Option Nat := none

def Options.cond (o : Options) (c : Cond) : Options := { o with conds := o.conds ++ [c] }

/-- The options one after the other; a module loads silently. -/
def readOptions (o : Options) : Args → Option Options
  | [] => some o
  | "-m" :: _ :: rest => readOptions o rest
  | "-s" :: text :: rest => (readAddr .src text).bind fun c => readOptions (o.cond c) rest
  | "-d" :: text :: rest => (readAddr .dst text).bind fun c => readOptions (o.cond c) rest
  | "-p" :: proto :: rest => readOptions (o.cond (.proto proto)) rest
  | "--dport" :: n :: rest =>
    (Text.parseU16 n.toList).bind fun n => readOptions (o.cond (.dport n)) rest
  | "--dports" :: range :: rest => (readPorts range).bind fun c => readOptions (o.cond c) rest
  | "--icmp-type" :: name :: rest =>
    (readIcmpType name).bind fun k => readOptions (o.cond (.icmpType k)) rest
  | "--icmpv6-type" :: name :: rest =>
    (readIcmpType name).bind fun k => readOptions (o.cond (.icmpType k)) rest
  | "--ctstate" :: names :: rest =>
    (readCtstate names).bind fun states => readOptions (o.cond (.ctstate states)) rest
  | "--src-type" :: "LOCAL" :: rest => readOptions (o.cond (.typeLocal .src)) rest
  | "--dst-type" :: "LOCAL" :: rest => readOptions (o.cond (.typeLocal .dst)) rest
  | "--physdev-is-bridged" :: rest => readOptions (o.cond .physdevIsBridged) rest
  | "--match-set" :: set :: side :: rest =>
    (readSide side).bind fun side => readOptions (o.cond (.matchSet false set side)) rest
  | "!" :: "--match-set" :: set :: side :: rest =>
    (readSide side).bind fun side => readOptions (o.cond (.matchSet true set side)) rest
  | "--mark" :: text :: rest =>
    (readMark text).bind fun m => readOptions { o with markTest := some ⟨false, m.1, m.2⟩ } rest
  | "!" :: "--mark" :: text :: rest =>
    (readMark text).bind fun m => readOptions { o with markTest := some ⟨true, m.1, m.2⟩ } rest
  | "--limit" :: rate :: "--limit-burst" :: burst :: rest =>
    (readRate rate).bind fun r => (Text.parseUnsigned 4294967296 burst.toList).bind fun b =>
      readOptions (o.cond (.limit r b)) rest
  | "-j" :: target :: rest => readOptions { o with target := some target } rest
  | "--reject-with" :: kind :: rest => readOptions { o with rejectWith := some kind } rest
  | "--set-xmark" :: text :: rest =>
    (readMark text).bind fun m => readOptions { o with setXmark := some m } rest
  | "--set-mark" :: text :: rest =>
    (readMark text).bind fun m => readOptions { o with setMark := some m } rest
  | "--nflog-group" :: n :: rest =>
    (Text.parseUnsigned 4294967296 n.toList).bind fun n =>
      readOptions { o with nflogGroup := some n } rest
  | _ => none

/-- The target by its name and its options; any other name is a chain. -/
def Options.readTarget (o : Options) : Option (Filter.Target String) :=
  o.target.bind fun name =>
    if name = "ACCEPT" then some .accept
    else if name = "DROP" then some .drop
    else if name = "RETURN" then some .ret
    else if name = "REJECT" then o.rejectWith.map .reject
    else if name = "NFLOG" then o.nflogGroup.map .nflog
    else if name = "MARK" then
      (o.setXmark.map fun m => .setXmark m.1 m.2).or (o.setMark.map fun m => .setMark m.1 m.2)
    else some (.jump name)

def readRule : Args → Option Rule
  | "-A" :: chain :: rest =>
    (readOptions {} rest).bind fun o => o.readTarget.map fun target =>
      { chain := chain, conds := o.conds, markTest := o.markTest, target := target }
  | _ => none

/-! ## Reading documents and payloads -/

/-- A line between `*filter` and `COMMIT`: a declaration or a rule. -/
def readDocLine (acc : List String × List Rule) (args : Args) : Option (List String × List Rule) :=
  match args with
  | [] => some acc
  | w :: _ =>
    match w.toList with
    | ':' :: chain => some (acc.1 ++ [String.ofList chain], acc.2)
    | _ => (readRule args).map fun r => (acc.1, acc.2 ++ [r])

/-- The declared chains and the rules of a document. -/
def readFilterDoc (doc : String) : Option (List String × List Rule) :=
  match (Text.lines doc.toList).map String.ofList with
  | "*filter" :: body =>
    if body.getLast? = some "COMMIT" then
      (body.dropLast.map Text.words).foldlM readDocLine ([], [])
    else none
  | _ => none

def readSetType (word : String) : Option SetType :=
  [("hash:ip", SetType.hashIp), ("hash:net", .hashNet)].lookup word

def readFamily (word : String) : Option IpFamily :=
  [("inet", IpFamily.V4), ("inet6", .V6)].lookup word

/-- An entry: a prefix if there is a slash, else an address. -/
def readEntry (set text : String) (excluded : Bool) : Option IpsetCmd :=
  if '/' ∈ text.toList then (IpNet.parse text.toList).map fun net => .addNet set net excluded
  else (IpAddr.parse text.toList).map (.addIp set)

def readIpsetCmd : Args → Option IpsetCmd
  | ["create", set, typ, "family", fam, "-exist"] => do
    return .create set (← readSetType typ) (← readFamily fam)
  | ["flush", set] => some (.flush set)
  | ["add", set, entry, "-exist"] => readEntry set entry false
  | ["add", set, entry, "nomatch", "-exist"] => readEntry set entry true
  | ["swap", a, b] => some (.swap a b)
  | ["destroy", set] => some (.destroy set)
  | _ => none

def readPayload (payload : String) : Option (List IpsetCmd) :=
  ((Text.lines payload.toList).map fun l => Text.words (String.ofList l)).mapM readIpsetCmd

/-! ## The sync pass -/

/-- A call of a tool, with the text it is handed. -/
inductive TextCall where
  | ipsetRestore (payload : String)
  | restoreFilter (family : IpFamily) (doc : String)
  | ensureJump (family : IpFamily) (builtin target : String)

def TextCall.read : TextCall → Option ToolCall
  | ipsetRestore payload => (readPayload payload).map .ipsetRestore
  | restoreFilter family doc => (readFilterDoc doc).map fun d => .restoreFilter family d.1 d.2
  | ensureJump family builtin target => some (.ensureJump family builtin target)

/-- A tool that cannot read its input fails and changes nothing. -/
def TextCall.exec (k : Kernel) (c : TextCall) : Option Kernel := c.read.bind (ToolCall.exec k)

/-- Run the calls in order, up to the first one that fails. -/
def runTextCalls : List TextCall → Kernel → Kernel × Bool
  | [], k => (k, true)
  | call :: calls, k =>
    match call.exec k with
    | some k' => runTextCalls calls k'
    | none => (k, false)

/-- The chains that `build_plan` declares. -/
def planDecls (cfg : Config) (w : PolicyWorld) (family : IpFamily) : List String :=
  [routerInput, routerForward, routerOutput, nwplcyCommon, nwplcyDefault, nwplcyTail] ++
    (w.policies.filter (·.active)).map (policyChain cfg family) ++
    (chainPods cfg w family).map (podChain cfg)

def familyTextCalls (cfg : Config) (w : PolicyWorld) (family : IpFamily) : List TextCall :=
  ((buildPlan cfg w family).ipsets.map fun s =>
    .ipsetRestore (restorePayloadText s.name s.family s.body)) ++
    [.restoreFilter family
       (filterRestoreDoc ((planDecls cfg w family).map declArgs) (planLines cfg w family)),
     .ensureJump family "INPUT" routerInput,
     .ensureJump family "FORWARD" routerForward,
     .ensureJump family "OUTPUT" routerOutput]

/-- `FirewallController::reconcile`, by the texts it hands to the tools. -/
def reconcileText (cfg : Config) (families : List IpFamily) (w : PolicyWorld) (k : Kernel) :
    Kernel × Bool :=
  runTextCalls (families.flatMap (familyTextCalls cfg w)) k

end KubeRouter.Netpol
