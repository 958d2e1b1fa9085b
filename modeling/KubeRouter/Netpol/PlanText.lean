/-
  What the tools read in the texts of a firewall sync is the plan.

  `ReadsConds`, `ReadsTarget` and `ReadsLine` say of a piece of a line what is read in it,
  whatever stands behind; they are closed under putting pieces together, so that the rules of a
  plan follow the functions that write them.

  Proved:
  * `readPayload_text`: the payload of every set.
  * `readFilterDoc_text`: a document of declarations and rules.
  * `reads_planLines`: the rules of every plan.
  * `reconcile_text`: a sync by its texts is the sync of the plans.
-/
import KubeRouter.Netpol.Footprint
import KubeRouter.Netpol.RuleText
import KubeRouter.Netpol.Sets

namespace KubeRouter.Netpol

open Filter (Mark MarkTest)
open Text (isToken)

def Tokens (args : Args) : Prop := ∀ w ∈ args, isToken w = true

theorem tokens_nil : Tokens [] := fun _ h => absurd h List.not_mem_nil

theorem Tokens.cons {w : String} {args : Args} (hw : isToken w = true) (h : Tokens args) :
    Tokens (w :: args) := List.forall_mem_cons.mpr ⟨hw, h⟩

theorem Tokens.append {a b : Args} (ha : Tokens a) (hb : Tokens b) : Tokens (a ++ b) :=
  List.forall_mem_append.mpr ⟨ha, hb⟩

/-! ## Conditions -/

/-- The conditions that are read in a piece of a line. -/
structure ReadsConds (args : Args) (conds : List Cond) : Prop where
  tokens : Tokens args
  read : ∀ o rest, readOptions o (args ++ rest) =
    readOptions { o with conds := o.conds ++ conds } rest

namespace ReadsConds

theorem nil : ReadsConds [] [] where
  tokens := tokens_nil
  read o rest := by rw [List.append_nil]; rfl

theorem append {a b : Args} {c d : List Cond} (ha : ReadsConds a c) (hb : ReadsConds b d) :
    ReadsConds (a ++ b) (c ++ d) where
  tokens := ha.tokens.append hb.tokens
  read o rest := by
    rw [List.append_assoc, ha.read, hb.read]
    simp only [List.append_assoc]

theorem readAddr_addr (side : Side) (ip : IpAddr) :
    readAddr side ip.toText = some (.addr side ip) := by
  unfold readAddr
  rw [if_neg (IpNet.slash_not_mem ip), IpAddr.parse_toText]
  rfl

theorem slash_mem (net : IpNet) : '/' ∈ net.toText.toList := by
  rw [IpNet.toList_toText]
  simp

theorem readAddr_net (side : Side) (net : IpNet) :
    readAddr side net.toText = some (.net side net) := by
  unfold readAddr
  rw [if_pos (slash_mem net), IpNet.parse_toText]
  rfl

theorem readOptions_flag (o : Options) (side : Side) (text : String) (rest : Args) :
    readOptions o (side.flag :: text :: rest) =
      (readAddr side text).bind fun c => readOptions (o.cond c) rest := by
  cases side with
  | src => rfl
  | dst => rfl

theorem addr (side : Side) (ip : IpAddr) : ReadsConds [side.flag, ip.toText] [.addr side ip] where
  tokens := .cons (by cases side <;> decide) (.cons (isToken_addrText ip) tokens_nil)
  read o rest := by
    show readOptions o (side.flag :: ip.toText :: rest) = _
    rw [readOptions_flag, readAddr_addr]
    rfl

theorem net (side : Side) (cidr : IpNet) :
    ReadsConds [side.flag, cidr.toText] [.net side cidr] where
  tokens := .cons (by cases side <;> decide) (.cons (IpNet.isToken_toText cidr) tokens_nil)
  read o rest := by
    show readOptions o (side.flag :: cidr.toText :: rest) = _
    rw [readOptions_flag, readAddr_net]
    rfl

theorem readSide_word (side : Side) : readSide side.word = some side := by
  cases side <;> decide

theorem setMatch {set : String} (hset : isToken set = true) (side : Side) :
    ReadsConds (setMatchArgs set side) [.matchSet false set side] where
  tokens := .cons (by decide) (.cons (by decide) (.cons (by decide) (.cons hset
    (.cons (by cases side <;> decide) tokens_nil))))
  read o rest := by
    show (readSide side.word).bind (fun side =>
      readOptions (o.cond (.matchSet false set side)) rest) = _
    rw [readSide_word]
    rfl

theorem notSetMatch {set : String} (hset : isToken set = true) (side : Side) :
    ReadsConds ["-m", "set", "!", "--match-set", set, side.word] [.matchSet true set side] where
  tokens := .cons (by decide) (.cons (by decide) (.cons (by decide) (.cons (by decide) (.cons hset
    (.cons (by cases side <;> decide) tokens_nil)))))
  read o rest := by
    show (readSide side.word).bind (fun side =>
      readOptions (o.cond (.matchSet true set side)) rest) = _
    rw [readSide_word]
    rfl

theorem proto {p : String} (hp : isToken p = true) : ReadsConds ["-p", p] [.proto p] where
  tokens := .cons (by decide) (.cons hp tokens_nil)
  read o rest := rfl

theorem dport (n : UInt16) : ReadsConds ["--dport", toString n.toNat] [.dport n] where
  tokens := .cons (by decide) (.cons (isToken_nat _) tokens_nil)
  read o rest := by
    have hn : Text.parseU16 (Nat.toDigits 10 n.toNat) = some n := by
      unfold Text.parseU16
      rw [Text.parseUnsigned_toDigits n.toNat_lt, Option.map_some, UInt16.ofNat_toNat]
    have hstep : readOptions o ("--dport" :: toString n.toNat :: rest) =
        (Text.parseU16 (toString n.toNat).toList).bind fun n =>
          readOptions (o.cond (.dport n)) rest := rfl
    have htext : (toString n.toNat).toList = Nat.toDigits 10 n.toNat := by simp
    show readOptions o ("--dport" :: toString n.toNat :: rest) = _
    rw [hstep, htext, hn]
    rfl

theorem fixed {args : Args} {conds : List Cond} (ht : args.all isToken = true)
    (hread : ∀ o rest, readOptions o (args ++ rest) =
      readOptions { o with conds := o.conds ++ conds } rest) : ReadsConds args conds :=
  ⟨List.all_eq_true.mp ht, hread⟩

theorem srcLocal : ReadsConds ["-m", "addrtype", "--src-type", "LOCAL"] [.typeLocal .src] :=
  fixed (by decide) fun _ _ => rfl

theorem dstLocal : ReadsConds ["-m", "addrtype", "--dst-type", "LOCAL"] [.typeLocal .dst] :=
  fixed (by decide) fun _ _ => rfl

theorem bridged : ReadsConds ["-m", "physdev", "--physdev-is-bridged"] [.physdevIsBridged] :=
  fixed (by decide) fun _ _ => rfl

theorem icmpType {name : String} {k : IcmpType} (hname : isToken name = true)
    (hread : readIcmpType name = some k) : ReadsConds ["--icmp-type", name] [.icmpType k] where
  tokens := .cons (by decide) (.cons hname tokens_nil)
  read o rest := by
    show (readIcmpType name).bind (fun k => readOptions (o.cond (.icmpType k)) rest) = _
    rw [hread]
    rfl

theorem icmpv6Type {name : String} {k : IcmpType} (hname : isToken name = true)
    (hread : readIcmpType name = some k) : ReadsConds ["--icmpv6-type", name] [.icmpType k] where
  tokens := .cons (by decide) (.cons hname tokens_nil)
  read o rest := by
    show (readIcmpType name).bind (fun k => readOptions (o.cond (.icmpType k)) rest) = _
    rw [hread]
    rfl

theorem invalid : ReadsConds ["-m", "conntrack", "--ctstate", "INVALID"] [.ctstate [.invalid]] :=
  fixed (by decide) fun _ _ => rfl

theorem tracked : ReadsConds ["-m", "conntrack", "--ctstate", "RELATED,ESTABLISHED"]
    [.ctstate [.related, .established]] := fixed (by decide) fun _ _ => rfl

/-- A digit is no separator. -/
theorem isToken_portsText (range : UInt16 × UInt16) : isToken (portsText range) = true := by
  have hlist : (portsText range).toList = rangeText range := String.toList_ofList
  refine Text.isToken_of_chars ?_ fun c hc => ?_
  · rw [hlist]
    exact List.append_ne_nil_of_left_ne_nil Nat.toDigits_ne_nil _
  · rw [hlist] at hc
    obtain hc | hc := List.mem_append.mp hc
    · exact Text.isWhiteSpace_of_isDigit (Text.isDigit_of_mem_toDigits hc)
    · obtain rfl | hc := List.mem_cons.mp hc
      · rfl
      · exact Text.isWhiteSpace_of_isDigit (Text.isDigit_of_mem_toDigits hc)

theorem dports (range : UInt16 × UInt16) :
    ReadsConds ["-m", "multiport", "--dports", portsText range] [.dports range.1 range.2] where
  tokens := .cons (by decide) (.cons (by decide) (.cons (by decide)
    (.cons (isToken_portsText range) tokens_nil)))
  read o rest := by
    have hports : readPorts (portsText range) = some (.dports range.1 range.2) := by
      unfold readPorts portsText
      rw [String.toList_ofList, Agent.portPair_rangeText]
      rfl
    show (readPorts (portsText range)).bind (fun c => readOptions (o.cond c) rest) = _
    rw [hports]
    rfl

end ReadsConds

/-! ## Targets -/

/-- What is read in the end of a line: a mark test, conditions and a target. -/
structure ReadsTarget (args : Args) (test : Option MarkTest) (extra : List Cond)
    (target : Filter.Target String) : Prop where
  tokens : Tokens args
  read : ∀ conds, ∃ o, readOptions { conds := conds } args = some o ∧ o.conds = conds ++ extra ∧
    o.markTest = test ∧ o.readTarget = some target

/-- A chain of this firewall; the targets of iptables have other names. -/
structure IsChain (chain : String) : Prop where
  token : isToken chain = true
  head : chain.toList.head? = some 'K'

theorem IsChain.ne {chain name : String} (h : IsChain chain)
    (hname : name.toList.head? ≠ some 'K') :
    chain ≠ name := by
  rintro rfl
  exact hname h.head

namespace ReadsTarget

theorem fixed {args : Args} {test : Option MarkTest} {target : Filter.Target String}
    (ht : args.all isToken = true)
    (hread : ∀ conds, ∃ o, readOptions { conds := conds } args = some o ∧ o.conds = conds ∧
      o.markTest = test ∧ o.readTarget = some target) : ReadsTarget args test [] target where
  tokens := List.all_eq_true.mp ht
  read conds := by
    rw [List.append_nil]
    exact hread conds

theorem accept : ReadsTarget ["-j", "ACCEPT"] none [] .accept :=
  fixed (by decide) fun _ => ⟨_, rfl, rfl, rfl, rfl⟩

theorem drop : ReadsTarget ["-j", "DROP"] none [] .drop :=
  fixed (by decide) fun _ => ⟨_, rfl, rfl, rfl, rfl⟩

theorem ret : ReadsTarget ["-j", "RETURN"] none [] .ret :=
  fixed (by decide) fun _ => ⟨_, rfl, rfl, rfl, rfl⟩

theorem retMatched : ReadsTarget ["-m", "mark", "--mark", MARK_MATCHED, "-j", "RETURN"]
    (some (hasMark markMatched)) [] .ret := fixed (by decide) fun _ => ⟨_, rfl, rfl, rfl, rfl⟩

theorem acceptAccepted : ReadsTarget ["-m", "mark", "--mark", MARK_ACCEPTED, "-j", "ACCEPT"]
    (some (hasMark markAccepted)) [] .accept := fixed (by decide) fun _ => ⟨_, rfl, rfl, rfl, rfl⟩

theorem setMatched : ReadsTarget ["-j", "MARK", "--set-xmark", MARK_MATCHED] none []
    (.setXmark markMatched markMatched) := fixed (by decide) fun _ => ⟨_, rfl, rfl, rfl, rfl⟩

theorem clearMatched : ReadsTarget ["-j", "MARK", "--set-mark", "0/0x10000"] none []
    (.setMark 0 markMatched) := fixed (by decide) fun _ => ⟨_, rfl, rfl, rfl, rfl⟩

theorem setAccepted : ReadsTarget ["-j", "MARK", "--set-mark", MARK_ACCEPTED] none []
    (.setMark markAccepted markAccepted) := fixed (by decide) fun _ => ⟨_, rfl, rfl, rfl, rfl⟩

theorem reject (family : IpFamily) :
    ReadsTarget (["-j"] ++ rejectArgs family) none [] (rejectTarget family) := by
  cases family with
  | V4 => exact fixed (by decide) fun _ => ⟨_, rfl, rfl, rfl, rfl⟩
  | V6 => exact fixed (by decide) fun _ => ⟨_, rfl, rfl, rfl, rfl⟩

theorem rejectUnmatched (family : IpFamily) :
    ReadsTarget (["-m", "mark", "!", "--mark", MARK_MATCHED, "-j"] ++ rejectArgs family)
      (some (lacksMark markMatched)) [] (rejectTarget family) := by
  cases family with
  | V4 => exact fixed (by decide) fun _ => ⟨_, rfl, rfl, rfl, rfl⟩
  | V6 => exact fixed (by decide) fun _ => ⟨_, rfl, rfl, rfl, rfl⟩

/-- The rate stands behind the target. -/
theorem nflog : ReadsTarget ["-m", "mark", "!", "--mark", MARK_MATCHED, "-j", "NFLOG",
    "--nflog-group", "100", "-m", "limit", "--limit", "10/minute", "--limit-burst", "10"]
    (some (lacksMark markMatched)) [.limit 10 10] (.nflog 100) where
  tokens := List.all_eq_true.mp (by decide)
  read _ := ⟨_, rfl, rfl, rfl, rfl⟩

theorem jump {chain : String} (h : IsChain chain) :
    ReadsTarget ["-j", chain] none [] (.jump chain) where
  tokens := .cons (by decide) (.cons h.token tokens_nil)
  read conds := by
    refine ⟨_, rfl, (List.append_nil conds).symm, rfl, ?_⟩
    unfold Options.readTarget
    rw [Option.bind_some, if_neg (h.ne (by decide)), if_neg (h.ne (by decide)),
      if_neg (h.ne (by decide)), if_neg (h.ne (by decide)), if_neg (h.ne (by decide)),
      if_neg (h.ne (by decide))]

end ReadsTarget

/-! ## Lines -/

structure ReadsLine (args : Args) (r : Rule) : Prop where
  tokens : Tokens args
  read : readRule args = some r

/-- Line by line. -/
abbrev ReadsLines (ls : List Args) (rs : List Rule) : Prop := List.Forall₂ ReadsLine ls rs

/-- A line is a chain, conditions and an end. -/
theorem readsLine {chain : String} {args tail : Args} {conds extra : List Cond}
    {test : Option MarkTest} {target : Filter.Target String} (hchain : IsChain chain)
    (hargs : ReadsConds args conds) (htail : ReadsTarget tail test extra target) :
    ReadsLine (["-A", chain] ++ args ++ tail)
      { chain := chain, conds := conds ++ extra, markTest := test, target := target } where
  tokens := (Tokens.append (.cons (by decide) (.cons hchain.token tokens_nil)) hargs.tokens).append
    htail.tokens
  read := by
    obtain ⟨o, ho, hconds, htest, htarget⟩ := htail.read conds
    have hread : readOptions {} (args ++ tail) = some o := by
      rw [hargs.read]
      exact ho
    show (readOptions {} (args ++ tail)).bind _ = _
    rw [hread, Option.bind_some, htarget, Option.map_some, hconds, htest]

namespace ReadsLines

theorem append {ls ls' : List Args} {rs rs' : List Rule} (h : ReadsLines ls rs)
    (h' : ReadsLines ls' rs') : ReadsLines (ls ++ ls') (rs ++ rs') := List.rel_append h h'

theorem one {args : Args} {r : Rule} (h : ReadsLine args r) : ReadsLines [args] [r] := .cons h .nil

theorem map {α : Type} {xs : List α} {f : α → Args} {g : α → Rule}
    (h : ∀ x ∈ xs, ReadsLine (f x) (g x)) : ReadsLines (xs.map f) (xs.map g) := by
  induction xs with
  | nil => exact .nil
  | cons x xs ih =>
    exact .cons (h x List.mem_cons_self) (ih fun y hy => h y (List.mem_cons_of_mem x hy))

theorem flatMap {α : Type} {xs : List α} {f : α → List Args} {g : α → List Rule}
    (h : ∀ x ∈ xs, ReadsLines (f x) (g x)) : ReadsLines (xs.flatMap f) (xs.flatMap g) := by
  induction xs with
  | nil => exact .nil
  | cons x xs ih =>
    rw [List.flatMap_cons, List.flatMap_cons]
    exact (h x List.mem_cons_self).append (ih fun y hy => h y (List.mem_cons_of_mem x hy))

end ReadsLines

/-! ## The rules of a plan -/

/-- Digests and protocol names are single words. -/
structure PlainWords (cfg : Config) (w : PolicyWorld) : Prop where
  hash16 : ∀ key, isToken (cfg.hash16 key) = true
  protocol : ∀ pol ∈ w.policies, ∀ rule ∈ pol.ingress ++ pol.egress, ∀ port ∈ rule.ports,
    isToken port.protocol = true

section Plan

variable {cfg : Config} {w : PolicyWorld} {family : IpFamily}

theorem isToken_prefixed {front key : String} (hfront : isToken front = true)
    (hhash : ∀ key, isToken (cfg.hash16 key) = true) : isToken (front ++ cfg.hash16 key) = true :=
  Text.isToken_append hfront (hhash key)

theorem isChain_policyChain (hhash : ∀ key, isToken (cfg.hash16 key) = true) (pol : NetworkPolicy) :
    IsChain (policyChain cfg family pol) where
  token := isToken_prefixed (by decide) hhash
  head := by
    unfold policyChain networkPolicyChain
    rw [String.toList_append, List.head?_append_of_ne_nil _ (by decide)]
    rfl

theorem isChain_podChain (hhash : ∀ key, isToken (cfg.hash16 key) = true) (pod : Pod) :
    IsChain (podChain cfg pod) where
  token := isToken_prefixed (by decide) hhash
  head := by
    unfold podChain podFirewallChain
    rw [String.toList_append, List.head?_append_of_ne_nil _ (by decide)]
    rfl

theorem isChain_fixed : ∀ chain ∈ [routerInput, routerForward, routerOutput, nwplcyCommon,
    nwplcyDefault, nwplcyTail], IsChain chain := by
  intro chain h
  have hall : ∀ c ∈ [routerInput, routerForward, routerOutput, nwplcyCommon, nwplcyDefault,
      nwplcyTail], isToken c = true ∧ c.toList.head? = some 'K' := by decide
  exact ⟨(hall chain h).1, (hall chain h).2⟩

theorem isToken_podSet (hhash : ∀ key, isToken (cfg.hash16 key) = true) (dir : Direction)
    (pol : NetworkPolicy) (idx : Nat) : isToken (podSet cfg family dir pol idx) = true := by
  cases dir <;> exact isToken_prefixed (by decide) hhash

theorem isToken_ipblockSet (hhash : ∀ key, isToken (cfg.hash16 key) = true) (dir : Direction)
    (pol : NetworkPolicy) (idx : Nat) : isToken (ipblockSet cfg family dir pol idx) = true := by
  cases dir <;> exact isToken_prefixed (by decide) hhash

theorem isToken_namedPortSet (hhash : ∀ key, isToken (cfg.hash16 key) = true) (dir : Direction)
    (pol : NetworkPolicy) (idx ep : Nat) :
    isToken (namedPortSet cfg family dir pol idx ep) = true := by
  cases dir <;> exact isToken_prefixed (by decide) hhash

theorem isToken_localPodsSet (family : IpFamily) : isToken (localPodsSet family) = true := by
  cases family <;> decide

theorem isToken_targetSet (hhash : ∀ key, isToken (cfg.hash16 key) = true) (dir : Direction)
    (pol : NetworkPolicy) : isToken (targetSet cfg family dir pol) = true := by
  cases dir <;> exact isToken_prefixed (by decide) hhash

/-! ### Policy chains -/

theorem reads_verdictLines {pchain : String} {a b c : Args} {src target port : List Cond}
    (hchain : IsChain pchain) (ha : ReadsConds a src) (hb : ReadsConds b target)
    (hc : ReadsConds c port) :
    ReadsLines (verdictLines pchain a b c) (pushPolicyVerdict pchain src target port).rules := by
  have hconds := (ha.append hb).append hc
  have hmark := readsLine hchain hconds .setMatched
  have hret := readsLine hchain hconds .retMatched
  rw [List.append_nil] at hmark hret
  exact .cons hmark (.cons hret .nil)

theorem reads_peerMatches (hhash : ∀ key, isToken (cfg.hash16 key) = true) (dir : Direction)
    (pol : NetworkPolicy) (idx : Nat) (resolved : ResolvedPeers) :
    List.Forall₂ ReadsConds (peerMatchArgs cfg family dir pol idx resolved)
      (peerMatches cfg family dir pol idx resolved) := by
  have hpodSet : isToken (podSet cfg family dir pol idx) = true := isToken_podSet hhash dir pol idx
  have hblockSet : isToken (ipblockSet cfg family dir pol idx) = true :=
    isToken_ipblockSet hhash dir pol idx
  have hpod := ReadsConds.setMatch hpodSet dir.peerSide
  have hblock := ReadsConds.setMatch hblockSet dir.peerSide
  unfold peerMatchArgs peerMatches
  cases resolved.matchAll with
  | true => exact .cons .nil .nil
  | false =>
    refine List.rel_append ?_ ?_
    · cases resolved.ipEntries.isEmpty with
      | true => exact .nil
      | false => exact .cons hpod .nil
    · cases resolved.netEntries.isEmpty with
      | true => exact .nil
      | false => exact .cons hblock .nil

theorem reads_portLines (hhash : ∀ key, isToken (cfg.hash16 key) = true) {pchain : String}
    (hchain : IsChain pchain) (dir : Direction) (pol : NetworkPolicy) (idx : Nat) (recv : List Pod)
    {a b : Args} {peer target : List Cond} (ha : ReadsConds a peer) (hb : ReadsConds b target)
    {port : PortSpec} (hport : isToken port.protocol = true) :
    ReadsLines (portLines cfg family pchain dir pol idx recv a b port)
      (emitPort cfg family pchain dir pol idx recv peer target port).rules := by
  obtain ⟨protocol, ref⟩ := port
  have hnumber := fun n => (ReadsConds.proto hport).append (ReadsConds.dport n)
  cases ref with
  | all => exact reads_verdictLines hchain ha hb (.proto hport)
  | number n => exact reads_verdictLines hchain ha hb (hnumber n)
  | name name =>
    refine ReadsLines.flatMap fun g _ => ?_
    have htoken : isToken (namedPortSet cfg family dir pol idx g.2) = true :=
      isToken_namedPortSet hhash dir pol idx g.2
    have hset := ReadsConds.setMatch htoken .dst
    cases dir with
    | ingress => exact reads_verdictLines hchain ha hset (hnumber g.1.1)
    | egress => exact reads_verdictLines hchain hb hset (hnumber g.1.1)

theorem reads_ruleLines (hhash : ∀ key, isToken (cfg.hash16 key) = true) {pchain : String}
    (hchain : IsChain pchain) (dir : Direction) {set : String} (hset : isToken set = true)
    (pol : NetworkPolicy) (idx : Nat) {rule : PolicyRule}
    (hports : ∀ port ∈ rule.ports, isToken port.protocol = true) :
    ReadsLines (ruleLines cfg w family pchain dir set pol idx rule)
      (emitRule cfg w family pchain dir set pol idx rule).rules := by
  have htarget := ReadsConds.setMatch hset dir.targetSide
  have hpeers : List.Forall₂ ReadsConds
      (peerMatchArgs cfg family dir pol idx
        (resolvePeers rule.peers w.pods w.namespaces pol.ns family))
      (peerMatches cfg family dir pol idx
        (resolvePeers rule.peers w.pods w.namespaces pol.ns family)) :=
    reads_peerMatches hhash dir pol idx _
  have hmatch : ∀ a peer, ReadsConds a peer → ReadsLines
      (if rule.ports.isEmpty then verdictLines pchain a (setMatchArgs set dir.targetSide) []
        else rule.ports.flatMap (portLines cfg family pchain dir pol idx
          (receivers w family dir pol (resolvePeers rule.peers w.pods w.namespaces pol.ns family)) a
          (setMatchArgs set dir.targetSide)))
      (if rule.ports.isEmpty then
        pushPolicyVerdict pchain peer [.matchSet false set dir.targetSide] []
        else FirewallPlan.collect rule.ports (emitPort cfg family pchain dir pol idx
          (receivers w family dir pol
            (resolvePeers rule.peers w.pods w.namespaces pol.ns family)) peer
          [.matchSet false set dir.targetSide])).rules := by
    intro a peer ha
    split
    · exact reads_verdictLines hchain ha htarget .nil
    · exact ReadsLines.flatMap fun port hport =>
        reads_portLines hhash hchain dir pol idx _ ha htarget (hports port hport)
  exact List.rel_flatMap hpeers hmatch

theorem reads_policyLines (hplain : PlainWords cfg w) {pol : NetworkPolicy}
    (hpol : pol ∈ w.policies) :
    ReadsLines (policyLines cfg w family pol) (policyPlan cfg w family pol).rules := by
  have hdir : ∀ dir : Direction, ReadsLines (directionLines cfg w family dir pol)
      (directionPlan cfg w family dir pol).rules := by
    intro dir
    unfold directionLines directionPlan
    cases dir.covers pol with
    | false => exact .nil
    | true =>
      refine ReadsLines.flatMap fun r hr => ?_
      refine reads_ruleLines hplain.hash16 (isChain_policyChain hplain.hash16 pol) dir
        (isToken_targetSet hplain.hash16 dir pol) pol r.2 (hplain.protocol pol hpol r.1 ?_)
      have hmem : r.1 ∈ dir.rules pol := List.fst_mem_of_mem_zipIdx hr
      cases dir with
      | ingress => exact List.mem_append_left _ hmem
      | egress => exact List.mem_append_right _ hmem
  exact (hdir .ingress).append (hdir .egress)

/-! ### Pod chains -/

theorem reads_policyJump (hhash : ∀ key, isToken (cfg.hash16 key) = true) (pod : Pod) (ip : IpAddr)
    (pol : NetworkPolicy) :
    ReadsLine (policyJumpArgs cfg family pod ip pol) (policyJump cfg family pod ip pol) := by
  have hpod := isChain_podChain hhash pod
  have hchain : IsChain (policyChain cfg family pol) := isChain_policyChain hhash pol
  have hjump := ReadsTarget.jump hchain
  unfold policyJumpArgs policyJump
  cases pol.policyTypes.ingress with
  | true =>
    cases pol.policyTypes.egress with
    | true => exact readsLine hpod .nil hjump
    | false => exact readsLine hpod (.addr .dst ip) hjump
  | false =>
    cases pol.policyTypes.egress with
    | true => exact readsLine hpod (.addr .src ip) hjump
    | false => exact readsLine hpod .nil hjump

theorem reads_dispatchLines (hhash : ∀ key, isToken (cfg.hash16 key) = true) (pod : Pod)
    (ip : IpAddr) :
    ReadsLines (dispatchLines cfg w family pod ip) (dispatchRules cfg w family pod ip) := by
  have hpod := isChain_podChain hhash pod
  have hdefault : ∀ side,
      ReadsLines [defaultJumpArgs cfg pod side ip] [defaultJump cfg pod side ip] :=
    fun side => .one (readsLine hpod (.addr side ip) (.jump (isChain_fixed _ (by simp))))
  refine ((ReadsLines.map fun pol _ => reads_policyJump hhash pod ip pol).append ?_).append ?_
  · split
    · exact .nil
    · exact hdefault .dst
  · split
    · exact .nil
    · exact hdefault .src

theorem reads_podChainLines (hhash : ∀ key, isToken (cfg.hash16 key) = true) (pod : Pod) :
    ReadsLines (podChainLines cfg w family pod) (podChainRules cfg w family pod) := by
  have hpod := isChain_podChain hhash pod
  have hcommon := readsLine hpod .nil (.jump (isChain_fixed nwplcyCommon (by simp)))
  refine (((ReadsLines.one hcommon).append ?_).append ?_).append ?_
  · refine ReadsLines.map fun ip _ => ?_
    exact readsLine hpod (ReadsConds.srcLocal.append (.addr .dst ip)) .accept
  · exact ReadsLines.flatMap fun ip _ => reads_dispatchLines hhash pod ip
  · exact .cons (readsLine hpod .nil .nflog) (.cons (readsLine hpod .nil (.rejectUnmatched family))
      (.cons (readsLine hpod .nil .clearMatched) (.cons (readsLine hpod .nil .setAccepted) .nil)))

theorem reads_interceptLines (hhash : ∀ key, isToken (cfg.hash16 key) = true) (pod : Pod)
    (ip : IpAddr) :
    ReadsLines (interceptLines cfg pod ip) (interceptRules cfg pod ip) := by
  have hjump := ReadsTarget.jump (isChain_podChain hhash pod)
  have hplain : ∀ chain ∈ [routerInput, routerForward, routerOutput], ∀ side : Side,
      ReadsLine ["-A", chain, side.flag, ip.toText, "-j", podChain cfg pod]
        { chain := chain, conds := [.addr side ip], target := .jump (podChain cfg pod) } := by
    intro chain hchain side
    exact readsLine (isChain_fixed chain (List.mem_append_left [nwplcyCommon, nwplcyDefault,
      nwplcyTail] hchain)) (.addr side ip) hjump
  have hbridged : ∀ side : Side, ReadsLine ["-A", routerForward, "-m", "physdev",
      "--physdev-is-bridged", side.flag, ip.toText, "-j", podChain cfg pod]
      { chain := routerForward, conds := [.physdevIsBridged, .addr side ip],
        target := .jump (podChain cfg pod) } := fun side =>
    readsLine (isChain_fixed routerForward (by simp)) (ReadsConds.bridged.append (.addr side ip))
      hjump
  exact .cons (hplain _ (by simp) .dst) (.cons (hplain _ (by simp) .dst) (.cons (hbridged .dst)
    (.cons (hplain _ (by simp) .src) (.cons (hplain _ (by simp) .src)
      (.cons (hplain _ (by simp) .src) (.cons (hbridged .src) .nil))))))

theorem reads_podLines (hhash : ∀ key, isToken (cfg.hash16 key) = true) (pod : Pod) :
    ReadsLines (podLines cfg w family pod) (podPlan cfg w family pod).rules :=
  (reads_podChainLines hhash pod).append
    (ReadsLines.flatMap fun ip _ => reads_interceptLines hhash pod ip)

/-! ### The fixed chains -/

theorem reads_commonLines : ReadsLines (commonLines family) (commonRules family) := by
  have hcommon := isChain_fixed nwplcyCommon (by simp)
  refine ReadsLines.append ?_ ?_
  · exact .cons (readsLine hcommon .invalid .drop) (.cons (readsLine hcommon .tracked .accept) .nil)
  · -- one line for each type
    have hicmp : List.Forall₂ (fun (a : String × String × String) (r : String × IcmpType) =>
        ReadsConds ["-p", a.1, a.2.1, a.2.2] [.proto r.1, .icmpType r.2])
        (commonIcmpArgs family) (commonIcmpRules family) := by
      have hproto := fun p (hp : isToken p = true) => ReadsConds.proto hp
      cases family with
      | V4 =>
        have hv4 := fun (n : String) (k : IcmpType) (hname : isToken n = true)
            (hread : readIcmpType n = some k) =>
          (hproto "icmp" (by decide)).append (ReadsConds.icmpType hname hread)
        exact .cons (hv4 _ _ (by decide) rfl) (.cons (hv4 _ _ (by decide) rfl)
          (.cons (hv4 _ _ (by decide) rfl) .nil))
      | V6 =>
        have hv6 := fun (n : String) (k : IcmpType) (hname : isToken n = true)
            (hread : readIcmpType n = some k) =>
          (hproto "icmpv6" (by decide)).append (ReadsConds.icmpv6Type hname hread)
        exact .cons (hv6 _ _ (by decide) rfl) (.cons (hv6 _ _ (by decide) rfl)
          (.cons (hv6 _ _ (by decide) rfl) (.cons (hv6 _ _ (by decide) rfl)
            (.cons (hv6 _ _ (by decide) rfl) (.cons (hv6 _ _ (by decide) rfl) .nil)))))
    exact List.rel_map (fun _ _ h => readsLine hcommon h .accept) hicmp

theorem reads_defaultLines : ReadsLines defaultLines defaultRules :=
  .one (readsLine (isChain_fixed nwplcyDefault (by simp)) .nil .setMatched)

theorem reads_serviceReturnLines :
    ReadsLines (serviceReturnLines cfg family) (serviceReturns cfg family) := by
  have hinput := isChain_fixed routerInput (by simp)
  refine ReadsLines.append ?_ ?_
  · exact ReadsLines.map fun range _ => readsLine hinput (.net .dst range) .ret
  · cases cfg.nodePortRange with
    | none => exact .nil
    | some range =>
      refine ReadsLines.map fun proto hproto => ?_
      have hword : ∀ p ∈ ["tcp", "udp", "sctp"], isToken p = true := by decide
      exact readsLine hinput (((ReadsConds.proto (hword proto hproto)).append .dstLocal).append
        (.dports range)) .ret

theorem reads_tailLines : ReadsLines (tailLines cfg family) (tailRules cfg family) := by
  have htail := isChain_fixed nwplcyTail (by simp)
  have hset := isToken_localPodsSet family
  refine (ReadsLines.append ?_ (.one (readsLine htail .nil .acceptAccepted))).append ?_
  · cases cfg.defaultDeny with
    | false => exact .nil
    | true =>
      refine ReadsLines.flatMap fun cidr _ => ?_
      have hside : ∀ side : Side, ReadsLine (["-A", nwplcyTail] ++ ([side.flag, cidr.toText] ++
          ["-m", "set", "!", "--match-set", localPodsSet family, side.word]) ++
          (["-j"] ++ rejectArgs family)) _ := fun side =>
        readsLine htail ((ReadsConds.net side cidr).append (.notSetMatch hset side))
          (.reject family)
      exact .cons (hside .src) (.cons (hside .dst) .nil)
  · cases cfg.defaultDeny with
    | false => exact .nil
    | true =>
      refine ReadsLines.flatMap fun cidr _ => ?_
      exact .cons (readsLine htail (.net .src cidr) (.reject family))
        (.cons (readsLine htail (.net .dst cidr) (.reject family)) .nil)

theorem reads_tailJumpLines : ReadsLines tailJumpLines tailJumps := by
  refine ReadsLines.map fun chain hchain => ?_
  exact readsLine (isChain_fixed chain (List.mem_append_left [nwplcyCommon, nwplcyDefault,
    nwplcyTail] hchain)) .nil (.jump (isChain_fixed nwplcyTail (by simp)))

theorem reads_planLines (hplain : PlainWords cfg w) :
    ReadsLines (planLines cfg w family) (buildPlan cfg w family).rules := by
  refine ((((reads_commonLines.append reads_defaultLines).append reads_serviceReturnLines).append
    ?_).append ?_).append (reads_tailLines.append reads_tailJumpLines)
  · exact ReadsLines.flatMap fun pol hpol => reads_policyLines hplain (List.mem_of_mem_filter hpol)
  · exact ReadsLines.flatMap fun pod _ => reads_podLines hplain.hash16 pod

end Plan

/-! ## Documents -/

/-- The words of a text whose lines consist of tokens. -/
theorem words_unlines {ls : List Args} (h : ∀ l ∈ ls, Tokens l) :
    ((Text.lines (Text.unlines (ls.map Text.line)).toList).map String.ofList).map Text.words =
      ls := by
  have hlines : ∀ l ∈ ls.map Text.line, '\n' ∉ l.toList ∧ '\r' ∉ l.toList := by
    intro l hl
    obtain ⟨args, hargs, rfl⟩ := List.mem_map.mp hl
    exact ⟨Text.not_mem_line (h args hargs) (by decide) (by decide),
      Text.not_mem_line (h args hargs) (by decide) (by decide)⟩
  rw [Text.lines_unlines hlines, List.map_map]
  exact (List.map_congr_left fun args hargs => Text.words_line (h args hargs)).trans
    (List.map_id ls)

theorem readDocLine_decls (decls : List String) (acc : List String × List Rule) :
    (decls.map declArgs).foldlM readDocLine acc = some (acc.1 ++ decls, acc.2) := by
  induction decls generalizing acc with
  | nil => simp
  | cons chain decls ih =>
    have hhead : (":" ++ chain).toList = ':' :: chain.toList := by
      rw [String.toList_append]
      rfl
    have hline : readDocLine acc (declArgs chain) = some (acc.1 ++ [chain], acc.2) := by
      simp only [readDocLine, declArgs, hhead, String.ofList_toList]
    rw [List.map_cons, List.foldlM_cons, hline]
    show (decls.map declArgs).foldlM readDocLine (acc.1 ++ [chain], acc.2) = _
    rw [ih, List.append_assoc]
    rfl

/-- A rule line starts with `-A`. -/
theorem readDocLine_rule {args : Args} {r : Rule} (h : readRule args = some r)
    (acc : List String × List Rule) : readDocLine acc args = some (acc.1, acc.2 ++ [r]) := by
  unfold readRule at h
  split at h
  · next chain rest =>
    have hread : readRule ("-A" :: chain :: rest) = some r := h
    show (readRule ("-A" :: chain :: rest)).map _ = _
    rw [hread]
    rfl
  · cases h

theorem readDocLine_rules {ls : List Args} {rs : List Rule} (h : ReadsLines ls rs)
    (acc : List String × List Rule) : ls.foldlM readDocLine acc = some (acc.1, acc.2 ++ rs) := by
  induction h generalizing acc with
  | nil => simp
  | @cons args r ls rs hline _ ih =>
    rw [List.foldlM_cons, readDocLine_rule hline.read]
    show ls.foldlM readDocLine (acc.1, acc.2 ++ [r]) = _
    rw [ih, List.append_assoc]
    rfl

theorem tokens_declArgs {chain : String} (h : isToken chain = true) : Tokens (declArgs chain) :=
  .cons (Text.isToken_append (by decide) h) (.cons (by decide) (.cons (by decide) tokens_nil))

theorem ReadsLines.tokens {ls : List Args} {rs : List Rule} (h : ReadsLines ls rs) :
    ∀ l ∈ ls, Tokens l :=
  ((List.forall₂_and_left (p := Tokens) _ _).mp (h.imp fun _ _ hl => ⟨hl.tokens, hl.read⟩)).1

theorem readFilterDoc_text {decls : List String} {ls : List Args} {rs : List Rule}
    (hdecls : ∀ chain ∈ decls, isToken chain = true) (h : ReadsLines ls rs) :
    readFilterDoc (filterRestoreDoc (decls.map declArgs) ls) = some (decls, rs) := by
  have htokens : ∀ l ∈ decls.map declArgs ++ ls, Tokens l := by
    refine List.forall_mem_append.mpr ⟨fun l hl => ?_, h.tokens⟩
    obtain ⟨chain, hchain, rfl⟩ := List.mem_map.mp hl
    exact tokens_declArgs (hdecls chain hchain)
  have hbreak : ∀ l ∈ ["*filter"] ++ (decls.map declArgs ++ ls).map Text.line ++ ["COMMIT"],
      '\n' ∉ l.toList ∧ '\r' ∉ l.toList := by
    refine List.forall_mem_append.mpr ⟨List.forall_mem_append.mpr ⟨by decide, fun l hl => ?_⟩,
      by decide⟩
    obtain ⟨args, hargs, rfl⟩ := List.mem_map.mp hl
    exact ⟨Text.not_mem_line (htokens args hargs) (by decide) (by decide),
      Text.not_mem_line (htokens args hargs) (by decide) (by decide)⟩
  have hwords : ((decls.map declArgs ++ ls).map Text.line).map Text.words =
      decls.map declArgs ++ ls := by
    rw [List.map_map]
    exact (List.map_congr_left fun args hargs => Text.words_line (htokens args hargs)).trans
      (List.map_id _)
  unfold readFilterDoc filterRestoreDoc
  rw [Text.lines_unlines hbreak]
  show (if ((decls.map declArgs ++ ls).map Text.line ++ ["COMMIT"]).getLast? = some "COMMIT" then
    ((((decls.map declArgs ++ ls).map Text.line ++ ["COMMIT"]).dropLast).map Text.words).foldlM
      readDocLine ([], []) else none) = _
  rw [if_pos List.getLast?_concat, List.dropLast_concat, hwords, List.foldlM_append,
    readDocLine_decls]
  show ls.foldlM readDocLine ([] ++ decls, []) = _
  rw [readDocLine_rules h]
  rfl

/-! ## Payloads -/

theorem isToken_tmp {set : String} (hset : isToken set = true) : isToken ("TMP-" ++ set) = true :=
  Text.isToken_append (by decide) hset

theorem readEntry_addr (set : String) (ip : IpAddr) :
    readEntry set ip.toText false = some (.addIp set ip) := by
  unfold readEntry
  rw [if_neg (IpNet.slash_not_mem ip), IpAddr.parse_toText]
  rfl

theorem readEntry_net (set : String) (net : IpNet) (excluded : Bool) :
    readEntry set net.toText excluded = some (.addNet set net excluded) := by
  unfold readEntry
  rw [if_pos (ReadsConds.slash_mem net), IpNet.parse_toText]
  rfl

/-- What is read in a line of a payload. -/
structure ReadsCmd (args : Args) (c : IpsetCmd) : Prop where
  tokens : Tokens args
  read : readIpsetCmd args = some c

theorem reads_entries {tmp : String} (htmp : isToken tmp = true) (body : SetBody) :
    List.Forall₂ ReadsCmd (body.entryArgs.map fun e => ["add", tmp] ++ e ++ ["-exist"])
      (body.addCmds tmp) := by
  cases body with
  | hashIp ips =>
    induction ips with
    | nil => exact .nil
    | cons ip ips ih =>
      refine .cons ⟨?_, readEntry_addr tmp ip⟩ ih
      exact .cons (by decide) (.cons htmp (.cons (isToken_addrText ip)
        (.cons (by decide) tokens_nil)))
  | hashNet nets =>
    induction nets with
    | nil => exact .nil
    | cons e nets ih =>
      obtain ⟨net, excluded⟩ := e
      refine .cons ?_ ih
      cases excluded with
      | false =>
        refine ⟨?_, readEntry_net tmp net false⟩
        exact .cons (by decide) (.cons htmp (.cons (IpNet.isToken_toText net)
          (.cons (by decide) tokens_nil)))
      | true =>
        refine ⟨?_, readEntry_net tmp net true⟩
        exact .cons (by decide) (.cons htmp (.cons (IpNet.isToken_toText net)
          (.cons (by decide) (.cons (by decide) tokens_nil))))

theorem mapM_readIpsetCmd {ls : List Args} {cmds : List IpsetCmd}
    (h : List.Forall₂ ReadsCmd ls cmds) :
    ls.mapM readIpsetCmd = some cmds := by
  induction h with
  | nil => rfl
  | cons hline _ ih =>
    rw [List.mapM_cons, hline.read, ih]
    rfl

theorem readPayload_text {set : String} (hset : isToken set = true) (family : IpFamily)
    (body : SetBody) :
    readPayload (restorePayloadText set family body) =
      some (buildRestorePayload set family body) := by
  have htmp := isToken_tmp hset
  have htyp : isToken body.setType.asStr = true := by
    have hall : ∀ t : SetType, isToken t.asStr = true := by
      intro t
      cases t <;> decide
    exact hall body.setType
  have hfam : isToken (familyKw family) = true := by cases family <;> decide
  have hcreate : ∀ name, isToken name = true → ReadsCmd
      ["create", name, body.setType.asStr, "family", familyKw family, "-exist"]
      (.create name body.setType family) := by
    intro name hname
    refine ⟨.cons (by decide) (.cons hname (.cons htyp (.cons (by decide) (.cons hfam
      (.cons (by decide) tokens_nil))))), ?_⟩
    cases body <;> cases family <;> rfl
  have hreads := List.rel_append (List.rel_append (R := ReadsCmd)
      (.cons (hcreate set hset) (.cons (hcreate _ htmp)
        (.cons (a := ["flush", "TMP-" ++ set])
          ⟨.cons (by decide) (.cons htmp tokens_nil), rfl⟩ .nil)))
      (reads_entries htmp body))
    (.cons (a := ["swap", "TMP-" ++ set, set])
        ⟨.cons (by decide) (.cons htmp (.cons hset tokens_nil)), rfl⟩
      (.cons (a := ["destroy", "TMP-" ++ set])
        ⟨.cons (by decide) (.cons htmp tokens_nil), rfl⟩ .nil))
  have htokens := ((List.forall₂_and_left (p := Tokens) _ _).mp
    (hreads.imp fun _ _ hl => ⟨hl.tokens, hl.read⟩)).1
  have hwords := words_unlines htokens
  rw [List.map_map] at hwords
  unfold readPayload restorePayloadText
  exact (congrArg (List.mapM readIpsetCmd) hwords).trans (mapM_readIpsetCmd hreads)

/-! ## The sync pass -/

section Pass

variable {cfg : Config} {w : PolicyWorld}

theorem isToken_planSet (hhash : ∀ key, isToken (cfg.hash16 key) = true) {family : IpFamily}
    {s : IpsetPlan} (hs : s ∈ (buildPlan cfg w family).ipsets) : isToken s.name = true := by
  obtain ⟨pol, -, dir, -, k, body, -, rfl⟩ | ⟨-, rfl⟩ := mem_buildPlan_ipsets.mp hs
  · cases k with
    | target dir => exact isToken_targetSet hhash dir pol
    | pod dir idx => exact isToken_podSet hhash dir pol idx
    | ipblock dir idx => exact isToken_ipblockSet hhash dir pol idx
    | namedPort dir idx ep => exact isToken_namedPortSet hhash dir pol idx ep
  · exact isToken_localPodsSet family

theorem planDecls_eq (family : IpFamily) :
    planDecls cfg w family = (buildPlan cfg w family).chainDecls := by
  have hpolicy : ∀ pol,
      (policyPlan cfg w family pol).chainDecls = [policyChain cfg family pol] := by
    intro pol
    rw [policyPlan, FirewallPlan.append_chainDecls, FirewallPlan.append_chainDecls,
      directionPlan_noDecls, directionPlan_noDecls, List.append_nil, List.append_nil]
  simp only [planDecls, buildPlan, FirewallPlan.append_chainDecls, FirewallPlan.collect, hpolicy,
    podPlan, List.append_nil, ← List.map_eq_flatMap]

theorem isToken_planDecls (hhash : ∀ key, isToken (cfg.hash16 key) = true) {family : IpFamily} :
    ∀ chain ∈ planDecls cfg w family, isToken chain = true := by
  refine List.forall_mem_append.mpr
    ⟨List.forall_mem_append.mpr ⟨fun chain h => ?_, fun chain h => ?_⟩,
    fun chain h => ?_⟩
  · exact (isChain_fixed chain h).token
  · obtain ⟨pol, -, rfl⟩ := List.mem_map.mp h
    exact (isChain_policyChain hhash pol).token
  · obtain ⟨pod, -, rfl⟩ := List.mem_map.mp h
    exact (isChain_podChain hhash pod).token

theorem read_familyTextCalls (hplain : PlainWords cfg w) (family : IpFamily) :
    List.Forall₂ (fun (t : TextCall) c => t.read = some c) (familyTextCalls cfg w family)
      (familyCalls cfg w family) := by
  refine List.rel_append ?_ ?_
  · have hread : ∀ s ∈ (buildPlan cfg w family).ipsets,
        (TextCall.ipsetRestore (restorePayloadText s.name s.family s.body)).read =
          some (.ipsetRestore (buildRestorePayload s.name s.family s.body)) := by
      intro s hs
      rw [TextCall.read, readPayload_text (isToken_planSet hplain.hash16 hs), Option.map_some]
    rw [List.forall₂_map_left_iff, List.forall₂_map_right_iff, List.forall₂_same]
    exact hread
  · have hdoc : (TextCall.restoreFilter family (filterRestoreDoc ((planDecls cfg w family).map
        declArgs) (planLines cfg w family))).read =
          some (.restoreFilter family (buildPlan cfg w family).chainDecls
            (buildPlan cfg w family).rules) := by
      simp only [TextCall.read]
      rw [readFilterDoc_text (isToken_planDecls hplain.hash16) (reads_planLines hplain),
        Option.map_some, planDecls_eq]
    exact .cons hdoc (.cons rfl (.cons rfl (.cons rfl .nil)))

theorem runTextCalls_eq {ts : List TextCall} {cs : List ToolCall}
    (h : List.Forall₂ (fun (t : TextCall) c => t.read = some c) ts cs) (k : Kernel) :
    runTextCalls ts k = runCalls cs k := by
  induction h generalizing k with
  | nil => rfl
  | @cons t c ts cs hread _ ih =>
    have hexec : t.exec k = c.exec k := by
      unfold TextCall.exec
      rw [hread]
      rfl
    unfold runTextCalls runCalls
    rw [hexec]
    cases c.exec k with
    | none => rfl
    | some k' => exact ih k'

/-- What the tools make of the texts of a sync is what they make of the plans. -/
theorem reconcile_text (hplain : PlainWords cfg w) (families : List IpFamily) (k : Kernel) :
    reconcileText cfg families w k = reconcile cfg families w k := by
  refine runTextCalls_eq (List.rel_flatMap (R := fun f g => f = g) ?_ ?_) k
  · exact List.forall₂_same.mpr fun _ _ => rfl
  · rintro family _ rfl
    exact read_familyTextCalls hplain family

end Pass

theorem sampleHash_isToken (key : String) : isToken (sampleHash key) = true := by
  unfold sampleHash
  split <;> decide

theorem frontWorld_plainWords : PlainWords sampleConfig frontWorld where
  hash16 := sampleHash_isToken
  protocol := by
    intro pol hpol rule hrule port hport
    rw [List.mem_singleton.mp hpol] at hrule
    rw [List.mem_singleton.mp hrule] at hport
    rw [List.mem_singleton.mp hport]
    decide

/-- A sync of the world with one ingress policy. -/
theorem reconcile_text_front :
    reconcileText sampleConfig [.V4, .V6] frontWorld Kernel.clean =
      reconcile sampleConfig [.V4, .V6] frontWorld Kernel.clean :=
  reconcile_text frontWorld_plainWords [.V4, .V6] Kernel.clean

end KubeRouter.Netpol
