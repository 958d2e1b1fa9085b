/-
  What an IPVS operation looks like on its way out: the messages of `Genl::request`
  (`proxy/src/genetlink.rs`) and the arguments for the `ipvsadm` binary (`proxy/src/ipvs.rs`).

  A `Request` is what the operation means to the kernel. `readMessage` reads it from the bytes as
  the IPVS family does, `readArgs` from the arguments as the binary does. The binary is asked for
  what the arguments of the proxy use; `-b` is left out, its words depend on the scheduler.

  Proved:
  * `findAttr_encode`: an attribute is found behind others.
  * `readMessage_request`: the message of an operation is read back as its request.
  * `readArgs_args`: so are its arguments, for services without scheduler flags whose persistence
    timeout and destinations whose weight are in the ranges of the binary.
-/
import KubeRouter.Common.Line
import KubeRouter.Proxy.Genetlink
import KubeRouter.Proxy.IpvsStats
import KubeRouter.Proxy.Kernel
import Mathlib.Tactic.Ring

namespace KubeRouter.Proxy

open Text

/-! ## Requests -/

inductive Request where
  | newService (svc : IpvsService)
  | setService (svc : IpvsService)
  | delService (key : ServiceKey)
  | newDest (key : ServiceKey) (dst : IpvsDestination)
  | setDest (key : ServiceKey) (dst : IpvsDestination)
  | delDest (key : ServiceKey) (addr : IpAddr) (port : UInt16)
deriving DecidableEq, Repr

/-- What a call asks of the kernel; `none` where it is no operation on services or destinations. -/
def Call.request : Call → Option Request
  | addService svc => some (.newService svc)
  | editService svc => some (.setService svc)
  | delService svc => some (.delService svc.key)
  | addDestination svc dst => some (.newDest svc.key dst)
  | updateDestination svc dst => some (.setDest svc.key dst)
  | delDestination svc dst => some (.delDest svc.key dst.addr dst.port)
  | _ => none

/-! ## Messages -/

def nlmFRequest : UInt16 := 0x01
def nlmFAck : UInt16 := 0x04
def nlmsgError : UInt16 := 0x02

def cmdNewService : UInt8 := 1
def cmdSetService : UInt8 := 2
def cmdDelService : UInt8 := 3
def cmdNewDest : UInt8 := 5
def cmdDelDest : UInt8 := 7

/-- The message `Genl::request` sends. -/
def requestBytes (family : UInt16) (seq : UInt32) (cmd : UInt8) (payload : List UInt8) :
    List UInt8 :=
  let body := [cmd, 1, 0, 0] ++ payload
  neBytes32 (UInt32.ofNat (16 + body.length)) ++ neBytes16 family ++
    neBytes16 (nlmFRequest ||| nlmFAck) ++ neBytes32 seq ++ neBytes32 0 ++ body

/-- The command and payload of the operations `Genl` has; an update of a destination is none. -/
def Call.genl : Call → Option (UInt8 × List UInt8)
  | addService svc => some (cmdNewService, serviceAttr svc)
  | editService svc => some (cmdSetService, serviceAttr svc)
  | delService svc => some (cmdDelService, serviceIdentityAttr svc)
  | addDestination svc dst => some (cmdNewDest, serviceIdentityAttr svc ++ destAttr dst)
  | delDestination svc dst => some (cmdDelDest, serviceIdentityAttr svc ++ destAttr dst)
  | _ => none

/-! ### Reading a message -/

def fromNeBytes32 (b0 b1 b2 b3 : UInt8) : UInt32 :=
  UInt32.ofNat (b0.toNat + 256 * (b1.toNat + 256 * (b2.toNat + 256 * b3.toNat)))

def readU32 : List UInt8 → Option UInt32
  | [b0, b1, b2, b3] => some (fromNeBytes32 b0 b1 b2 b3)
  | _ => none

/-- Most significant byte first. -/
def ofBeBytes (bytes : List UInt8) : Nat := bytes.foldl (fun n b => 256 * n + b.toNat) 0

def readPort (bytes : List UInt8) : Option UInt16 :=
  if bytes.length = 2 then some (UInt16.ofNat (ofBeBytes bytes)) else none

/-- The address of the family; IPv4 takes the first four bytes. -/
def readAddr (family bytes : List UInt8) : Option IpAddr :=
  if family = neBytes16 afInet ∧ 4 ≤ bytes.length then
    some (.V4 (BitVec.ofNat 32 (ofBeBytes (bytes.take 4))))
  else if family = neBytes16 afInet6 ∧ 16 ≤ bytes.length then
    some (.V6 (BitVec.ofNat 128 (ofBeBytes (bytes.take 16))))
  else none

def readProto (bytes : List UInt8) : Option Protocol :=
  [.Tcp, .Udp, .Sctp].find? fun p => neBytes16 (protoNum p) == bytes

def readSched (bytes : List UInt8) : Option Scheduler :=
  [.Rr, .Lc, .Sh, .Dh, .Mh].find? fun s => zeroTerminated s.ipvsName == bytes

/-- The flags under their mask. -/
def readFlags : List UInt8 → Option UInt32
  | [b0, b1, b2, b3, m0, m1, m2, m3] =>
    some (fromNeBytes32 b0 b1 b2 b3 &&& fromNeBytes32 m0 m1 m2 m3)
  | _ => none

/-- The attribute `t` of a nested attribute. -/
def attr (t : UInt16) (bytes : List UInt8) : Option (List UInt8) := findAttr t bytes.length bytes

def readIdentity (svc : List UInt8) : Option ServiceKey := do
  let family ← attr svcAttrAf svc
  let proto ← readProto (← attr svcAttrProtocol svc)
  let addr ← readAddr family (← attr svcAttrAddress svc)
  let port ← readPort (← attr svcAttrPort svc)
  return (addr, proto, port)

def readService (svc : List UInt8) : Option IpvsService := do
  let (addr, protocol, port) ← readIdentity svc
  let scheduler ← readSched (← attr svcAttrSchedName svc)
  let flags ← readFlags (← attr svcAttrFlags svc)
  let timeout ← readU32 (← attr svcAttrTimeout svc)
  return {
    addr, protocol, port, scheduler
    schedFlags :=
      { flag1 := flags &&& svcFSched1 != 0
        flag2 := flags &&& svcFSched2 != 0
        flag3 := flags &&& svcFSched3 != 0 }
    persistent := if flags &&& svcFPersistent != 0 then some timeout else none }

def readServer (dst : List UInt8) : Option (IpAddr × UInt16) := do
  let family ← attr destAttrAddrFamily dst
  let addr ← readAddr family (← attr destAttrAddress dst)
  let port ← readPort (← attr destAttrPort dst)
  return (addr, port)

/-- A destination in full: the thresholds must be there. -/
def readDest (dst : List UInt8) : Option IpvsDestination := do
  let (addr, port) ← readServer dst
  let fwd ← readU32 (← attr destAttrFwdMethod dst)
  let weight ← readU32 (← attr destAttrWeight dst)
  let _ ← attr destAttrUThresh dst
  let _ ← attr destAttrLThresh dst
  return { addr, port, weight := weight.toNat, tunnel := fwd == fwdTunnel }

def readCommand (cmd : UInt8) (payload : List UInt8) : Option Request := do
  let svc ← attr cmdAttrService payload
  if cmd = cmdNewService then return .newService (← readService svc)
  else if cmd = cmdSetService then return .setService (← readService svc)
  else
    let key ← readIdentity svc
    if cmd = cmdDelService then return .delService key
    else
      let dst ← attr cmdAttrDest payload
      if cmd = cmdNewDest then return .newDest key (← readDest dst)
      else if cmd = cmdDelDest then
        let (addr, port) ← readServer dst
        return .delDest key addr port
      else none

/-- A message for the family, by its headers of 16 and 4 bytes. -/
def readMessage (family : UInt16) (msg : List UInt8) : Option Request :=
  match msg.take 20 with
  | [l0, l1, l2, l3, t0, t1, _, _, _, _, _, _, _, _, _, _, cmd, _, _, _] =>
    if (fromNeBytes32 l0 l1 l2 l3).toNat = msg.length ∧ fromNeBytes16 t0 t1 = family then
      readCommand cmd (msg.drop 20)
    else none
  | _ => none

/-! ### Attributes behind others -/

theorem findAttr_cons (t : UInt16) {a : UInt16 × List UInt8} (ha : a.2.length ≤ 65531)
    (rest : List UInt8) (fuel : Nat) :
    findAttr t (fuel + 1) (nla a.1 a.2 ++ rest) =
      if a.1 = t then some a.2 else findAttr t fuel rest := by
  obtain ⟨t', payload⟩ := a
  have ha : payload.length ≤ 65531 := ha
  have hlen : (UInt16.ofNat (4 + payload.length)).toUInt8.toNat +
      256 * ((UInt16.ofNat (4 + payload.length)) >>> 8).toUInt8.toNat = 4 + payload.length := by
    rw [neBytes16_toNat, UInt16.toNat_ofNat']
    omega
  have hdrop : (nla t' payload ++ rest).drop ((4 + payload.length + 3) / 4 * 4) = rest := by
    refine List.drop_left' ?_
    rw [nla_length]
    omega
  obtain ⟨n, hn⟩ : ∃ n, (4 + payload.length + 3) / 4 * 4 = n + 4 :=
    ⟨(4 + payload.length + 3) / 4 * 4 - 4, by omega⟩
  obtain ⟨tail, htail⟩ : ∃ tail, nla t' payload ++ rest =
      (UInt16.ofNat (4 + payload.length)).toUInt8 ::
        (UInt16.ofNat (4 + payload.length) >>> 8).toUInt8 :: t'.toUInt8 :: (t' >>> 8).toUInt8 ::
          (payload ++ tail) :=
    ⟨List.replicate ((4 - (payload.length + 1 + 1 + 1 + 1) % 4) % 4) 0 ++ rest,
      by simp [nla, neBytes16]⟩
  rw [htail, hn] at hdrop
  rw [htail, findAttr]
  simp only [List.drop_succ_cons] at hdrop
  rw [hlen, if_neg (by omega), hn, Nat.add_sub_cancel, Nat.add_sub_cancel_left, List.take_left,
    hdrop]
  by_cases ht : t' = t
  · rw [if_pos (by rw [ht]; rfl), if_pos ht]
  · have hbytes : [t'.toUInt8, (t' >>> 8).toUInt8] ≠ neBytes16 t :=
      fun h => ht (neBytes16_injective h)
    rw [if_neg hbytes, if_neg ht]

theorem findAttr_encode (t : UInt16) {as : List (UInt16 × List UInt8)}
    (h : ∀ a ∈ as, a.2.length ≤ 65531) {fuel : Nat} (hfuel : as.length < fuel) :
    findAttr t fuel (encode as) = (as.find? (·.1 == t)).map (·.2) := by
  induction as generalizing fuel with
  | nil =>
    cases fuel with
    | zero => cases hfuel
    | succ fuel => rfl
  | cons a as ih =>
    obtain ⟨ha, has⟩ := List.forall_mem_cons.mp h
    cases fuel with
    | zero => cases hfuel
    | succ fuel =>
      have hlen : as.length < fuel := by simpa using hfuel
      have hrest := ih has hlen
      show findAttr t (fuel + 1) (nla a.1 a.2 ++ encode as) = _
      rw [findAttr_cons t ha, hrest]
      by_cases hat : a.1 = t
      · simp [hat]
      · simp [hat]

theorem length_le_encode (as : List (UInt16 × List UInt8)) :
    4 * as.length ≤ (encode as).length := by
  induction as with
  | nil => exact Nat.le_refl 0
  | cons a as ih =>
    have hlen : (encode (a :: as)).length = (nla a.1 a.2).length + (encode as).length := by
      simp [encode]
    have hnla := nla_length a.1 a.2
    rw [hlen, List.length_cons]
    omega

/-- A nested attribute, read by type. -/
theorem attr_encode (t : UInt16) {as : List (UInt16 × List UInt8)} (hne : as ≠ [])
    (h : ∀ a ∈ as, a.2.length ≤ 65531) :
    attr t (encode as) = (as.find? (·.1 == t)).map (·.2) := by
  have hlen := length_le_encode as
  have hpos := List.length_pos_iff.mpr hne
  exact findAttr_encode t h (by omega)

/-! ### Values -/

theorem neBytes32_read (v : UInt32) : readU32 (neBytes32 v) = some v := by
  have hv := v.toNat_lt
  simp only [neBytes32, readU32, fromNeBytes32, Option.some.injEq]
  apply UInt32.toNat_inj.mp
  simp only [UInt32.toNat_ofNat', UInt32.toNat_toUInt8, UInt32.toNat_shiftRight,
    Nat.shiftRight_eq_div_pow]
  simp
  omega

theorem ofBeBytes_append (xs ys : List UInt8) :
    ofBeBytes (xs ++ ys) = ofBeBytes xs * 256 ^ ys.length + ofBeBytes ys := by
  induction ys using List.reverseRecOn with
  | nil => simp [ofBeBytes]
  | append_singleton ys y ih =>
    have hsnoc : ∀ l : List UInt8, ofBeBytes (l ++ [y]) = 256 * ofBeBytes l + y.toNat := fun l => by
      simp [ofBeBytes, List.foldl_append]
    rw [← List.append_assoc, hsnoc, ih, hsnoc, List.length_append, List.length_singleton,
      Nat.pow_succ]
    ring

theorem ofBeBytes_beBytes (n v : Nat) : ofBeBytes (beBytes n v) = v % 256 ^ n := by
  induction n with
  | zero => rw [Nat.pow_zero, Nat.mod_one]; rfl
  | succ n ih =>
    have hcons : ofBeBytes (beBytes (n + 1) v) =
        v / 256 ^ n % 256 * 256 ^ n + ofBeBytes (beBytes n v) := by
      have h := ofBeBytes_append [UInt8.ofNat (v / 256 ^ n)] (beBytes n v)
      rw [beBytes_length] at h
      simpa [ofBeBytes, beBytes] using h
    rw [hcons, ih, Nat.mod_pow_succ]
    ring

theorem readPort_be (port : UInt16) : readPort (beBytes 2 port.toNat) = some port := by
  have hport := port.toNat_lt
  rw [readPort, if_pos (beBytes_length 2 _), ofBeBytes_beBytes, Nat.mod_eq_of_lt (by omega),
    UInt16.ofNat_toNat]

theorem readAddr_bytes (a : IpAddr) : readAddr (neBytes16 (af a)) (addrBytes a) = some a := by
  cases a with
  | V4 a =>
    have ha := a.isLt
    have hlen := beBytes_length 4 a.toNat
    have hnum : ofBeBytes ((beBytes 4 a.toNat).take 4) = a.toNat := by
      rw [List.take_of_length_le (by omega), ofBeBytes_beBytes, Nat.mod_eq_of_lt (by omega)]
    have hcond : neBytes16 (af (.V4 a)) = neBytes16 afInet ∧ 4 ≤ (addrBytes (.V4 a)).length :=
      ⟨rfl, by show 4 ≤ (beBytes 4 a.toNat).length; omega⟩
    rw [readAddr, if_pos hcond]
    show some (IpAddr.V4 (BitVec.ofNat 32 (ofBeBytes ((beBytes 4 a.toNat).take 4)))) = _
    rw [hnum, BitVec.ofNat_toNat, BitVec.setWidth_eq]
  | V6 a =>
    have ha := a.isLt
    have hlen := beBytes_length 16 a.toNat
    have hnum : ofBeBytes ((beBytes 16 a.toNat).take 16) = a.toNat := by
      rw [List.take_of_length_le (by omega), ofBeBytes_beBytes, Nat.mod_eq_of_lt (by omega)]
    have hfamily : ¬(neBytes16 (af (.V6 a)) = neBytes16 afInet ∧ 4 ≤ (addrBytes (.V6 a)).length) :=
      fun h => absurd (neBytes16_injective h.1 : afInet6 = afInet) (by decide)
    have hcond : neBytes16 (af (.V6 a)) = neBytes16 afInet6 ∧ 16 ≤ (addrBytes (.V6 a)).length :=
      ⟨rfl, by show 16 ≤ (beBytes 16 a.toNat).length; omega⟩
    rw [readAddr, if_neg hfamily, if_pos hcond]
    show some (IpAddr.V6 (BitVec.ofNat 128 (ofBeBytes ((beBytes 16 a.toNat).take 16)))) = _
    rw [hnum, BitVec.ofNat_toNat, BitVec.setWidth_eq]

theorem readProto_num (p : Protocol) : readProto (neBytes16 (protoNum p)) = some p := by
  cases p <;> decide

theorem readSched_name (s : Scheduler) : readSched (zeroTerminated s.ipvsName) = some s := by
  cases s <;> decide +kernel

theorem readFlags_masked (flags : UInt32) :
    readFlags (neBytes32 flags ++ neBytes32 0xFFFFFFFF) = some flags := by
  have hflags := neBytes32_read flags
  have hmask := neBytes32_read 0xFFFFFFFF
  simp only [neBytes32, readU32, Option.some.injEq] at hflags hmask
  simp only [neBytes32, List.cons_append, List.nil_append, readFlags]
  rw [hflags, hmask]
  exact congrArg some (UInt32.and_neg_one)

/-! ### Messages are read back -/

theorem attr_service (svc : IpvsService) (t : UInt16) :
    attr t (encode (serviceFields svc)) = ((serviceFields svc).find? (·.1 == t)).map (·.2) := by
  refine attr_encode t (by simp [serviceFields]) fun a ha => ?_
  have := (lengthsFit_serviceFields svc).1 a ha
  omega

theorem attr_identity (svc : IpvsService) (t : UInt16) :
    attr t (encode (serviceIdentityFields svc)) =
      ((serviceIdentityFields svc).find? (·.1 == t)).map (·.2) := by
  refine attr_encode t (by simp [serviceIdentityFields]) fun a ha => ?_
  have := (lengthsFit_serviceIdentityFields svc).1 a ha
  omega

theorem attr_dest (dst : IpvsDestination) (t : UInt16) :
    attr t (encode (destFields dst)) = ((destFields dst).find? (·.1 == t)).map (·.2) := by
  refine attr_encode t (by simp [destFields]) fun a ha => ?_
  have := (lengthsFit_destFields dst).1 a ha
  omega

/-- The four attributes that identify a service. -/
theorem readIdentity_of {svc : IpvsService} {bytes : List UInt8}
    (hfamily : attr svcAttrAf bytes = some (neBytes16 (af svc.addr)))
    (hproto : attr svcAttrProtocol bytes = some (neBytes16 (protoNum svc.protocol)))
    (haddr : attr svcAttrAddress bytes = some (addrBytes svc.addr))
    (hport : attr svcAttrPort bytes = some (beBytes 2 svc.port.toNat)) :
    readIdentity bytes = some svc.key := by
  simp only [readIdentity, hfamily, hproto, haddr, hport, readProto_num, readAddr_bytes,
    readPort_be, Option.bind_eq_bind, Option.bind_some, Option.pure_def]
  rfl

theorem readIdentity_service (svc : IpvsService) :
    readIdentity (encode (serviceFields svc)) = some svc.key :=
  readIdentity_of (attr_service svc _) (attr_service svc _) (attr_service svc _)
    (attr_service svc _)

theorem readIdentity_identity (svc : IpvsService) :
    readIdentity (encode (serviceIdentityFields svc)) = some svc.key :=
  readIdentity_of (attr_identity svc _) (attr_identity svc _) (attr_identity svc _)
    (attr_identity svc _)

/-- Persistence and the scheduler flags, bit by bit. -/
theorem serviceFlags_bits (svc : IpvsService) :
    (serviceFlags svc &&& svcFPersistent != 0) = svc.persistent.isSome ∧
      (serviceFlags svc &&& svcFSched1 != 0) = svc.schedFlags.flag1 ∧
      (serviceFlags svc &&& svcFSched2 != 0) = svc.schedFlags.flag2 ∧
      (serviceFlags svc &&& svcFSched3 != 0) = svc.schedFlags.flag3 := by
  obtain ⟨_, _, _, _, ⟨f1, f2, f3⟩, p⟩ := svc
  simp only [serviceFlags]
  generalize p.isSome = b
  revert b f1 f2 f3
  decide

theorem readService_service (svc : IpvsService) :
    readService (encode (serviceFields svc)) = some svc := by
  have hsched : attr svcAttrSchedName (encode (serviceFields svc)) =
      some (zeroTerminated svc.scheduler.ipvsName) := attr_service svc _
  have hflags : attr svcAttrFlags (encode (serviceFields svc)) =
      some (neBytes32 (serviceFlags svc) ++ neBytes32 0xFFFFFFFF) := attr_service svc _
  have htimeout : attr svcAttrTimeout (encode (serviceFields svc)) =
      some (neBytes32 (svc.persistent.getD 0)) := attr_service svc _
  obtain ⟨hp, h1, h2, h3⟩ := serviceFlags_bits svc
  simp only [readService, readIdentity_service, hsched, hflags, htimeout, readSched_name,
    readFlags_masked, neBytes32_read, Option.bind_eq_bind, Option.bind_some, Option.pure_def,
    hp, h1, h2, h3]
  obtain ⟨_, _, _, _, _, p⟩ := svc
  cases p <;> rfl

theorem readServer_dest (dst : IpvsDestination) :
    readServer (encode (destFields dst)) = some (dst.addr, dst.port) := by
  have hfamily : attr destAttrAddrFamily (encode (destFields dst)) =
      some (neBytes16 (af dst.addr)) := attr_dest dst _
  have haddr : attr destAttrAddress (encode (destFields dst)) = some (addrBytes dst.addr) :=
    attr_dest dst _
  have hport : attr destAttrPort (encode (destFields dst)) =
      some (beBytes 2 dst.port.toNat) := attr_dest dst _
  simp only [readServer, hfamily, haddr, hport, readAddr_bytes, readPort_be, Option.bind_eq_bind,
    Option.bind_some, Option.pure_def]

theorem readDest_dest {dst : IpvsDestination} (hweight : 0 ≤ dst.weight ∧ dst.weight < 2 ^ 32) :
    readDest (encode (destFields dst)) = some dst := by
  have hfwd : attr destAttrFwdMethod (encode (destFields dst)) =
      some (neBytes32 (if dst.tunnel then fwdTunnel else fwdMasq)) := attr_dest dst _
  have hw : attr destAttrWeight (encode (destFields dst)) =
      some (neBytes32 (UInt32.ofInt dst.weight)) := attr_dest dst _
  have hu : attr destAttrUThresh (encode (destFields dst)) = some (neBytes32 0) := attr_dest dst _
  have hl : attr destAttrLThresh (encode (destFields dst)) = some (neBytes32 0) := attr_dest dst _
  have hnum : ((UInt32.ofInt dst.weight).toNat : Int) = dst.weight := by
    simp only [UInt32.ofInt, UInt32.toNat_ofNat']
    omega
  have htunnel : ((if dst.tunnel then fwdTunnel else fwdMasq) == fwdTunnel) = dst.tunnel := by
    cases dst.tunnel <;> decide
  simp only [readDest, readServer_dest, hfwd, hw, hu, hl, neBytes32_read, hnum, htunnel,
    Option.bind_eq_bind, Option.bind_some, Option.pure_def]

/-- A destination that can be sent. -/
def Call.Sendable : Call → Prop
  | addDestination _ dst | updateDestination _ dst => 0 ≤ dst.weight ∧ dst.weight < 65536
  | _ => True

/-- The two attributes of a request for a destination. -/
theorem attr_pair (svc : IpvsService) (dst : IpvsDestination) :
    attr cmdAttrService (serviceIdentityAttr svc ++ destAttr dst) =
        some (encode (serviceIdentityFields svc)) ∧
      attr cmdAttrDest (serviceIdentityAttr svc ++ destAttr dst) =
        some (encode (destFields dst)) := by
  have hpair : serviceIdentityAttr svc ++ destAttr dst =
      encode [(cmdAttrService, encode (serviceIdentityFields svc)),
        (cmdAttrDest, encode (destFields dst))] := by
    simp [encode, serviceIdentityAttr_eq, destAttr_eq]
  have hlen : ∀ a ∈ [(cmdAttrService, encode (serviceIdentityFields svc)),
      (cmdAttrDest, encode (destFields dst))], a.2.length ≤ 65531 := by
    have h1 := (lengthsFit_serviceIdentityFields svc).2
    have h2 := (lengthsFit_destFields dst).2
    intro a ha
    rcases List.mem_pair.mp ha with rfl | rfl
    · show (encode (serviceIdentityFields svc)).length ≤ 65531
      omega
    · show (encode (destFields dst)).length ≤ 65531
      omega
  rw [hpair]
  exact ⟨attr_encode _ (by simp) hlen, attr_encode _ (by simp) hlen⟩

theorem attr_single {as : List (UInt16 × List UInt8)} (h : LengthsFit as) :
    attr cmdAttrService (nla cmdAttrService (encode as)) = some (encode as) := by
  have hsingle : nla cmdAttrService (encode as) = encode [(cmdAttrService, encode as)] := by
    simp [encode]
  rw [hsingle]
  refine attr_encode _ (by simp) fun a ha => ?_
  rw [List.mem_singleton.mp ha]
  have := h.2
  show (encode as).length ≤ 65531
  omega

theorem readCommand_genl {c : Call} (hc : c.Sendable) {cmd : UInt8} {payload : List UInt8}
    (h : c.genl = some (cmd, payload)) : readCommand cmd payload = c.request := by
  cases c with
  | addService svc =>
    cases h
    have hattr := attr_single (lengthsFit_serviceFields svc)
    simp [readCommand, serviceAttr_eq, hattr, readService_service, Call.request]
  | editService svc =>
    cases h
    have hattr := attr_single (lengthsFit_serviceFields svc)
    simp [readCommand, serviceAttr_eq, hattr, readService_service, Call.request, cmdSetService,
      cmdNewService]
  | delService svc =>
    cases h
    have hattr := attr_single (lengthsFit_serviceIdentityFields svc)
    simp [readCommand, serviceIdentityAttr_eq, hattr, readIdentity_identity, Call.request,
      cmdDelService, cmdSetService, cmdNewService]
  | addDestination svc dst =>
    cases h
    obtain ⟨hsvc, hdst⟩ := attr_pair svc dst
    have hw : 0 ≤ dst.weight ∧ dst.weight < 2 ^ 32 := ⟨hc.1, by have := hc.2; omega⟩
    simp [readCommand, hsvc, hdst, readIdentity_identity, readDest_dest hw, Call.request,
      cmdNewDest, cmdDelService, cmdSetService, cmdNewService]
  | delDestination svc dst =>
    cases h
    obtain ⟨hsvc, hdst⟩ := attr_pair svc dst
    simp [readCommand, hsvc, hdst, readIdentity_identity, readServer_dest, Call.request,
      cmdDelDest, cmdNewDest, cmdDelService, cmdSetService, cmdNewService]
  | _ => cases h

/-- A message is read back as the request of its call. -/
theorem readMessage_request {c : Call} (hc : c.Sendable) {cmd : UInt8} {payload : List UInt8}
    (h : c.genl = some (cmd, payload)) (hlen : payload.length < 2 ^ 20) (family : UInt16)
    (seq : UInt32) : readMessage family (requestBytes family seq cmd payload) = c.request := by
  have htotal : (requestBytes family seq cmd payload).length = 20 + payload.length := by
    simp [requestBytes, neBytes32, neBytes16]
    omega
  have hdrop : (requestBytes family seq cmd payload).drop 20 = payload := by
    simp [requestBytes, neBytes32, neBytes16]
  -- the length field covers the headers
  have hfield : ∀ v : UInt32, fromNeBytes32 v.toUInt8 (v >>> 8).toUInt8 (v >>> 16).toUInt8
      (v >>> 24).toUInt8 = v := fun v => Option.some.inj (neBytes32_read v)
  have hnum : (UInt32.ofNat (16 + (payload.length + 1 + 1 + 1 + 1))).toNat =
      20 + payload.length := by
    rw [UInt32.toNat_ofNat']
    omega
  rw [readMessage, htotal, hdrop]
  simp only [requestBytes, neBytes32, neBytes16, List.cons_append, List.nil_append,
    List.take_succ_cons, List.take_zero, List.length_cons]
  rw [hfield, fromNeBytes16_neBytes16, hnum, if_pos ⟨rfl, rfl⟩]
  exact readCommand_genl hc h

theorem genl_length {c : Call} {cmd : UInt8} {payload : List UInt8}
    (h : c.genl = some (cmd, payload)) : payload.length < 2 ^ 20 := by
  have hservice : ∀ svc, (serviceAttr svc).length < 2 ^ 18 := fun svc => by
    have hfit := (lengthsFit_serviceFields svc).2
    rw [serviceAttr_eq, nla_length]
    omega
  have hidentity : ∀ svc, (serviceIdentityAttr svc).length < 2 ^ 18 := fun svc => by
    have hfit := (lengthsFit_serviceIdentityFields svc).2
    rw [serviceIdentityAttr_eq, nla_length]
    omega
  have hdest : ∀ dst, (destAttr dst).length < 2 ^ 18 := fun dst => by
    have hfit := (lengthsFit_destFields dst).2
    rw [destAttr_eq, nla_length]
    omega
  cases c with
  | addService svc | editService svc =>
    cases h
    have := hservice svc
    omega
  | delService svc =>
    cases h
    have := hidentity svc
    omega
  | addDestination svc dst | delDestination svc dst =>
    cases h
    have h1 := hidentity svc
    have h2 := hdest dst
    rw [List.length_append]
    omega
  | _ => cases h

/-! ## Replies -/

/-- The reply to a request: the negated errno, 0 for an acknowledgement, and the header of the
request. -/
def replyBytes (errno seq : UInt32) (msg : List UInt8) : List UInt8 :=
  neBytes32 36 ++ neBytes16 nlmsgError ++ neBytes16 0 ++ neBytes32 seq ++ neBytes32 0 ++
    neBytes32 (0 - errno) ++ msg.take 16

/-- The `raw_os_error` of the error `request` returns for a reply. -/
def replyError (buf : List UInt8) : Option Int :=
  match buf.take 20 with
  | [_, _, _, _, t0, t1, _, _, _, _, _, _, _, _, _, _, e0, e1, e2, e3] =>
    if fromNeBytes16 t0 t1 = nlmsgError then
      let err := (fromNeBytes32 e0 e1 e2 e3).toBitVec.toInt
      if err ≠ 0 then some (-err) else none
    else none
  | _ => none

theorem replyError_reply {errno : UInt32} (h : errno.toNat < 2 ^ 31) (seq : UInt32)
    (msg : List UInt8) : replyError (replyBytes errno seq msg) =
      if errno = 0 then none else some (errno.toNat : Int) := by
  have hfield : ∀ v : UInt32, fromNeBytes32 v.toUInt8 (v >>> 8).toUInt8 (v >>> 16).toUInt8
      (v >>> 24).toUInt8 = v := fun v => Option.some.inj (neBytes32_read v)
  have hnum : (0 - errno).toBitVec.toInt = -(errno.toNat : Int) := by
    have hval : (0 - errno).toBitVec.toNat = (2 ^ 32 - errno.toNat) % 2 ^ 32 := by
      rw [UInt32.toNat_toBitVec, UInt32.toNat_sub]
      simp
    rw [BitVec.toInt_eq_toNat_cond, hval]
    split <;> omega
  simp only [replyError, replyBytes, neBytes32, neBytes16, List.cons_append, List.nil_append,
    List.take_succ_cons, List.take_zero]
  rw [fromNeBytes16_neBytes16, if_pos rfl, hfield, hnum]
  by_cases hzero : errno = 0
  · rw [if_pos hzero, hzero]
    rfl
  · have hne : errno.toNat ≠ 0 := fun h => hzero (UInt32.toNat_inj.mp h)
    rw [if_neg hzero, if_pos (by omega), Int.neg_neg]

/-! ## Arguments -/

def protoFlag : Protocol → String
  | .Tcp => "-t"
  | .Udp => "-u"
  | .Sctp => "--sctp-service"

def addServiceArgs (svc : IpvsService) : List String :=
  let a := ["-A", protoFlag svc.protocol, vipPort svc.addr svc.port, "-s", svc.scheduler.ipvsName]
  let schedNames := (if svc.schedFlags.flag1 then ["sh-fallback"] else []) ++
    (if svc.schedFlags.flag2 then ["sh-port"] else [])
  let a := if schedNames.isEmpty then a else a ++ ["-b", ",".intercalate schedNames]
  match svc.persistent with
  | some t => a ++ ["-p", toString t.toNat]
  | none => a

/-- `a[0] = "-E"`. -/
def editServiceArgs (svc : IpvsService) : List String := (addServiceArgs svc).set 0 "-E"

def delServiceArgs (svc : IpvsService) : List String :=
  ["-D", protoFlag svc.protocol, vipPort svc.addr svc.port]

def addDestArgs (svc : IpvsService) (dst : IpvsDestination) : List String :=
  ["-a", protoFlag svc.protocol, vipPort svc.addr svc.port, "-r", vipPort dst.addr dst.port,
    if dst.tunnel then "-i" else "-m", "-w", toString dst.weight]

/-- `a[0] = "-e"`. -/
def editDestArgs (svc : IpvsService) (dst : IpvsDestination) : List String :=
  (addDestArgs svc dst).set 0 "-e"

def delDestArgs (svc : IpvsService) (dst : IpvsDestination) : List String :=
  ["-d", protoFlag svc.protocol, vipPort svc.addr svc.port, "-r", vipPort dst.addr dst.port]

/-- The arguments of an operation. -/
def Call.args : Call → Option (List String)
  | addService svc => some (addServiceArgs svc)
  | editService svc => some (editServiceArgs svc)
  | delService svc => some (delServiceArgs svc)
  | addDestination svc dst => some (addDestArgs svc dst)
  | updateDestination svc dst => some (editDestArgs svc dst)
  | delDestination svc dst => some (delDestArgs svc dst)
  | _ => none

/-! ### Reading the arguments -/

/-- The longest timeout `-p` takes, in seconds. -/
def maxTimeout : Nat := 86400 * 31

/-- The options behind the command. -/
structure AdmOptions where
  service : Option ServiceKey := none
  scheduler : Option Scheduler := none
  persistent : Option UInt32 := none
  server : Option (IpAddr × UInt16) := none
  tunnel : Option Bool := none
  weight : Option Nat := none

def readName (name : String) : Option Scheduler :=
  [.Rr, .Lc, .Sh, .Dh, .Mh].find? fun s => s.ipvsName == name

/-- A number within bounds. -/
def readNumber (lo hi : Nat) (text : String) : Option Nat := do
  let n ← parseUnsigned (hi + 1) text.toList
  if lo ≤ n then some n else none

def readOptions : List String → AdmOptions → Option AdmOptions
  | [], o => some o
  | "-i" :: rest, o => readOptions rest { o with tunnel := some true }
  | "-m" :: rest, o => readOptions rest { o with tunnel := some false }
  | flag :: value :: rest, o => do
    if flag = "-t" ∨ flag = "-u" ∨ flag = "--sctp-service" then
      let (addr, port) ← parseAddrPort value.toList
      let proto := if flag = "-t" then .Tcp else if flag = "-u" then .Udp else .Sctp
      readOptions rest { o with service := some (addr, proto, port) }
    else if flag = "-s" then
      readOptions rest { o with scheduler := some (← readName value) }
    else if flag = "-p" then
      readOptions rest
        { o with persistent := some (UInt32.ofNat (← readNumber 1 maxTimeout value)) }
    else if flag = "-r" then
      readOptions rest { o with server := some (← parseAddrPort value.toList) }
    else if flag = "-w" then
      readOptions rest { o with weight := some (← readNumber 0 65535 value) }
    else none
  | _, _ => none

/-- The service the options describe. -/
def AdmOptions.toService (o : AdmOptions) : Option IpvsService := do
  let (addr, protocol, port) ← o.service
  let scheduler ← o.scheduler
  return { addr, protocol, port, scheduler, schedFlags := {}, persistent := o.persistent }

def AdmOptions.toDest (o : AdmOptions) : Option IpvsDestination := do
  let (addr, port) ← o.server
  let tunnel ← o.tunnel
  let weight ← o.weight
  return { addr, port, tunnel, weight }

def readArgs : List String → Option Request
  | [] => none
  | cmd :: rest => do
    let o ← readOptions rest {}
    if cmd = "-A" then return .newService (← o.toService)
    else if cmd = "-E" then return .setService (← o.toService)
    else if cmd = "-D" then return .delService (← o.service)
    else if cmd = "-a" then return .newDest (← o.service) (← o.toDest)
    else if cmd = "-e" then return .setDest (← o.service) (← o.toDest)
    else if cmd = "-d" then
      let (addr, port) ← o.server
      return .delDest (← o.service) addr port
    else none

/-- A service without scheduler flags, with a timeout that `-p` takes. -/
structure IpvsService.Plain (svc : IpvsService) : Prop where
  flags : svc.schedFlags = {}
  timeout : ∀ t, svc.persistent = some t → 1 ≤ t.toNat ∧ t.toNat ≤ maxTimeout

/-- What an operation must be for the binary to carry it out. -/
def Call.Plain : Call → Prop
  | addService svc | editService svc => svc.Plain
  | addDestination _ dst | updateDestination _ dst => 0 ≤ dst.weight ∧ dst.weight < 65536
  | _ => True

theorem readNumber_repr {lo hi n : Nat} (h : lo ≤ n ∧ n ≤ hi) :
    readNumber lo hi n.repr = some n := by
  have htext : n.repr.toList = Nat.toDigits 10 n := toList_toString_nat n
  rw [readNumber, htext, parseUnsigned_toDigits (by omega)]
  simp [h.1]

/-! ### Arguments are read back -/

theorem readOptions_service (svc : IpvsService) (rest : List String) (o : AdmOptions) :
    readOptions (protoFlag svc.protocol :: vipPort svc.addr svc.port :: rest) o =
      readOptions rest { o with service := some svc.key } := by
  obtain ⟨addr, proto, port, sched, flags, pers⟩ := svc
  cases proto <;> simp [readOptions, protoFlag, parseAddrPort_vipPort, IpvsService.key]

theorem readName_ipvsName (s : Scheduler) : readName s.ipvsName = some s := by
  cases s <;> decide

/-- The arguments behind the command for a service. -/
def serviceOptions (svc : IpvsService) : List String :=
  protoFlag svc.protocol :: vipPort svc.addr svc.port :: "-s" :: svc.scheduler.ipvsName ::
    (match svc.persistent with
      | some t => ["-p", toString t.toNat]
      | none => [])

theorem addServiceArgs_plain {svc : IpvsService} (h : svc.Plain) :
    addServiceArgs svc = "-A" :: serviceOptions svc := by
  unfold addServiceArgs serviceOptions
  rw [h.flags]
  cases svc.persistent <;> rfl

theorem readOptions_plain {svc : IpvsService} (h : svc.Plain) :
    ∃ o, readOptions (serviceOptions svc) {} = some o ∧ o.toService = some svc := by
  obtain ⟨addr, proto, port, sched, flags, pers⟩ := svc
  obtain rfl : flags = {} := h.flags
  refine ⟨{ service := some (addr, proto, port), scheduler := some sched, persistent := pers }, ?_,
    rfl⟩
  rw [serviceOptions, readOptions_service]
  cases pers with
  | none => simp [readOptions, readName_ipvsName, IpvsService.key]
  | some t =>
    have hnum := readNumber_repr (h.timeout t rfl)
    simp [readOptions, readName_ipvsName, IpvsService.key, hnum]

/-- The arguments behind the command for a destination. -/
def destOptions (svc : IpvsService) (dst : IpvsDestination) : List String :=
  protoFlag svc.protocol :: vipPort svc.addr svc.port :: "-r" :: vipPort dst.addr dst.port ::
    (if dst.tunnel then "-i" else "-m") :: "-w" :: [toString dst.weight]

theorem readOptions_dest (svc : IpvsService) {dst : IpvsDestination}
    (h : 0 ≤ dst.weight ∧ dst.weight < 65536) :
    ∃ o, readOptions (destOptions svc dst) {} = some o ∧ o.service = some svc.key ∧
      o.toDest = some dst := by
  obtain ⟨addr, port, weight, tunnel⟩ := dst
  obtain ⟨n, rfl⟩ : ∃ n : Nat, weight = n := Int.eq_ofNat_of_zero_le h.1
  have hnum : readNumber 0 65535 (n : Int).repr = some n :=
    readNumber_repr ⟨Nat.zero_le n, by have : (n : Int) < 65536 := h.2; omega⟩
  refine ⟨AdmOptions.mk (some svc.key) none none (some (addr, port)) (some tunnel) (some n), ?_,
    rfl, rfl⟩
  rw [destOptions, readOptions_service]
  cases tunnel <;> simp [parseAddrPort_vipPort, readOptions, hnum]

theorem readArgs_args {c : Call} (hc : c.Plain) {args : List String} (h : c.args = some args) :
    readArgs args = c.request := by
  cases c with
  | addService svc =>
    cases h
    obtain ⟨o, ho, hsvc⟩ := readOptions_plain hc
    rw [addServiceArgs_plain hc]
    simp [readArgs, ho, hsvc, Call.request]
  | editService svc =>
    cases h
    obtain ⟨o, ho, hsvc⟩ := readOptions_plain hc
    rw [editServiceArgs, addServiceArgs_plain hc]
    simp [readArgs, ho, hsvc, Call.request]
  | delService svc =>
    cases h
    simp [delServiceArgs, readArgs, readOptions_service, readOptions, Call.request]
  | addDestination svc dst =>
    cases h
    obtain ⟨o, ho, hkey, hdst⟩ := readOptions_dest svc hc
    have hargs : addDestArgs svc dst = "-a" :: destOptions svc dst := rfl
    rw [hargs]
    simp [readArgs, ho, hkey, hdst, Call.request]
  | updateDestination svc dst =>
    cases h
    obtain ⟨o, ho, hkey, hdst⟩ := readOptions_dest svc hc
    have hargs : editDestArgs svc dst = "-e" :: destOptions svc dst := rfl
    rw [hargs]
    simp [readArgs, ho, hkey, hdst, Call.request]
  | delDestination svc dst =>
    cases h
    simp [delDestArgs, readArgs, readOptions_service, readOptions, parseAddrPort_vipPort,
      Call.request]
  | _ => cases h

end KubeRouter.Proxy
