/-
  The netlink encoding of the IPVS requests (`proxy/src/genetlink.rs`): the attributes, the nested
  service and destination attributes, and the loop of `resolve_family` over the attributes of a
  reply.

  The host is little-endian. The loop indexes the reply; an index past its end is a panic. It is
  given turns, and a run that has used them up is still `running`. Offsets are unbounded: a slice
  has at most `isize::MAX` bytes and the offset stays within four of its length.

  `findAttr` reads one attribute of a request as the kernel does.

  Proved:
  * `attributes_encode`: the bytes of a list of attributes hold these attributes.
  * `scan_eq_fold`: on any bytes the loop goes through the attributes in front of the first
    malformed header and ends.
  * `genetlink_decodable`: the encodings can be read back and tell their arguments apart.
  * `serviceFamily_fwmark`: the family a FWMARK service is created in.
-/
import KubeRouter.Proxy.Model

namespace KubeRouter.Proxy

/-! ## Attributes and requests -/

def Scheduler.ipvsName : Scheduler → String
  | Rr => "rr"
  | Lc => "lc"
  | Sh => "sh"
  | Dh => "dh"
  | Mh => "mh"

def afInet : UInt16 := 2
def afInet6 : UInt16 := 10

def af (ip : IpAddr) : UInt16 := if ip.isIpv6 then afInet6 else afInet

def ctrlAttrFamilyId : UInt16 := 1

def cmdAttrService : UInt16 := 1
def cmdAttrDest : UInt16 := 2

def svcAttrAf : UInt16 := 1
def svcAttrProtocol : UInt16 := 2
def svcAttrAddress : UInt16 := 3
def svcAttrPort : UInt16 := 4
def svcAttrFwmark : UInt16 := 5
def svcAttrSchedName : UInt16 := 6
def svcAttrFlags : UInt16 := 7
def svcAttrTimeout : UInt16 := 8
def svcAttrNetmask : UInt16 := 9

def destAttrAddress : UInt16 := 1
def destAttrPort : UInt16 := 2
def destAttrFwdMethod : UInt16 := 3
def destAttrWeight : UInt16 := 4
def destAttrUThresh : UInt16 := 5
def destAttrLThresh : UInt16 := 6
def destAttrAddrFamily : UInt16 := 11

def fwdMasq : UInt32 := 0
def fwdTunnel : UInt32 := 2
def svcFPersistent : UInt32 := 0x0001
def svcFSched1 : UInt32 := 0x0008
def svcFSched2 : UInt32 := 0x0010
def svcFSched3 : UInt32 := 0x0020

def protoNum : Protocol → UInt16
  | .Tcp => 6
  | .Udp => 17
  | .Sctp => 132

/-- The low `n` bytes of a number, most significant first. -/
def beBytes : Nat → Nat → List UInt8
  | 0, _ => []
  | n + 1, v => UInt8.ofNat (v / 256 ^ n) :: beBytes n v

def addrBytes : IpAddr → List UInt8
  | .V4 a => beBytes 4 a.toNat
  | .V6 a => beBytes 16 a.toNat

/-- `u16::to_ne_bytes` on a little-endian host. -/
def neBytes16 (v : UInt16) : List UInt8 := [v.toUInt8, (v >>> 8).toUInt8]

def neBytes32 (v : UInt32) : List UInt8 :=
  [v.toUInt8, (v >>> 8).toUInt8, (v >>> 16).toUInt8, (v >>> 24).toUInt8]

/-- An attribute: length and type, payload, padding to four bytes. -/
def nla (attrType : UInt16) (payload : List UInt8) : List UInt8 :=
  let out := neBytes16 (UInt16.ofNat (4 + payload.length)) ++ neBytes16 attrType ++ payload
  out ++ List.replicate ((4 - out.length % 4) % 4) 0

def nlaU16 (t v : UInt16) : List UInt8 := nla t (neBytes16 v)

def nlaU32 (t : UInt16) (v : UInt32) : List UInt8 := nla t (neBytes32 v)

def zeroTerminated (s : String) : List UInt8 := s.toUTF8.toList ++ [0]

/-- The nested service attribute of a FWMARK service. -/
def fwmarkServiceAttr (fwmark : UInt32) (scheduler : Scheduler) (persistent : Option UInt32) :
    List UInt8 :=
  let flags := if persistent.isSome then svcFPersistent else 0
  nla cmdAttrService
    [nlaU16 svcAttrAf afInet,
      nlaU32 svcAttrFwmark fwmark,
      nla svcAttrSchedName (zeroTerminated scheduler.ipvsName),
      nla svcAttrFlags (neBytes32 flags ++ neBytes32 0xFFFFFFFF),
      nlaU32 svcAttrTimeout (persistent.getD 0),
      nlaU32 svcAttrNetmask 0xFFFFFFFF].flatten

/-- The `{flags, mask}` of a virtual service. -/
def serviceFlags (svc : IpvsService) : UInt32 :=
  let flags := if svc.persistent.isSome then svcFPersistent else 0
  let flags := if svc.schedFlags.flag1 then flags ||| svcFSched1 else flags
  let flags := if svc.schedFlags.flag2 then flags ||| svcFSched2 else flags
  if svc.schedFlags.flag3 then flags ||| svcFSched3 else flags

def netmask (addr : IpAddr) : UInt32 := if addr.isIpv6 then 128 else 0xFFFFFFFF

/-- The nested service attribute of a virtual service. -/
def serviceAttr (svc : IpvsService) : List UInt8 :=
  nla cmdAttrService
    [nlaU16 svcAttrAf (af svc.addr),
      nlaU16 svcAttrProtocol (protoNum svc.protocol),
      nla svcAttrAddress (addrBytes svc.addr),
      nla svcAttrPort (beBytes 2 svc.port.toNat),
      nla svcAttrSchedName (zeroTerminated svc.scheduler.ipvsName),
      nla svcAttrFlags (neBytes32 (serviceFlags svc) ++ neBytes32 0xFFFFFFFF),
      nlaU32 svcAttrTimeout (svc.persistent.getD 0),
      nlaU32 svcAttrNetmask (netmask svc.addr)].flatten

/-- Only what identifies the service. -/
def serviceIdentityAttr (svc : IpvsService) : List UInt8 :=
  nla cmdAttrService
    [nlaU16 svcAttrAf (af svc.addr),
      nlaU16 svcAttrProtocol (protoNum svc.protocol),
      nla svcAttrAddress (addrBytes svc.addr),
      nla svcAttrPort (beBytes 2 svc.port.toNat),
      nlaU32 svcAttrNetmask (netmask svc.addr)].flatten

/-- The nested attribute of a real server. The `i32` weight is sent as a `u32`. -/
def destAttr (dst : IpvsDestination) : List UInt8 :=
  nla cmdAttrDest
    [nla destAttrAddress (addrBytes dst.addr),
      nla destAttrPort (beBytes 2 dst.port.toNat),
      nlaU32 destAttrFwdMethod (if dst.tunnel then fwdTunnel else fwdMasq),
      nlaU32 destAttrWeight (UInt32.ofInt dst.weight),
      nlaU32 destAttrUThresh 0,
      nlaU32 destAttrLThresh 0,
      nlaU16 destAttrAddrFamily (af dst.addr)].flatten

/-- The payload of the first attribute of a type. -/
def findAttr (t : UInt16) : Nat → List UInt8 → Option (List UInt8)
  | fuel + 1, l0 :: l1 :: t0 :: t1 :: rest =>
    let len := l0.toNat + 256 * l1.toNat
    if len < 4 then none
    else if [t0, t1] = neBytes16 t then some (rest.take (len - 4))
    else findAttr t fuel (rest.drop ((len + 3) / 4 * 4 - 4))
  | _, _ => none

/-- The family a request for a service names. -/
def serviceFamily (msg : List UInt8) : Option (List UInt8) := do
  let svc ← findAttr cmdAttrService msg.length msg
  findAttr svcAttrAf svc.length svc

/-! ## The attribute loop -/

/-- `u16::from_ne_bytes` on a little-endian host. -/
def fromNeBytes16 (b0 b1 : UInt8) : UInt16 := b0.toUInt16 ||| b1.toUInt16 <<< 8

/-- What the body of the loop does with an attribute. -/
inductive Flow (σ β : Type) where
  | next (s : σ)
  | ret (b : β)
  | panic

/-- How far a run has come in the turns it was given. -/
inductive Run (β : Type) where
  | running
  | panicked
  | done (b : β)
deriving DecidableEq

/-- The loop over the attributes of a reply, at offset `i` with the local state `s`: `body` is run
with the offset, length and type of each attribute, `after` when the loop ends. -/
def scan {σ β : Type} (attrs : List UInt8) (body : σ → Nat → Nat → UInt16 → Flow σ β)
    (after : σ → β) :
    Nat → Nat → σ → Run β
  | 0, _, _ => .running
  | turns + 1, i, s =>
    if i + 4 ≤ attrs.length then
      match attrs[i]?, attrs[i + 1]?, attrs[i + 2]?, attrs[i + 3]? with
      | some l0, some l1, some t0, some t1 =>
        let len := (fromNeBytes16 l0 l1).toNat
        let t := fromNeBytes16 t0 t1
        if len < 4 ∨ i + len > attrs.length then .done (after s)
        else
          match body s i len t with
          | .next s => scan attrs body after turns (i + (len + 3) / 4 * 4) s
          | .ret b => .done b
          | .panic => .panicked
      | _, _, _, _ => .panicked
    else .done (after s)

/-- `resolve_family` on the reply `resp`: the headers of 16 and 4 bytes are skipped. -/
def resolveFamily (turns : Nat) (resp : List UInt8) : Run (Except String UInt16) :=
  let attrs := resp.drop 20
  scan attrs
    (fun _ i len t =>
      if t = ctrlAttrFamilyId ∧ len ≥ 6 then
        match attrs[i + 4]?, attrs[i + 5]? with
        | some b0, some b1 => .ret (.ok (fromNeBytes16 b0 b1))
        | _, _ => .panic
      else .next ())
    (fun _ => .error "IPVS genl family not found") turns 0 ()

/-- The same loop, noting the type and the payload of every attribute it visits. -/
def visited (turns : Nat) (attrs : List UInt8) : Run (List (UInt16 × List UInt8)) :=
  scan attrs (fun seen i len t => .next (seen ++ [(t, (attrs.drop (i + 4)).take (len - 4))])) id
    turns 0 []

/-- The types inside a destination attribute. -/
def destAttrTypes (turns : Nat) (dst : IpvsDestination) : Run (List UInt16) :=
  scan ((destAttr dst).drop 4) (fun types _ _ t => .next (types ++ [t])) id turns 0 []

theorem neBytes16_toNat (v : UInt16) :
    v.toUInt8.toNat + 256 * (v >>> 8).toUInt8.toNat = v.toNat := by
  have hv := v.toNat_lt
  have hhigh : (v >>> 8).toNat = v.toNat / 256 := by
    rw [UInt16.toNat_shiftRight, Nat.shiftRight_eq_div_pow]
    rfl
  rw [UInt16.toNat_toUInt8, UInt16.toNat_toUInt8, hhigh]
  omega

theorem nla_length_le (t : UInt16) (payload : List UInt8) :
    (nla t payload).length ≤ payload.length + 7 := by
  simp only [nla, neBytes16, List.length_append, List.length_cons, List.length_nil,
    List.length_replicate]
  omega

theorem nla_length_pos (t : UInt16) (payload : List UInt8) : 0 < (nla t payload).length := by
  simp [nla, neBytes16]

/-- An attribute in front is found. -/
theorem findAttr_nla (t : UInt16) (payload rest : List UInt8) (h : payload.length < 65532) :
    findAttr t (nla t payload ++ rest).length (nla t payload ++ rest) = some payload := by
  have hpos := nla_length_pos t payload
  obtain ⟨fuel, hfuel⟩ : ∃ fuel, (nla t payload ++ rest).length = fuel + 1 := by
    refine ⟨(nla t payload ++ rest).length - 1, ?_⟩
    rw [List.length_append]
    omega
  have hlen : (UInt16.ofNat (4 + payload.length)).toUInt8.toNat +
      256 * ((UInt16.ofNat (4 + payload.length)) >>> 8).toUInt8.toNat = 4 + payload.length := by
    rw [neBytes16_toNat, UInt16.toNat_ofNat']
    omega
  rw [hfuel]
  simp only [nla, neBytes16, List.cons_append, List.nil_append, List.append_assoc, findAttr]
  rw [hlen, if_neg (by omega), if_pos trivial, Nat.add_sub_cancel_left, List.take_left]

/-! ## What a byte string holds -/

/-- The header in front: length and type, the length covers the header and lies within the bytes. -/
def HasHeader (bytes : List UInt8) (len : Nat) (t : UInt16) : Prop :=
  ∃ l0 l1 t0 t1 rest, bytes = l0 :: l1 :: t0 :: t1 :: rest ∧ (fromNeBytes16 l0 l1).toNat = len ∧
    fromNeBytes16 t0 t1 = t ∧ 4 ≤ len ∧ len ≤ bytes.length

/-- The attributes of a byte string, up to the first malformed header. -/
inductive Attributes : List UInt8 → List (UInt16 × List UInt8) → Prop
  | malformed {bytes : List UInt8} (h : ∀ len t, ¬HasHeader bytes len t) : Attributes bytes []
  | attr {bytes : List UInt8} {len : Nat} {t : UInt16} {as : List (UInt16 × List UInt8)}
      (h : HasHeader bytes len t) (hrest : Attributes (bytes.drop ((len + 3) / 4 * 4)) as) :
      Attributes bytes ((t, (bytes.drop 4).take (len - 4)) :: as)

/-- The bytes of a list of attributes. -/
def encode (as : List (UInt16 × List UInt8)) : List UInt8 := as.flatMap fun a => nla a.1 a.2

theorem exists_attributes (bytes : List UInt8) : ∃ as, Attributes bytes as := by
  induction hn : bytes.length using Nat.strong_induction_on generalizing bytes with
  | _ n ih =>
    by_cases h : ∃ len t, HasHeader bytes len t
    · obtain ⟨len, t, hhead⟩ := h
      obtain ⟨-, -, -, -, -, -, -, -, hlen, hle⟩ := id hhead
      have hlt : (bytes.drop ((len + 3) / 4 * 4)).length < n := by
        rw [List.length_drop]
        omega
      obtain ⟨as, has⟩ := ih _ hlt _ rfl
      exact ⟨_, .attr hhead has⟩
    · exact ⟨[], .malformed fun len t hhead => h ⟨len, t, hhead⟩⟩

theorem fromNeBytes16_toNat (b0 b1 : UInt8) :
    (fromNeBytes16 b0 b1).toNat = b0.toNat + 256 * b1.toNat := by
  have h0 := b0.toNat_lt
  have h1 := b1.toNat_lt
  have hshift : (b1.toUInt16 <<< 8).toNat = b1.toNat <<< 8 := by
    rw [UInt16.toNat_shiftLeft, UInt8.toNat_toUInt16]
    have : (8 : UInt16).toNat % 16 = 8 := rfl
    rw [this, Nat.shiftLeft_eq, Nat.mod_eq_of_lt (by omega)]
  unfold fromNeBytes16
  rw [UInt16.toNat_or, hshift, UInt8.toNat_toUInt16, Nat.or_comm, Nat.shiftLeft_eq, Nat.mul_comm,
    ← Nat.two_pow_add_eq_or_of_lt (by omega)]
  omega

theorem fromNeBytes16_neBytes16 (v : UInt16) :
    fromNeBytes16 v.toUInt8 (v >>> 8).toUInt8 = v := by
  apply UInt16.toNat_inj.mp
  rw [fromNeBytes16_toNat, neBytes16_toNat]

theorem nla_length (t : UInt16) (payload : List UInt8) :
    (nla t payload).length = (payload.length + 7) / 4 * 4 := by
  simp only [nla, neBytes16, List.length_append, List.length_cons, List.length_nil,
    List.length_replicate]
  omega

theorem hasHeader_nla (t : UInt16) {payload : List UInt8} (rest : List UInt8)
    (h : payload.length ≤ 65531) : HasHeader (nla t payload ++ rest) (4 + payload.length) t := by
  refine ⟨_, _, _, _, _, rfl, ?_, fromNeBytes16_neBytes16 t, by omega, ?_⟩
  · rw [fromNeBytes16_neBytes16, UInt16.toNat_ofNat']
    omega
  · rw [List.length_append, nla_length]
    omega

theorem payload_nla (t : UInt16) (payload rest : List UInt8) :
    ((nla t payload ++ rest).drop 4).take payload.length = payload := by
  simp only [nla, neBytes16, List.cons_append, List.nil_append, List.append_assoc,
    List.drop_succ_cons, List.drop_zero, List.take_left]

/-- Attributes that are written one after the other are read back. -/
theorem attributes_encode {as : List (UInt16 × List UInt8)}
    (h : ∀ a ∈ as, a.2.length ≤ 65531) : Attributes (encode as) as := by
  induction as with
  | nil =>
    refine .malformed fun len t hhead => ?_
    obtain ⟨_, _, _, _, _, heq, _⟩ := hhead
    cases heq
  | cons a as ih =>
    obtain ⟨ha, has⟩ := List.forall_mem_cons.mp h
    have hdrop : (nla a.1 a.2 ++ encode as).drop ((4 + a.2.length + 3) / 4 * 4) = encode as := by
      refine List.drop_left' ?_
      rw [nla_length]
      omega
    have hattr := Attributes.attr (hasHeader_nla a.1 (encode as) ha) (hdrop ▸ ih has)
    rw [Nat.add_sub_cancel_left, payload_nla] at hattr
    exact hattr

/-- The loop as a fold over attributes. -/
def foldAttrs {σ β : Type} (g : σ → UInt16 → List UInt8 → Flow σ β) (after : σ → β) :
    σ → List (UInt16 × List UInt8) → Run β
  | s, [] => .done (after s)
  | s, a :: as =>
    match g s a.1 a.2 with
    | .next s => foldAttrs g after s as
    | .ret b => .done b
    | .panic => .panicked

theorem getElem?_of_drop {bytes rest : List UInt8} {i : Nat} {b0 b1 b2 b3 : UInt8}
    (h : bytes.drop i = b0 :: b1 :: b2 :: b3 :: rest) :
    bytes[i]? = some b0 ∧ bytes[i + 1]? = some b1 ∧ bytes[i + 2]? = some b2 ∧
      bytes[i + 3]? = some b3 := by
  have hget : ∀ k, bytes[i + k]? = (b0 :: b1 :: b2 :: b3 :: rest)[k]? := by
    intro k
    rw [← h, List.getElem?_drop]
  exact ⟨hget 0, hget 1, hget 2, hget 3⟩

theorem exists_drop_eq {bytes : List UInt8} {i : Nat} (h : i + 4 ≤ bytes.length) :
    ∃ b0 b1 b2 b3 rest, bytes.drop i = b0 :: b1 :: b2 :: b3 :: rest := by
  have hlen : (bytes.drop i).length = bytes.length - i := List.length_drop
  match hdrop : bytes.drop i with
  | b0 :: b1 :: b2 :: b3 :: rest => exact ⟨b0, b1, b2, b3, rest, rfl⟩
  | [] | [_] | [_, _] | [_, _, _] =>
    rw [hdrop] at hlen
    simp only [List.length_cons, List.length_nil] at hlen
    omega

section Scan

variable {σ β : Type} {attrs : List UInt8} {body : σ → Nat → Nat → UInt16 → Flow σ β}
  {g : σ → UInt16 → List UInt8 → Flow σ β} {after : σ → β}

/-- The loop ends at a malformed header. -/
theorem scan_malformed {i : Nat} (h : ∀ len t, ¬HasHeader (attrs.drop i) len t) (turns : Nat)
    (s : σ) : scan attrs body after (turns + 1) i s = .done (after s) := by
  unfold scan
  split
  · next hfits =>
    obtain ⟨l0, l1, t0, t1, rest, hdrop⟩ := exists_drop_eq hfits
    obtain ⟨h0, h1, h2, h3⟩ := getElem?_of_drop hdrop
    simp only [h0, h1, h2, h3]
    refine if_pos ?_
    by_contra hlen
    rw [not_or] at hlen
    refine h _ _ ⟨l0, l1, t0, t1, rest, hdrop, rfl, rfl, by omega, ?_⟩
    rw [List.length_drop]
    omega
  · rfl

/-- One turn at a header that is in order. -/
theorem scan_attr {i len : Nat} {t : UInt16} (h : HasHeader (attrs.drop i) len t) (turns : Nat)
    (s : σ) :
    scan attrs body after (turns + 1) i s =
      match body s i len t with
      | .next s => scan attrs body after turns (i + (len + 3) / 4 * 4) s
      | .ret b => .done b
      | .panic => .panicked := by
  obtain ⟨l0, l1, t0, t1, rest, hdrop, rfl, rfl, hlen, hle⟩ := h
  obtain ⟨h0, h1, h2, h3⟩ := getElem?_of_drop hdrop
  rw [List.length_drop] at hle
  rw [scan, if_pos (by omega)]
  simp only [h0, h1, h2, h3]
  exact if_neg (by omega)

/-- The loop over any bytes: it goes through the attributes and ends, provided that the body reads
the attribute it is given. -/
theorem scan_eq_fold
    (hbody : ∀ s i len t, 4 ≤ len → i + len ≤ attrs.length →
      body s i len t = g s t ((attrs.drop (i + 4)).take (len - 4)))
    {as : List (UInt16 × List UInt8)} {turns : Nat} (hturns : attrs.length < turns)
    (has : Attributes attrs as) (s : σ) :
    scan attrs body after turns 0 s = foldAttrs g after s as := by
  -- from offset `i` on, with a turn for each byte that is left
  suffices hfrom : ∀ bytes as, Attributes bytes as → ∀ i turns s, attrs.drop i = bytes →
      attrs.length - i < turns → scan attrs body after turns i s = foldAttrs g after s as from
    hfrom attrs as has 0 turns s rfl (by omega)
  intro bytes as has
  induction has with
  | malformed h =>
    intro i turns s hi hturns
    obtain ⟨turns, rfl⟩ : ∃ n, turns = n + 1 := ⟨turns - 1, by omega⟩
    exact scan_malformed (hi ▸ h) turns s
  | @attr bytes len t as h _ ih =>
    intro i turns s hi hturns
    obtain ⟨turns, rfl⟩ : ∃ n, turns = n + 1 := ⟨turns - 1, by omega⟩
    subst hi
    obtain ⟨-, -, -, -, -, -, -, -, hlen, hle⟩ := id h
    rw [List.length_drop] at hle
    have hpay : ((attrs.drop i).drop 4).take (len - 4) = (attrs.drop (i + 4)).take (len - 4) := by
      rw [List.drop_drop]
    rw [scan_attr h, hbody s i len t hlen (by omega), foldAttrs, hpay]
    cases g s t ((attrs.drop (i + 4)).take (len - 4)) with
    | next s =>
      refine ih _ turns s ?_ (by omega)
      rw [List.drop_drop]
    | ret b => rfl
    | panic => rfl

end Scan

/-- A body that notes something of every attribute. -/
theorem foldAttrs_note {γ : Type} (f : UInt16 × List UInt8 → γ) (seen : List γ)
    (as : List (UInt16 × List UInt8)) :
    foldAttrs (fun seen t payload => .next (seen ++ [f (t, payload)])) id seen as =
      .done (seen ++ as.map f) := by
  induction as generalizing seen with
  | nil =>
    rw [foldAttrs, List.map_nil, List.append_nil]
    rfl
  | cons a as ih =>
    rw [foldAttrs]
    exact (ih _).trans (by rw [List.append_assoc]; rfl)

/-- The loop visits the attributes. -/
theorem visited_eq {attrs : List UInt8} {as : List (UInt16 × List UInt8)} {turns : Nat}
    (hturns : attrs.length < turns) (has : Attributes attrs as) :
    visited turns attrs = .done as := by
  have hnote := foldAttrs_note id [] as
  rw [List.nil_append, List.map_id] at hnote
  exact (scan_eq_fold (fun _ _ _ _ _ _ => rfl) hturns has []).trans hnote

def isFamilyId (a : UInt16 × List UInt8) : Bool := a.1 == ctrlAttrFamilyId && 2 ≤ a.2.length

/-- The family that the first `FAMILY_ID` of at least two bytes names. -/
def familyOf (as : List (UInt16 × List UInt8)) : Except String UInt16 :=
  match as.find? isFamilyId with
  | some (_, b0 :: b1 :: _) => .ok (fromNeBytes16 b0 b1)
  | _ => .error "IPVS genl family not found"

/-- The body of `resolve_family` on the payload of an attribute. -/
def familyStep (_ : Unit) (t : UInt16) (payload : List UInt8) : Flow Unit (Except String UInt16) :=
  if isFamilyId (t, payload) then
    match payload with
    | b0 :: b1 :: _ => .ret (.ok (fromNeBytes16 b0 b1))
    | _ => .panic
  else .next ()

theorem foldAttrs_familyStep (as : List (UInt16 × List UInt8)) :
    foldAttrs familyStep (fun _ => .error "IPVS genl family not found") () as =
      .done (familyOf as) := by
  induction as with
  | nil => rfl
  | cons a as ih =>
    obtain ⟨t, payload⟩ := a
    by_cases hid : isFamilyId (t, payload) = true
    · match payload with
      | b0 :: b1 :: rest => simp [foldAttrs, familyStep, familyOf, hid]
      | [] | [_] => simp [isFamilyId] at hid
    · simp only [foldAttrs, familyStep, hid, familyOf, List.find?_cons] at ih ⊢
      exact ih

/-- `resolve_family` on any reply. -/
theorem resolveFamily_eq {resp : List UInt8} {as : List (UInt16 × List UInt8)} {turns : Nat}
    (hturns : resp.length < turns) (has : Attributes (resp.drop 20) as) :
    resolveFamily turns resp = .done (familyOf as) := by
  have hlen : (resp.drop 20).length < turns := by
    rw [List.length_drop]
    omega
  unfold resolveFamily
  dsimp only
  rw [← foldAttrs_familyStep]
  refine scan_eq_fold (fun _ i len t hfour hle => ?_) hlen has ()
  generalize resp.drop 20 = attrs at hle ⊢
  have hpay : ((attrs.drop (i + 4)).take (len - 4)).length = len - 4 := by
    rw [List.length_take, List.length_drop]
    omega
  have hid : isFamilyId (t, (attrs.drop (i + 4)).take (len - 4)) = true ↔
      t = ctrlAttrFamilyId ∧ len ≥ 6 := by
    simp only [isFamilyId, hpay, Bool.and_eq_true, beq_iff_eq, decide_eq_true_eq]
    exact and_congr_right fun _ => by omega
  unfold familyStep
  by_cases hfound : t = ctrlAttrFamilyId ∧ len ≥ 6
  · rw [if_pos hfound, if_pos (hid.mpr hfound)]
    obtain ⟨n, rfl⟩ : ∃ n, len = n + 6 := ⟨len - 6, by omega⟩
    match hdrop : attrs.drop (i + 4) with
    | b0 :: b1 :: rest =>
      have hget : ∀ k, attrs[i + 4 + k]? = (b0 :: b1 :: rest)[k]? := by
        intro k
        rw [← hdrop, List.getElem?_drop]
      have h0 : attrs[i + 4]? = some b0 := hget 0
      have h1 : attrs[i + 5]? = some b1 := hget 1
      simp only [h0, h1]
      rfl
    | [] | [_] =>
      rw [hdrop] at hpay
      simp only [List.take_nil, List.length_take, List.length_cons, List.length_nil] at hpay
      omega
  · rw [if_neg hfound, if_neg fun h => hfound (hid.mp h)]

/-! ## Reading a request back -/

/-- No length of the attributes, alone or nested into one, is cut to sixteen bits. -/
def LengthsFit (as : List (UInt16 × List UInt8)) : Prop :=
  (∀ a ∈ as, 4 + a.2.length < 2 ^ 16) ∧ 4 + (encode as).length < 2 ^ 16

theorem encode_length_le {as : List (UInt16 × List UInt8)} (h : ∀ a ∈ as, a.2.length ≤ 16) :
    (encode as).length ≤ 23 * as.length := by
  induction as with
  | nil => exact Nat.le_refl 0
  | cons a as ih =>
    obtain ⟨ha, has⟩ := List.forall_mem_cons.mp h
    have hnla := nla_length_le a.1 a.2
    have hrest := ih has
    unfold encode at hrest ⊢
    rw [List.flatMap_cons, List.length_append, List.length_cons]
    omega

/-- A few short attributes. -/
theorem lengthsFit_of_short {as : List (UInt16 × List UInt8)} (h : ∀ a ∈ as, a.2.length ≤ 16)
    (hfew : as.length ≤ 8) : LengthsFit as := by
  refine ⟨fun a ha => ?_, ?_⟩
  · have := h a ha
    omega
  · have := encode_length_le h
    omega

theorem encode_inj {as bs : List (UInt16 × List UInt8)} (has : ∀ a ∈ as, 4 + a.2.length < 2 ^ 16)
    (hbs : ∀ b ∈ bs, 4 + b.2.length < 2 ^ 16) (h : encode as = encode bs) : as = bs := by
  have hturns := Nat.lt_succ_self (encode as).length
  have ha := visited_eq hturns (attributes_encode fun a ha => by have := has a ha; omega)
  have hb := visited_eq (h ▸ hturns) (attributes_encode fun b hb => by have := hbs b hb; omega)
  rw [← h, ha] at hb
  exact Run.done.inj hb

/-- Nested attributes. -/
theorem nested_inj {t : UInt16} {as bs : List (UInt16 × List UInt8)} (has : LengthsFit as)
    (hbs : LengthsFit bs) (h : nla t (encode as) = nla t (encode bs)) : as = bs := by
  have houter : encode [(t, encode as)] = encode [(t, encode bs)] := by
    simpa [encode] using h
  have hsame := encode_inj (by simpa using has.2) (by simpa using hbs.2) houter
  simp only [List.cons.injEq, Prod.mk.injEq, true_and, and_true] at hsame
  exact encode_inj has.1 hbs.1 hsame

theorem encode_length_mod (as : List (UInt16 × List UInt8)) : (encode as).length % 4 = 0 := by
  induction as with
  | nil => rfl
  | cons a as ih =>
    have hnla := nla_length a.1 a.2
    unfold encode at ih ⊢
    rw [List.flatMap_cons, List.length_append]
    omega

/-- A payload of whole words is not padded. -/
theorem drop_nla (t : UInt16) {payload : List UInt8} (h : payload.length % 4 = 0) :
    (nla t payload).drop 4 = payload := by
  have htake := payload_nla t payload []
  rw [List.append_nil, List.take_of_length_le] at htake
  · exact htake
  · rw [List.length_drop, nla_length]
    omega

/-! ### Values -/

theorem neBytes16_injective : Function.Injective neBytes16 := by
  intro v w h
  simp only [neBytes16, List.cons.injEq, and_true] at h
  rw [← fromNeBytes16_neBytes16 v, ← fromNeBytes16_neBytes16 w, h.1, h.2]

theorem neBytes32_injective : Function.Injective neBytes32 := by
  intro v w h
  have hv := v.toNat_lt
  have hw := w.toNat_lt
  simp only [neBytes32, List.cons.injEq, and_true, ← UInt8.toNat_inj, UInt32.toNat_toUInt8,
    UInt32.toNat_shiftRight, Nat.shiftRight_eq_div_pow] at h
  obtain ⟨h0, h1, h2, h3⟩ := h
  apply UInt32.toNat_inj.mp
  simp at h0 h1 h2 h3
  omega

theorem beBytes_length (n v : Nat) : (beBytes n v).length = n := by
  induction n with
  | zero => rfl
  | succ n ih => rw [beBytes, List.length_cons, ih]

theorem mod_eq_of_beBytes_eq {n v w : Nat} (h : beBytes n v = beBytes n w) :
    v % 256 ^ n = w % 256 ^ n := by
  induction n with
  | zero => rw [Nat.pow_zero, Nat.mod_one, Nat.mod_one]
  | succ n ih =>
    simp only [beBytes, List.cons.injEq] at h
    have hbyte : v / 256 ^ n % 256 = w / 256 ^ n % 256 := by
      simpa using congrArg UInt8.toNat h.1
    rw [Nat.mod_pow_succ, Nat.mod_pow_succ, ih h.2, hbyte]

theorem beBytes_port_injective {p q : UInt16}
    (h : beBytes 2 p.toNat = beBytes 2 q.toNat) : p = q := by
  have hmod := mod_eq_of_beBytes_eq h
  have hp := p.toNat_lt
  have hq := q.toNat_lt
  exact UInt16.toNat_inj.mp (by omega)

theorem addrBytes_injective : Function.Injective addrBytes := by
  intro a b h
  have hlen := congrArg List.length h
  match a, b with
  | .V4 a, .V4 b =>
    have hmod := mod_eq_of_beBytes_eq h
    have ha := a.isLt
    have hb := b.isLt
    exact congrArg _ (BitVec.eq_of_toNat_eq (by omega))
  | .V6 a, .V6 b =>
    have hmod := mod_eq_of_beBytes_eq h
    have ha := a.isLt
    have hb := b.isLt
    exact congrArg _ (BitVec.eq_of_toNat_eq (by omega))
  | .V4 a, .V6 b => simp [addrBytes, beBytes_length] at hlen
  | .V6 a, .V4 b => simp [addrBytes, beBytes_length] at hlen

theorem addrBytes_length_le (a : IpAddr) : (addrBytes a).length ≤ 16 := by
  cases a <;> simp [addrBytes, beBytes_length]

theorem protoNum_injective : Function.Injective protoNum := by
  intro p q h
  cases p <;> cases q <;> first | rfl | cases h

theorem zeroTerminated_ipvsName_injective {s s' : Scheduler}
    (h : zeroTerminated s.ipvsName = zeroTerminated s'.ipvsName) : s = s' := by
  revert h
  cases s <;> cases s' <;> decide +kernel

theorem zeroTerminated_length (scheduler : Scheduler) :
    (zeroTerminated scheduler.ipvsName).length = 3 := by
  cases scheduler <;> decide +kernel

/-- The flags tell persistence and the three scheduler flags. -/
theorem serviceFlags_inj {s s' : IpvsService} (h : serviceFlags s = serviceFlags s') :
    s.persistent.isSome = s'.persistent.isSome ∧ s.schedFlags = s'.schedFlags := by
  obtain ⟨_, _, _, _, ⟨f1, f2, f3⟩, p⟩ := s
  obtain ⟨_, _, _, _, ⟨f1', f2', f3'⟩, p'⟩ := s'
  simp only [serviceFlags] at h ⊢
  generalize p.isSome = b at h ⊢
  generalize p'.isSome = b' at h ⊢
  revert b b' f1 f2 f3 f1' f2' f3'
  decide

theorem persistent_inj {p p' : Option UInt32} (hsome : p.isSome = p'.isSome)
    (hval : p.getD 0 = p'.getD 0) : p = p' := by
  cases p <;> cases p' <;> simp_all

/-- Weights of thirty-two bits. -/
theorem weight_inj {w w' : Int} (hw : -2 ^ 31 ≤ w ∧ w < 2 ^ 31) (hw' : -2 ^ 31 ≤ w' ∧ w' < 2 ^ 31)
    (h : UInt32.ofInt w = UInt32.ofInt w') : w = w' := by
  have hval := congrArg UInt32.toNat h
  simp only [UInt32.ofInt, UInt32.toNat_ofNat'] at hval
  omega

/-! ### Requests -/

/-- What a service attribute holds. -/
def serviceFields (svc : IpvsService) : List (UInt16 × List UInt8) :=
  [(svcAttrAf, neBytes16 (af svc.addr)),
    (svcAttrProtocol, neBytes16 (protoNum svc.protocol)),
    (svcAttrAddress, addrBytes svc.addr),
    (svcAttrPort, beBytes 2 svc.port.toNat),
    (svcAttrSchedName, zeroTerminated svc.scheduler.ipvsName),
    (svcAttrFlags, neBytes32 (serviceFlags svc) ++ neBytes32 0xFFFFFFFF),
    (svcAttrTimeout, neBytes32 (svc.persistent.getD 0)),
    (svcAttrNetmask, neBytes32 (netmask svc.addr))]

def serviceIdentityFields (svc : IpvsService) : List (UInt16 × List UInt8) :=
  [(svcAttrAf, neBytes16 (af svc.addr)),
    (svcAttrProtocol, neBytes16 (protoNum svc.protocol)),
    (svcAttrAddress, addrBytes svc.addr),
    (svcAttrPort, beBytes 2 svc.port.toNat),
    (svcAttrNetmask, neBytes32 (netmask svc.addr))]

def destFields (dst : IpvsDestination) : List (UInt16 × List UInt8) :=
  [(destAttrAddress, addrBytes dst.addr),
    (destAttrPort, beBytes 2 dst.port.toNat),
    (destAttrFwdMethod, neBytes32 (if dst.tunnel then fwdTunnel else fwdMasq)),
    (destAttrWeight, neBytes32 (UInt32.ofInt dst.weight)),
    (destAttrUThresh, neBytes32 0),
    (destAttrLThresh, neBytes32 0),
    (destAttrAddrFamily, neBytes16 (af dst.addr))]

theorem serviceAttr_eq (svc : IpvsService) :
    serviceAttr svc = nla cmdAttrService (encode (serviceFields svc)) := rfl

theorem serviceIdentityAttr_eq (svc : IpvsService) :
    serviceIdentityAttr svc = nla cmdAttrService (encode (serviceIdentityFields svc)) := rfl

theorem destAttr_eq (dst : IpvsDestination) :
    destAttr dst = nla cmdAttrDest (encode (destFields dst)) := rfl

theorem lengthsFit_serviceFields (svc : IpvsService) : LengthsFit (serviceFields svc) := by
  refine lengthsFit_of_short ?_ (Nat.le_refl 8)
  simp [serviceFields, neBytes16, neBytes32, beBytes_length, zeroTerminated_length,
    addrBytes_length_le]

theorem lengthsFit_serviceIdentityFields (svc : IpvsService) :
    LengthsFit (serviceIdentityFields svc) := by
  refine lengthsFit_of_short ?_ (Nat.le_of_ble_eq_true rfl)
  simp [serviceIdentityFields, neBytes16, neBytes32, beBytes_length, addrBytes_length_le]

theorem lengthsFit_destFields (dst : IpvsDestination) : LengthsFit (destFields dst) := by
  refine lengthsFit_of_short ?_ (Nat.le_of_ble_eq_true rfl)
  simp [destFields, neBytes16, neBytes32, beBytes_length, addrBytes_length_le]

theorem serviceAttr_injective : Function.Injective serviceAttr := by
  intro s s' h
  have hfields := nested_inj (lengthsFit_serviceFields s) (lengthsFit_serviceFields s') h
  simp only [serviceFields, List.cons.injEq, Prod.mk.injEq, true_and, and_true] at hfields
  obtain ⟨-, hproto, haddr, hport, hsched, hflags, htimeout, -⟩ := hfields
  obtain ⟨hsome, hsf⟩ := serviceFlags_inj
    (neBytes32_injective ((List.append_left_inj (neBytes32 0xFFFFFFFF)).mp hflags))
  have hpers := persistent_inj hsome (neBytes32_injective htimeout)
  have haddr := addrBytes_injective haddr
  have hproto := protoNum_injective (neBytes16_injective hproto)
  have hport := beBytes_port_injective hport
  have hsched := zeroTerminated_ipvsName_injective hsched
  cases s
  cases s'
  simp_all

theorem serviceIdentityAttr_eq_iff {s s' : IpvsService} :
    serviceIdentityAttr s = serviceIdentityAttr s' ↔ s.key = s'.key := by
  constructor
  · intro h
    have hfields := nested_inj (lengthsFit_serviceIdentityFields s)
      (lengthsFit_serviceIdentityFields s') h
    simp only [serviceIdentityFields, List.cons.injEq, Prod.mk.injEq, true_and, and_true] at hfields
    obtain ⟨-, hproto, haddr, hport, -⟩ := hfields
    unfold IpvsService.key
    rw [addrBytes_injective haddr, protoNum_injective (neBytes16_injective hproto),
      beBytes_port_injective hport]
  · intro h
    simp only [IpvsService.key, Prod.mk.injEq] at h
    unfold serviceIdentityAttr
    rw [h.1, h.2.1, h.2.2]

theorem destAttr_injOn :
    Set.InjOn destAttr {dst | -2 ^ 31 ≤ dst.weight ∧ dst.weight < 2 ^ 31} := by
  intro d hd d' hd' h
  have hfields := nested_inj (lengthsFit_destFields d) (lengthsFit_destFields d') h
  simp only [destFields, List.cons.injEq, Prod.mk.injEq, true_and, and_true] at hfields
  obtain ⟨haddr, hport, hfwd, hweight, -⟩ := hfields
  have haddr := addrBytes_injective haddr
  have hport := beBytes_port_injective hport
  have hweight := weight_inj hd hd' (neBytes32_injective hweight)
  have hfwd := neBytes32_injective hfwd
  have htunnel : d.tunnel = d'.tunnel := by
    revert hfwd
    generalize d.tunnel = b
    generalize d'.tunnel = b'
    revert b b'
    decide
  cases d
  cases d'
  simp_all

/-- Every destination is sent with its thresholds and its family. -/
theorem destAttrTypes_eq (dst : IpvsDestination) {turns : Nat} (h : (destAttr dst).length < turns) :
    destAttrTypes turns dst = .done [destAttrAddress, destAttrPort, destAttrFwdMethod,
      destAttrWeight, destAttrUThresh, destAttrLThresh, destAttrAddrFamily] := by
  have hinner : (destAttr dst).drop 4 = encode (destFields dst) :=
    drop_nla cmdAttrDest (encode_length_mod (destFields dst))
  have hturns : (encode (destFields dst)).length < turns := by
    rw [← hinner, List.length_drop]
    omega
  have has : Attributes (encode (destFields dst)) (destFields dst) := by
    refine attributes_encode fun a ha => ?_
    have := (lengthsFit_destFields dst).1 a ha
    omega
  unfold destAttrTypes
  rw [hinner, scan_eq_fold (g := fun types t payload => .next (types ++ [Prod.fst (t, payload)]))
    (fun _ _ _ _ _ _ => rfl) hturns has, foldAttrs_note, List.nil_append]
  rfl

/-- Attributes are read back from their bytes by the loop of `resolve_family`; on any reply the
loop ends without a panic and gives the first family in front of a malformed header; the requests
tell their arguments apart, and no length in them is cut. The weight of a destination is an
`i32`. -/
theorem genetlink_decodable :
    (∀ as turns, (∀ a ∈ as, a.2.length ≤ 65531) → (encode as).length < turns →
      visited turns (encode as) = .done as) ∧
    (∀ resp turns, resp.length < turns →
      ∃ as, Attributes (resp.drop 20) as ∧ resolveFamily turns resp = .done (familyOf as)) ∧
    Function.Injective serviceAttr ∧
    (∀ s s', serviceIdentityAttr s = serviceIdentityAttr s' ↔ s.key = s'.key) ∧
    Set.InjOn destAttr {dst | -2 ^ 31 ≤ dst.weight ∧ dst.weight < 2 ^ 31} ∧
    (∀ svc, serviceAttr svc = nla cmdAttrService (encode (serviceFields svc)) ∧
      LengthsFit (serviceFields svc)) ∧
    (∀ svc, serviceIdentityAttr svc = nla cmdAttrService (encode (serviceIdentityFields svc)) ∧
      LengthsFit (serviceIdentityFields svc)) ∧
    ∀ dst, destAttr dst = nla cmdAttrDest (encode (destFields dst)) ∧
      LengthsFit (destFields dst) := by
  refine ⟨fun as turns has hturns => visited_eq hturns (attributes_encode has),
    fun resp turns hturns => ?_, serviceAttr_injective, fun _ _ => serviceIdentityAttr_eq_iff,
    destAttr_injOn, fun svc => ⟨serviceAttr_eq svc, lengthsFit_serviceFields svc⟩,
    fun svc => ⟨serviceIdentityAttr_eq svc, lengthsFit_serviceIdentityFields svc⟩,
    fun dst => ⟨destAttr_eq dst, lengthsFit_destFields dst⟩⟩
  obtain ⟨as, has⟩ := exists_attributes (resp.drop 20)
  exact ⟨as, has, resolveFamily_eq hturns has⟩

/-- Every FWMARK service is created for IPv4. -/
theorem serviceFamily_fwmark (fwmark : UInt32) (scheduler : Scheduler)
    (persistent : Option UInt32) :
    serviceFamily (fwmarkServiceAttr fwmark scheduler persistent) = some (neBytes16 afInet) := by
  unfold fwmarkServiceAttr
  dsimp only
  rw [List.flatten_cons]
  generalize hrest : [nlaU32 svcAttrFwmark fwmark,
      nla svcAttrSchedName (zeroTerminated scheduler.ipvsName),
      nla svcAttrFlags (neBytes32 (if persistent.isSome then svcFPersistent else 0) ++
        neBytes32 0xFFFFFFFF),
      nlaU32 svcAttrTimeout (persistent.getD 0),
      nlaU32 svcAttrNetmask 0xFFFFFFFF].flatten = rest
  have hlen : (nlaU16 svcAttrAf afInet ++ rest).length < 65532 := by
    have h1 := nla_length_le svcAttrFwmark (neBytes32 fwmark)
    have h2 := nla_length_le svcAttrSchedName (zeroTerminated scheduler.ipvsName)
    have h3 := nla_length_le svcAttrFlags
      (neBytes32 (if persistent.isSome then svcFPersistent else 0) ++ neBytes32 0xFFFFFFFF)
    have h4 := nla_length_le svcAttrTimeout (neBytes32 (persistent.getD 0))
    have h5 := nla_length_le svcAttrNetmask (neBytes32 0xFFFFFFFF)
    have h6 := nla_length_le svcAttrAf (neBytes16 afInet)
    rw [zeroTerminated_length] at h2
    rw [← hrest]
    simp only [nlaU16, nlaU32, List.length_append, List.length_flatten, List.map_cons, List.map_nil,
      List.sum_cons, List.sum_nil, neBytes32, neBytes16, List.length_cons, List.length_nil] at *
    omega
  have houter := findAttr_nla cmdAttrService _ [] hlen
  rw [List.append_nil] at houter
  simp only [serviceFamily, houter, Option.bind_eq_bind, Option.bind_some]
  exact findAttr_nla svcAttrAf (neBytes16 afInet) rest (by decide)

end KubeRouter.Proxy
