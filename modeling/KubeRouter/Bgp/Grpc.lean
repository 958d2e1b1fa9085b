/-
  Paths on the wire to the BGP daemon (`build_path` and `parse_path_event` in
  `bgp/src/grpc.rs`, over `PathBuilder` in `bgp/src/path.rs`).

  An IPv4 path carries its next hop in NEXT_HOP, an IPv6 path in MP_REACH_NLRI; the decoder
  takes the last of either. Addresses and prefixes travel as text, so what is read back depends
  on the two text parsers, which are parameters.

  A message that consists of a one-of is the optional value of it; of the NLRI and attribute
  kinds, those that neither function names are left out.

  Proved:
  * `parse_build`: a built path is read back as the event it was built for.
  * `path_roundtrip`: the same with family, communities and AS path of the message.
-/
import KubeRouter.Bgp.Engine
import KubeRouter.Routing.Inject

namespace KubeRouter.Bgp

open Routing (Parsers PathEvent)

/-! ## Messages -/

namespace Api

structure Family where
  afi : Int
  safi : Int
deriving DecidableEq, Repr

structure IpAddressPrefix where
  pfxLen : UInt32
  pfx : String
deriving DecidableEq, Repr

inductive Nlri where
  | Prefix (pfx : IpAddressPrefix)
  | Other
deriving DecidableEq, Repr

structure AsSegment where
  kind : Int
  numbers : List UInt32
deriving DecidableEq, Repr

inductive Attr where
  | Origin (origin : UInt32)
  | NextHop (nextHop : String)
  | MpReach (family : Option Family) (nextHops : List String) (nlris : List Nlri)
  | Communities (communities : List UInt32)
  | AsPath (segments : List AsSegment)
  | Other
deriving DecidableEq, Repr

structure Path where
  nlri : Option Nlri
  pattrs : List (Option Attr)
  isWithdraw : Bool
  family : Option Family
deriving DecidableEq, Repr

end Api

/-! ## Encoder -/

def afiIp : Int := 1

def afiIp6 : Int := 2

def safiUnicast : Int := 1

/-- `as_segment::Type::AsSequence`. -/
def asSequence : Int := 2

def family (afi : Int) : Api.Family := ⟨afi, safiUnicast⟩

def prefixNlri (p : Path) : Api.Nlri :=
  .Prefix ⟨UInt32.ofNat p.pfx.prefixLen, p.pfx.addr.toText⟩

def originAttr : Api.Attr := .Origin 0

/-- What an attribute of the path adds to those of its family. -/
def extraAttr : Attr → Option Api.Attr
  | .Communities comms => if comms.isEmpty then none else some (.Communities comms)
  | .AsPathPrepend asn count =>
    if count > 0 then some (.AsPath [⟨asSequence, List.replicate count.toNat asn⟩]) else none
  | .Origin _ | .NextHop _ | .MpReachNlri _ _ => none

def buildPath (p : Path) : Api.Path :=
  let (afi, base) := match p.afi with
    | .Ip => (afiIp, [originAttr, .NextHop p.nextHop.toText])
    | .Ip6 => (afiIp6, [originAttr,
        .MpReach (some (family afiIp6)) [p.nextHop.toText] [prefixNlri p]])
  { nlri := some (prefixNlri p)
    pattrs := (base ++ p.attrs.filterMap extraAttr).map some
    isWithdraw := p.withdrawal
    family := some (family afi) }

/-! ## Decoder -/

/-- The part of an attribute the decoder looks at. -/
def Api.Attr.watched : Option Api.Attr → Routing.PathAttr
  | some (.NextHop text) => .NextHop text
  | some (.MpReach _ texts _) => .MpReach texts
  | _ => .Other

/-- The part of a path the decoder looks at. -/
def Api.Path.watched (p : Api.Path) : Routing.ApiPath where
  nlri := match p.nlri with
    | some (.Prefix ip) => some (ip.pfx, ip.pfxLen.toNat)
    | _ => none
  pattrs := p.pattrs.map Api.Attr.watched
  isWithdraw := p.isWithdraw

def parsePathEvent (parse : Parsers) (p : Api.Path) : Option PathEvent :=
  Routing.parsePathEvent parse p.watched

/-! ## Round trip -/

/-- Attributes behind the next hop that the decoder passes over. -/
theorem nextHopOf_append_other (parse : Parsers) (pattrs rest : List Routing.PathAttr)
    (h : ∀ a ∈ rest, a = .Other) :
    Routing.nextHopOf parse (pattrs ++ rest) = Routing.nextHopOf parse pattrs := by
  unfold Routing.nextHopOf
  rw [List.foldl_append]
  generalize pattrs.foldl _ none = hop
  induction rest with
  | nil => rfl
  | cons a rest ih =>
    rw [List.foldl_cons, h a List.mem_cons_self]
    exact ih fun b hb => h b (List.mem_cons_of_mem a hb)

theorem watched_extraAttr (attrs : List Attr) :
    ∀ a ∈ (attrs.filterMap extraAttr).map (Api.Attr.watched ∘ some), a = .Other := by
  intro a ha
  obtain ⟨x, hx, rfl⟩ := List.mem_map.mp ha
  obtain ⟨attr, -, hattr⟩ := List.mem_filterMap.mp hx
  cases attr with
  | Origin code => cases hattr
  | NextHop ip => cases hattr
  | MpReachNlri nextHop nlri => cases hattr
  | Communities comms =>
    simp only [extraAttr] at hattr
    split at hattr
    · cases hattr
    · cases hattr
      rfl
  | AsPathPrepend asn count =>
    simp only [extraAttr] at hattr
    split at hattr
    · cases hattr
      rfl
    · cases hattr

/-- Prefix lengths fit the message's field. -/
theorem prefixLen_toNat (n : IpNet) : (UInt32.ofNat n.prefixLen).toNat = n.prefixLen := by
  have hle := n.prefixLen_le
  have hbits : n.addr.bits ≤ 128 := by
    cases n.addr with
    | V4 a => exact Nat.le_of_ble_eq_true rfl
    | V6 a => exact Nat.le_refl 128
  rw [UInt32.toNat_ofNat']
  omega

section Roundtrip

variable {parse : Parsers} {p : Path}

theorem parse_build (hip : parse.ip p.nextHop.toText = some p.nextHop)
    (hnet : parse.net (p.pfx.addr.toText ++ "/" ++ Nat.repr p.pfx.prefixLen) = some p.pfx) :
    parsePathEvent parse (buildPath p) = some ⟨p.pfx, p.nextHop, p.withdrawal⟩ := by
  have hhop : Routing.nextHopOf parse (buildPath p).watched.pattrs = some p.nextHop := by
    simp only [buildPath, Api.Path.watched, List.map_map, List.map_append]
    rw [nextHopOf_append_other parse _ _ (watched_extraAttr p.attrs)]
    cases p.afi with
    | Ip => exact hip
    | Ip6 => exact hip
  have hnlri : (buildPath p).watched.nlri = some (p.pfx.addr.toText, p.pfx.prefixLen) := by
    simp only [buildPath, Api.Path.watched, prefixNlri, prefixLen_toNat]
  have hflag : (buildPath p).watched.isWithdraw = p.withdrawal := rfl
  unfold parsePathEvent Routing.parsePathEvent
  rw [hnlri, hhop, hflag]
  simp only [Option.bind_eq_bind, Option.bind_some, hnet]
  rfl

end Roundtrip

/-! ## Built paths -/

/-- The family a message has for a prefix of `fam`. -/
def wireFamily : IpFamily → Api.Family
  | .V4 => family afiIp
  | .V6 => family afiIp6

namespace Api

def Attr.communities : Option Attr → Option (List UInt32)
  | some (.Communities comms) => some comms
  | _ => none

def Attr.asPath : Option Attr → Option (List AsSegment)
  | some (.AsPath segments) => some segments
  | _ => none

/-- The COMMUNITIES attributes of a message. -/
def Path.communities (p : Path) : List (List UInt32) := p.pattrs.filterMap Attr.communities

/-- The AS_PATH attributes of a message. -/
def Path.asPaths (p : Path) : List (List AsSegment) := p.pattrs.filterMap Attr.asPath

end Api

section Built

variable (b : PathBuilder)

theorem build_family : (buildPath b.build).family = some (wireFamily b.pfx.family) := by
  unfold buildPath PathBuilder.build
  cases b.pfx.family with
  | V4 => rfl
  | V6 => rfl

/-- The attributes of a built path that depend on the family: no communities, no AS path. -/
def familyAttrs : List Api.Attr :=
  match b.pfx.family with
  | .V4 => [originAttr, .NextHop b.nextHop.toText]
  | .V6 => [originAttr, .MpReach (some (family afiIp6)) [b.nextHop.toText] [prefixNlri b.build]]

/-- The attributes of a built path that the builder adds on request. -/
def extraAttrs : List Api.Attr :=
  (if b.communities.isEmpty then [] else [.Communities b.communities]) ++
    (b.asPrepend.bind fun prepend => extraAttr (.AsPathPrepend prepend.1 prepend.2)).toList

theorem build_pattrs : (buildPath b.build).pattrs = (familyAttrs b ++ extraAttrs b).map some := by
  have hone : ∀ a : Attr, [a].filterMap extraAttr = (extraAttr a).toList := by
    intro a
    rw [List.filterMap_cons]
    cases extraAttr a <;> rfl
  have hcomms : (if b.communities.isEmpty then [] else [Attr.Communities b.communities]).filterMap
      extraAttr = if b.communities.isEmpty then [] else [.Communities b.communities] := by
    cases hc : b.communities.isEmpty with
    | true => rfl
    | false => simp [hone, extraAttr, hc]
  have hextra : b.build.attrs.filterMap extraAttr = extraAttrs b := by
    unfold PathBuilder.build extraAttrs
    cases b.pfx.family with
    | V4 => cases b.asPrepend <;> simp only [List.filterMap_append, hcomms, hone] <;> rfl
    | V6 => cases b.asPrepend <;> simp only [List.filterMap_append, hcomms, hone] <;> rfl
  unfold buildPath familyAttrs
  rw [hextra]
  unfold PathBuilder.build
  cases b.pfx.family with
  | V4 => rfl
  | V6 => rfl

theorem build_communities : (buildPath b.build).communities =
    if b.communities.isEmpty then [] else [b.communities] := by
  have hfamily : (familyAttrs b).filterMap (Api.Attr.communities ∘ some) = [] := by
    unfold familyAttrs
    cases b.pfx.family <;> rfl
  have hprepend : ∀ asn count, (extraAttr (.AsPathPrepend asn count)).toList.filterMap
      (Api.Attr.communities ∘ some) = [] := by
    intro asn count
    simp only [extraAttr]
    split <;> rfl
  unfold Api.Path.communities
  rw [build_pattrs, List.filterMap_map, List.filterMap_append, hfamily, List.nil_append, extraAttrs,
    List.filterMap_append]
  have htail : ((b.asPrepend.bind fun prepend =>
      extraAttr (.AsPathPrepend prepend.1 prepend.2)).toList).filterMap
      (Api.Attr.communities ∘ some) = [] := by
    cases b.asPrepend with
    | none => rfl
    | some prepend => exact hprepend prepend.1 prepend.2
  rw [htail, List.append_nil]
  split <;> rfl

theorem build_asPaths : (buildPath b.build).asPaths =
    ((b.asPrepend.bind fun prepend =>
      extraAttr (.AsPathPrepend prepend.1 prepend.2)).toList).filterMap
      (Api.Attr.asPath ∘ some) := by
  have hfamily : (familyAttrs b).filterMap (Api.Attr.asPath ∘ some) = [] := by
    unfold familyAttrs
    cases b.pfx.family <;> rfl
  have hcomms : (if b.communities.isEmpty then [] else
      [Api.Attr.Communities b.communities]).filterMap (Api.Attr.asPath ∘ some) = [] := by
    split <;> rfl
  unfold Api.Path.asPaths
  rw [build_pattrs, List.filterMap_map, List.filterMap_append, hfamily, List.nil_append, extraAttrs,
    List.filterMap_append, hcomms, List.nil_append]

end Built

/-- A path built with any communities and any prepend is read back as it was given; its family is
the prefix's, it has the communities exactly when there are any, and an AS path of `count` times
`asn` exactly when `count` is not zero. -/
theorem path_roundtrip (parse : Parsers) (pfx : IpNet) (nextHop : IpAddr) (withdrawal : Bool)
    (communities : List UInt32) (asn : UInt32) (count : UInt8)
    (hip : parse.ip nextHop.toText = some nextHop)
    (hnet : parse.net (pfx.addr.toText ++ "/" ++ Nat.repr pfx.prefixLen) = some pfx) :
    let builder : PathBuilder :=
      { pfx := pfx, nextHop := nextHop, withdrawal := withdrawal, communities := communities }
    let path := buildPath (builder.asPathPrepend asn count).build
    parsePathEvent parse path = some ⟨pfx, nextHop, withdrawal⟩ ∧
      path.family = some (wireFamily pfx.family) ∧
      path.communities = (if communities.isEmpty then [] else [communities]) ∧
      path.asPaths =
        (if count > 0 then [[⟨asSequence, List.replicate count.toNat asn⟩]] else []) := by
  intro builder path
  have hfields : (builder.asPathPrepend asn count).pfx = pfx ∧
      (builder.asPathPrepend asn count).nextHop = nextHop ∧
      (builder.asPathPrepend asn count).withdrawal = withdrawal ∧
      (builder.asPathPrepend asn count).communities = communities := by
    unfold PathBuilder.asPathPrepend
    split
    · exact ⟨rfl, rfl, rfl, rfl⟩
    · exact ⟨rfl, rfl, rfl, rfl⟩
  obtain ⟨hpfx, hhop, hflag, hcomms⟩ := hfields
  refine ⟨?_, ?_, ?_, ?_⟩
  · have hbuild := @parse_build parse (builder.asPathPrepend asn count).build
    simp only [PathBuilder.build_pfx, PathBuilder.build_nextHop, PathBuilder.build_withdrawal, hpfx,
      hhop, hflag] at hbuild
    exact hbuild hip hnet
  · rw [← hpfx]
    exact build_family _
  · rw [← hcomms]
    exact build_communities _
  · show (buildPath _).asPaths = _
    rw [build_asPaths]
    unfold PathBuilder.asPathPrepend
    split
    · next hcount => simp [extraAttr, hcount, Api.Attr.asPath]
    · rfl

section Sample

/-- A prefix with host bits. -/
def podNet : IpNet := ⟨.ofOctets 10 244 1 7, 24, by decide⟩

def podNode : IpAddr := .V6 0xfd000000000000000000000000000004

/-- The parsers, on the texts of the sample. -/
def podParsers : Parsers where
  net text := if text = "10.244.1.7/24" then some podNet else none
  ip text := if text = "fd00::4" then some podNode else none

end Sample

/-- An IPv4 prefix keeps an IPv6 next hop and its host bits. -/
theorem podNet_roundtrip :
    let builder : PathBuilder :=
      { pfx := podNet, nextHop := podNode, withdrawal := true, communities := [65538] }
    parsePathEvent podParsers (buildPath (builder.asPathPrepend 64512 3).build) =
      some ⟨podNet, podNode, true⟩ :=
  (path_roundtrip podParsers podNet podNode true [65538] 64512 3 (by decide +kernel)
    (by decide +kernel)).1

end KubeRouter.Bgp
