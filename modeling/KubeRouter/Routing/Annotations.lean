/-
  The BGP annotations of a node (`routing/src/annotations.rs`).

  Malformed values are skipped. The YAML text of the peers comes in front of the positional lists,
  which are cut at commas and blanks. `parseNet` is `from_str` of `IpNet`; `readPeers` reads the
  entries of a YAML text, of which `ExternalPeer.ofEntry` is the stricter type of this file: the
  keys are the same, and an address or a port that is none makes the whole text unreadable.

  Proved:
  * `positional_aligned_iff`: when every peer of the positional lists carries its own values.
  * `carriesFields_of_packed`: it does where blank fields stand at the end of the lists only.
  * `blank_password_shifts`: a blank field moves the fields behind it to the peers in front.
-/
import KubeRouter.Common.Text
import KubeRouter.Routing.BgpPolicy
import KubeRouter.Routing.ExternalPeers

namespace KubeRouter.Routing

open Text

namespace Keys

def asn : String := "kube-router.io/node.asn"
def communities : String := "kube-router.io/node.bgp.communities"
def customImportReject : String := "kube-router.io/node.bgp.customimportreject"
def pathPrependAs : String := "kube-router.io/path-prepend.as"
def pathPrependRepeat : String := "kube-router.io/path-prepend.repeat-n"
def rrServer : String := "kube-router.io/rr.server"
def rrClient : String := "kube-router.io/rr.client"
def peers : String := "kube-router.io/peers"
def bgpLocalAddresses : String := "kube-router.io/bgp-local-addresses"
def peerIps : String := "kube-router.io/peer.ips"
def peerAsns : String := "kube-router.io/peer.asns"
def peerLocalips : String := "kube-router.io/peer.localips"
def peerPasswords : String := "kube-router.io/peer.passwords"
def peerPorts : String := "kube-router.io/peer.ports"

end Keys

/-- The annotations of an object. -/
abbrev Annotations := List (String × String)

/-- The text of an annotation. -/
def annotationText (anns : Annotations) (key : String) : Option (List Char) :=
  (anns.lookup key).map (·.toList)

def maxPathPrependRepeat : UInt8 := 8

structure ExternalPeer where
  remoteIp : IpAddr
  remoteAsn : UInt32
  localIp : Option IpAddr := none
  password : Option String := none
  port : Option UInt16 := none
deriving DecidableEq, Repr

structure NodeBgpConfig where
  asn : Option UInt32 := none
  communities : List (List Char) := []
  customImportReject : List IpNet := []
  pathPrepend : Option (UInt32 × UInt8) := none
  rrServer : Option (List Char) := none
  rrClient : Option (List Char) := none
  bgpLocalAddresses : List IpAddr := []
  externalPeers : List ExternalPeer := []
deriving DecidableEq, Repr

def wellKnownCommunities : List (List Char) :=
  ["no-export".toList, "no-advertise".toList, "no-peer".toList, "internet".toList,
    "blackhole".toList, "graceful-shutdown".toList]

/-- A number, a pair of them, or a well-known name. -/
def validateCommunity (token : List Char) : Bool :=
  let t := trim token
  if wellKnownCommunities.contains t then true
  else if (parseU32 t).isSome then true
  else
    match Split.once (· == ':') t with
    | some (a, b) => (parseU16 a).isSome && (parseU16 b).isSome
    | none => false

theorem validateCommunity_of_parseCommunity {token : List Char} {v : UInt32}
    (h : parseCommunity token = .ok v) : validateCommunity token = true := by
  unfold validateCommunity
  dsimp only
  split
  · rfl
  · split
    · rfl
    · next hnum =>
      obtain ⟨hi, lo, hcut, hhi, hlo⟩ | ⟨-, hsome⟩ := parseCommunity_ok h
      · rw [hcut]
        simp [hhi, hlo]
      · exact absurd hsome hnum

/-- The pieces of a list between commas and blanks, without the empty ones. -/
def splitList (s : List Char) : List (List Char) :=
  ((s.splitOnP fun c => c == ',' || c == ' ').map trim).filter (!·.isEmpty)

def parseIp (s : List Char) : Option IpAddr := IpAddr.parse (trim s)

def parseCidr (parseNet : List Char → Option IpNet) (s : List Char) : Option IpNet :=
  parseNet (trim s)

/-! ## Peers -/

/-- The positional values of one peer. -/
structure PositionalRow where
  ip : List Char
  asn : List Char
  localIp : Option (List Char)
  password : Option (List Char)
  port : Option (List Char)
deriving DecidableEq, Repr

/-- A row whose address or ASN is malformed is skipped. -/
def PositionalRow.peer (row : PositionalRow) : Option ExternalPeer := do
  let remoteIp ← parseIp row.ip
  let remoteAsn ← parseU32 row.asn
  return {
    remoteIp
    remoteAsn
    localIp := row.localIp.bind parseIp
    password := row.password.map String.ofList
    port := row.port.bind parseU16 }

/-- The pieces of an annotation, none when it is absent. -/
def pieces (anns : Annotations) (key : String) : List (List Char) :=
  ((annotationText anns key).map splitList).getD []

/-- The lists of the annotations, zipped by index. -/
def positionalRows (anns : Annotations) : List PositionalRow :=
  match annotationText anns Keys.peerIps, annotationText anns Keys.peerAsns with
  | some ips, some asns =>
    let ips := splitList ips
    let asns := splitList asns
    if ips.isEmpty || ips.length != asns.length then []
    else
      (ips.zip asns).zipIdx.map fun ((ip, asn), i) => {
        ip
        asn
        localIp := (pieces anns Keys.peerLocalips)[i]?
        password := (pieces anns Keys.peerPasswords)[i]?
        port := (pieces anns Keys.peerPorts)[i]? }
  | _, _ => []

def parseDeprecatedPeers (anns : Annotations) : List ExternalPeer :=
  (positionalRows anns).filterMap PositionalRow.peer

/-- An entry of the YAML text, read at the stricter type: an address that is given is one, and so
is a port. -/
def ExternalPeer.ofEntry (e : PeerEntry) : Option ExternalPeer := do
  let remoteIp ← IpAddr.parse e.remoteip.toList
  let localIp ← match e.localip with
    | some s => (IpAddr.parse s.toList).map some
    | none => some none
  let port ← match e.port with
    | some p => (tryPort p).map some
    | none => some none
  return { remoteIp, remoteAsn := e.remoteasn, localIp, password := e.password, port }

/-- `serde_yaml_ng::from_str` at the peers of this file. -/
def readExternalPeers (readPeers : String → Except String (List PeerEntry)) (yaml : String) :
    Option (List ExternalPeer) :=
  match readPeers yaml with
  | .error _ => none
  | .ok entries => entries.mapM ExternalPeer.ofEntry

def parseExternalPeers (readPeers : String → Except String (List PeerEntry)) (anns : Annotations) :
    List ExternalPeer :=
  match (anns.lookup Keys.peers).bind (readExternalPeers readPeers) with
  | some peers => peers
  | none => parseDeprecatedPeers anns

/-! ## All annotations -/

/-- The prepend: both values are there, and the count is at most the limit. -/
def bothPrepend (asn times : Option (List Char)) : Option (UInt32 × UInt8) := do
  let asn ← parseU32 (trim (← asn))
  let times ← parseU8 (trim (← times))
  if times ≤ maxPathPrependRepeat then some (asn, times) else none

def parseNodeBgp (parseNet : List Char → Option IpNet)
    (readPeers : String → Except String (List PeerEntry)) (anns : Annotations) : NodeBgpConfig where
  asn := (annotationText anns Keys.asn).bind fun v => parseU32 (trim v)
  communities := (pieces anns Keys.communities).filter validateCommunity
  customImportReject := (pieces anns Keys.customImportReject).filterMap (parseCidr parseNet)
  pathPrepend :=
    bothPrepend (annotationText anns Keys.pathPrependAs)
      (annotationText anns Keys.pathPrependRepeat)
  rrServer := (annotationText anns Keys.rrServer).map trim
  rrClient := (annotationText anns Keys.rrClient).map trim
  bgpLocalAddresses := (pieces anns Keys.bgpLocalAddresses).filterMap parseIp
  externalPeers := parseExternalPeers readPeers anns

theorem bothPrepend_eq_some_iff {asn times : Option (List Char)} {m : UInt32} {n : UInt8} :
    bothPrepend asn times = some (m, n) ↔ asn.bind (fun a => parseU32 (trim a)) = some m ∧
      times.bind (fun t => parseU8 (trim t)) = some n ∧ n ≤ maxPathPrependRepeat := by
  unfold bothPrepend
  cases asn with
  | none => simp
  | some a =>
    cases ha : parseU32 (trim a) with
    | none => simp [ha]
    | some m' =>
      cases times with
      | none => simp [ha]
      | some t =>
        cases ht : parseU8 (trim t) with
        | none => simp [ha, ht]
        | some n' =>
          simp only [Option.bind_eq_bind, Option.bind_some, ha, ht]
          by_cases hle : n' ≤ maxPathPrependRepeat
          · rw [if_pos hle]
            constructor
            · intro heq
              cases heq
              exact ⟨rfl, rfl, hle⟩
            · rintro ⟨hm, hn, -⟩
              cases hm
              cases hn
              rfl
          · rw [if_neg hle]
            constructor
            · intro heq
              cases heq
            · rintro ⟨-, hn, hle'⟩
              cases hn
              exact absurd hle' hle

/-! ## Pieces and fields -/

/-- The pieces of one field: it is cut at blanks. -/
def fieldPieces (field : List Char) : List (List Char) :=
  ((field.splitOn ' ').map trim).filter (!·.isEmpty)

/-- The pieces of a list, each with the number of the comma field it is a part of. -/
def numberedPieces (s : List Char) : List (List Char × Nat) :=
  (s.splitOn ',').zipIdx.flatMap fun (field, i) => (fieldPieces field).map fun piece => (piece, i)

theorem splitList_eq_flatMap (s : List Char) : splitList s = (s.splitOn ',').flatMap fieldPieces :=
  Split.trimmedParts_or _ s

/-- A field without a blank in it is one piece. -/
theorem fieldPieces_of_no_blank {field : List Char} (h : ' ' ∉ trim field) :
    fieldPieces field = if trim field = [] then [] else [trim field] := by
  refine Split.trimmedParts_of_trim fun a ha => beq_eq_false_iff_ne.mpr ?_
  rintro rfl
  exact h ha

theorem trim_of_mem_fieldPieces {field piece : List Char} (h : piece ∈ fieldPieces field) :
    trim piece = piece := by
  obtain ⟨part, -, rfl⟩ := List.mem_map.mp (List.mem_filter.mp h).1
  exact Split.trim_trim part

/-- Without blanks in its fields, a list has its comma entries for pieces. -/
theorem splitList_eq_commaEntries {s : List Char} (h : ∀ field ∈ s.splitOn ',', ' ' ∉ trim field) :
    splitList s = commaEntries s := by
  rw [splitList_eq_flatMap]
  unfold commaEntries
  generalize s.splitOn ',' = fields at h ⊢
  induction fields with
  | nil => rfl
  | cons field fields ih =>
    obtain ⟨hfield, hfields⟩ := List.forall_mem_cons.mp h
    rw [List.flatMap_cons, fieldPieces_of_no_blank hfield, ih hfields, List.map_cons]
    by_cases hnil : trim field = []
    · simp [hnil]
    · simp [hnil]

/-- The numbered pieces are the ones of `split_list`. -/
theorem map_fst_numberedPieces (s : List Char) : (numberedPieces s).map (·.1) = splitList s := by
  rw [splitList_eq_flatMap]
  unfold numberedPieces
  rw [List.map_flatMap]
  have hforget : (s.splitOn ',').zipIdx.map (·.1) = s.splitOn ',' := List.zipIdx_map_fst 0 _
  conv_rhs => rw [← hforget, List.flatMap_map]
  refine List.flatMap_congr fun entry _ => ?_
  rw [List.map_map]
  exact List.map_id _

/-- The number of pieces in front of the `i`-th comma field. -/
def piecesBefore (s : List Char) (i : Nat) : Nat :=
  (((s.splitOn ',').take i).map fun field => (fieldPieces field).length).sum

/-- The number of pieces in all comma fields. -/
def pieceCount (s : List Char) : Nat :=
  ((s.splitOn ',').map fun field => (fieldPieces field).length).sum

/-- A piece of the `j`-th comma field has `k` pieces in front of it. -/
def StandsAt (s : List Char) (k j : Nat) (piece : List Char) : Prop :=
  ∃ field r, (s.splitOn ',')[j]? = some field ∧ (fieldPieces field)[r]? = some piece ∧
    k = piecesBefore s j + r

theorem length_splitList (s : List Char) : (splitList s).length = pieceCount s := by
  rw [splitList_eq_flatMap, List.length_flatMap]
  rfl

theorem getElem?_splitList_eq_some_iff {s : List Char} {k : Nat} {piece : List Char} :
    (splitList s)[k]? = some piece ↔ ∃ j, StandsAt s k j piece := by
  rw [splitList_eq_flatMap, Split.getElem?_flatMap_eq_some_iff]
  simp only [List.length_flatMap]
  rfl

theorem getElem?_numberedPieces_eq_some_iff {s : List Char} {k j : Nat} {piece : List Char} :
    (numberedPieces s)[k]? = some (piece, j) ↔ StandsAt s k j piece := by
  have hlength : ∀ j, (((s.splitOn ',').zipIdx.take j).flatMap fun entry =>
      (fieldPieces entry.1).map fun piece => (piece, entry.2)).length = piecesBefore s j := by
    intro j
    unfold piecesBefore
    simp only [List.length_flatMap, List.length_map]
    conv_rhs => rw [← List.zipIdx_map_fst 0 (s.splitOn ','), ← List.map_take, List.map_map]
    rfl
  rw [numberedPieces, Split.getElem?_flatMap_eq_some_iff]
  simp only [hlength, List.getElem?_zipIdx, Nat.zero_add, Option.map_eq_some_iff, List.getElem?_map]
  constructor
  · rintro ⟨j', entry, r, ⟨field, hfield, rfl⟩, ⟨piece', hpiece, heq⟩, hk⟩
    obtain ⟨rfl, rfl⟩ := Prod.mk.inj heq
    exact ⟨field, r, hfield, hpiece, hk⟩
  · rintro ⟨field, r, hfield, hpiece, hk⟩
    exact ⟨j, (field, j), r, ⟨field, hfield, rfl⟩, ⟨piece, hpiece, rfl⟩, hk⟩

/-- Blank fields stand at the end of a list only, and no field has a blank in it. -/
structure Packed (s : List Char) : Prop where
  no_blank : ∀ field ∈ s.splitOn ',', ' ' ∉ trim field
  blanks_last : (s.splitOn ',').Pairwise fun field later => trim field = [] → trim later = []

/-- The pieces of a packed list are its fields, in their places. -/
theorem Packed.getElem?_splitList {s : List Char} (h : Packed s) (i : Nat) :
    (splitList s)[i]? = ((s.splitOn ',')[i]?.map trim).filter (!·.isEmpty) := by
  rw [splitList_eq_commaEntries h.no_blank]
  unfold commaEntries
  have hlast := h.blanks_last
  generalize s.splitOn ',' = fields at hlast ⊢
  induction fields generalizing i with
  | nil => rfl
  | cons field fields ih =>
    obtain ⟨hfield, hfields⟩ := List.pairwise_cons.mp hlast
    by_cases hnil : trim field = []
    · -- All fields behind a blank one are blank, so that there is no piece on either side.
      have hall : ∀ entry ∈ (field :: fields).map trim, entry = [] := by
        intro entry hentry
        obtain ⟨later, hlater, rfl⟩ := List.mem_map.mp hentry
        obtain rfl | hlater := List.mem_cons.mp hlater
        · exact hnil
        · exact hfield later hlater hnil
      rw [List.filter_eq_nil_iff.mpr fun entry hentry => by simp [hall entry hentry],
        ← List.getElem?_map]
      cases hget : ((field :: fields).map trim)[i]? with
      | none => rfl
      | some entry =>
        rw [hall entry (List.mem_of_getElem? hget)]
        rfl
    · rw [List.map_cons, List.filter_cons_of_pos (by simp [hnil])]
      cases i with
      | zero => simp [Option.filter, hnil]
      | succ i => exact ih i hfields

/-- In a packed list without blank fields, every piece has the number of its field. -/
theorem Packed.numberedPieces_eq {s : List Char} (h : Packed s)
    (hfilled : ∀ field ∈ s.splitOn ',', trim field ≠ []) :
    numberedPieces s = (s.splitOn ',').zipIdx.map fun (field, i) => (trim field, i) := by
  unfold numberedPieces
  rw [← List.flatMap_pure_eq_map]
  refine List.flatMap_congr fun ⟨field, i⟩ hmem => ?_
  have hfield : field ∈ s.splitOn ',' := List.fst_mem_of_mem_zipIdx hmem
  dsimp only
  rw [fieldPieces_of_no_blank (h.no_blank field hfield), if_neg (hfilled field hfield)]
  rfl

/-- The comma field of an annotation with a number. -/
def commaField (anns : Annotations) (key : String) (i : Nat) : Option (List Char) :=
  (annotationText anns key).bind fun s => (s.splitOn ',')[i]?

/-! ## Alignment -/

/-- The comma-separated lists of an annotation map: all have as many fields as the addresses, and
neither an address nor an ASN is blank. -/
structure CommaLists (anns : Annotations) (ips asns : List Char) : Prop where
  ips_eq : annotationText anns Keys.peerIps = some ips
  asns_eq : annotationText anns Keys.peerAsns = some asns
  asns_length : (asns.splitOn ',').length = (ips.splitOn ',').length
  optional_length : ∀ key ∈ [Keys.peerLocalips, Keys.peerPasswords, Keys.peerPorts],
    ∀ s, annotationText anns key = some s → (s.splitOn ',').length = (ips.splitOn ',').length
  ips_filled : ∀ field ∈ ips.splitOn ',', trim field ≠ []
  asns_filled : ∀ field ∈ asns.splitOn ',', trim field ≠ []

/-- The peer comes from a piece of the `i`-th field of the addresses. -/
def StemsFrom (anns : Annotations) (ips : List Char) (i : Nat) (peer : ExternalPeer) : Prop :=
  ∃ (k : Nat) (piece : List Char), ((positionalRows anns)[k]?.bind PositionalRow.peer) = some peer ∧
    (numberedPieces ips)[k]? = some (piece, i)

/-- The values of the fields with a number, none where a field is blank or malformed. -/
def fieldAsn (anns : Annotations) (i : Nat) : Option UInt32 :=
  (commaField anns Keys.peerAsns i).bind fun f => parseU32 (trim f)

def fieldLocalIp (anns : Annotations) (i : Nat) : Option IpAddr :=
  (commaField anns Keys.peerLocalips i).bind parseIp

def fieldPassword (anns : Annotations) (i : Nat) : Option String :=
  ((commaField anns Keys.peerPasswords i).bind fun f =>
    if (trim f).isEmpty then none else some (trim f)).map String.ofList

def fieldPort (anns : Annotations) (i : Nat) : Option UInt16 :=
  (commaField anns Keys.peerPorts i).bind fun f => parseU16 (trim f)

/-- The peer carries the values of the `i`-th fields. -/
def CarriesFields (anns : Annotations) (i : Nat) (peer : ExternalPeer) : Prop :=
  some peer.remoteAsn = fieldAsn anns i ∧ peer.localIp = fieldLocalIp anns i ∧
    peer.password = fieldPassword anns i ∧ peer.port = fieldPort anns i

/-- The text of a field as `read` reads it, none when it is blank. -/
def fieldValue {β : Type} (read : List Char → Option β) (s : List Char) (i : Nat) : Option β :=
  (s.splitOn ',')[i]?.bind fun field => if trim field = [] then none else read (trim field)

/-- The `i`-th field is one piece with `k` pieces in front of it, or it is blank and the list has
no more than `k` pieces. -/
def InStep (s : List Char) (k i : Nat) : Prop :=
  ∃ field, (s.splitOn ',')[i]? = some field ∧
    ((' ' ∉ trim field ∧ trim field ≠ [] ∧ piecesBefore s i = k) ∨
      (trim field = [] ∧ pieceCount s ≤ k))

/-- Whatever stands behind the first `k` pieces reads as the `i`-th field. -/
def Coincides {β : Type} (read : List Char → Option β) (s : List Char) (k i : Nat) : Prop :=
  (∀ j piece, StandsAt s k j piece → read piece = fieldValue read s i) ∧
    (pieceCount s ≤ k → fieldValue read s i = none)

/-- An annotation that is there is in step, or out of step in a way that does not show. -/
def ListAligned {β : Type} (read : List Char → Option β) (anns : Annotations) (key : String)
    (k i : Nat) : Prop :=
  ∀ s, annotationText anns key = some s → InStep s k i ∨ Coincides read s k i

/-- The lists beside the addresses at an address with `k` pieces in front of it, from the `i`-th
field. -/
structure PeerAligned (anns : Annotations) (k i : Nat) : Prop where
  asn : ListAligned parseU32 anns Keys.peerAsns k i
  localIp : ListAligned parseIp anns Keys.peerLocalips k i
  password : ListAligned (fun f => some (String.ofList f)) anns Keys.peerPasswords k i
  port : ListAligned parseU16 anns Keys.peerPorts k i

section Alignment

variable {anns : Annotations} {ips asns : List Char}

theorem pieces_of_eq {key : String} {s : List Char} (h : annotationText anns key = some s) :
    pieces anns key = splitList s := by
  unfold pieces
  rw [h]
  rfl

theorem getElem?_positionalRows (h : CommaLists anns ips asns) (k : Nat) :
    (positionalRows anns)[k]? =
      if (splitList ips).length = (splitList asns).length then
        ((splitList ips).zip (splitList asns))[k]?.map fun (ip, asn) =>
          ⟨ip, asn, (pieces anns Keys.peerLocalips)[k]?, (pieces anns Keys.peerPasswords)[k]?,
            (pieces anns Keys.peerPorts)[k]?⟩
      else none := by
  unfold positionalRows
  rw [h.ips_eq, h.asns_eq]
  dsimp only
  by_cases hlen : (splitList ips).length = (splitList asns).length
  · by_cases hempty : splitList ips = []
    · simp [hempty, ← hlen]
    · rw [if_neg (by simp [hempty, hlen]), if_pos hlen, List.getElem?_map, List.getElem?_zipIdx]
      cases ((splitList ips).zip (splitList asns))[k]? with
      | none => rfl
      | some pair => simp
  · rw [if_pos (by simp [hlen]), if_neg hlen]
    rfl

/-- A peer of the loop, by the pieces it is made of. -/
theorem rowPeer_eq_some_iff (h : CommaLists anns ips asns) {k : Nat} {peer : ExternalPeer} :
    (positionalRows anns)[k]?.bind PositionalRow.peer = some peer ↔
      (splitList ips).length = (splitList asns).length ∧
        (splitList ips)[k]?.bind parseIp = some peer.remoteIp ∧
        (splitList asns)[k]?.bind parseU32 = some peer.remoteAsn ∧
        peer.localIp = (pieces anns Keys.peerLocalips)[k]?.bind parseIp ∧
        peer.password = (pieces anns Keys.peerPasswords)[k]?.map String.ofList ∧
        peer.port = (pieces anns Keys.peerPorts)[k]?.bind parseU16 := by
  rw [getElem?_positionalRows h]
  by_cases hlen : (splitList ips).length = (splitList asns).length
  · rw [if_pos hlen, List.zip_eq_zipWith, List.getElem?_zipWith]
    cases (splitList ips)[k]? with
    | none => simp
    | some ip =>
      cases (splitList asns)[k]? with
      | none => simp
      | some asn =>
        obtain ⟨remoteIp, remoteAsn, localIp, password, port⟩ := peer
        cases hip : parseIp ip <;> cases hasn : parseU32 asn <;>
          simp [PositionalRow.peer, hip, hasn, hlen, eq_comm]
  · simp [hlen]

/-- Of a text that is no value when blank, it does not matter whether blanks are left out. -/
theorem bind_of_blank {β : Type} {read : List Char → Option β} (hblank : read [] = none)
    (field : Option (List Char)) :
    (field.bind fun f => if trim f = [] then none else read (trim f)) =
      field.bind fun f => read (trim f) := by
  refine Option.bind_congr fun f _ => ?_
  by_cases hnil : trim f = []
  · rw [if_pos hnil, hnil, hblank]
  · rw [if_neg hnil]

section Read

variable {β : Type} {read : List Char → Option β}

/-- The piece of a field in step is the field. -/
theorem InStep.bind_eq {s : List Char} {k i : Nat} (h : InStep s k i) :
    (splitList s)[k]?.bind read = fieldValue read s i := by
  obtain ⟨field, hfield, ⟨hblank, hnil, rfl⟩ | ⟨hnil, hcount⟩⟩ := h
  · have hpiece : (splitList s)[piecesBefore s i]? = some (trim field) := by
      refine getElem?_splitList_eq_some_iff.mpr ⟨i, field, 0, hfield, ?_, rfl⟩
      rw [fieldPieces_of_no_blank hblank, if_neg hnil]
      rfl
    rw [hpiece, fieldValue, hfield, Option.bind_some, Option.bind_some, if_neg hnil]
  · rw [List.getElem?_eq_none (length_splitList s ▸ hcount), fieldValue, hfield, Option.bind_some,
      if_pos hnil]
    rfl

theorem coincides_iff {s : List Char} {k i : Nat} :
    Coincides read s k i ↔ (splitList s)[k]?.bind read = fieldValue read s i := by
  cases hpiece : (splitList s)[k]? with
  | some piece =>
    obtain ⟨j, hstands⟩ := getElem?_splitList_eq_some_iff.mp hpiece
    have hlt : k < pieceCount s := length_splitList s ▸ (List.getElem?_eq_some_iff.mp hpiece).1
    rw [Option.bind_some]
    constructor
    · exact fun h => h.1 j piece hstands
    · refine fun heq => ⟨fun j' piece' hstands' => ?_, fun hcount => by omega⟩
      rw [getElem?_splitList_eq_some_iff.mpr ⟨j', hstands'⟩] at hpiece
      obtain rfl := Option.some.inj hpiece
      exact heq
  | none =>
    have hcount : pieceCount s ≤ k := length_splitList s ▸ List.getElem?_eq_none_iff.mp hpiece
    rw [Option.bind_none]
    constructor
    · exact fun h => (h.2 hcount).symm
    · refine fun heq => ⟨fun j piece hstands => ?_, fun _ => heq.symm⟩
      rw [getElem?_splitList_eq_some_iff.mpr ⟨j, hstands⟩] at hpiece
      cases hpiece

/-- The piece of a list with the number of an address reads as the field of the address exactly
when the list is aligned there. -/
theorem listAligned_iff (read : List Char → Option β) (anns : Annotations) (key : String)
    (k i : Nat) : ListAligned read anns key k i ↔ (pieces anns key)[k]?.bind read =
      (commaField anns key i).bind fun f => if trim f = [] then none else read (trim f) := by
  unfold ListAligned commaField
  cases hs : annotationText anns key with
  | none =>
    rw [pieces, hs]
    exact iff_of_true (fun s h => absurd h (by simp)) rfl
  | some s =>
    rw [pieces_of_eq hs, Option.bind_some]
    constructor
    · exact fun h => (h s rfl).elim InStep.bind_eq coincides_iff.mp
    · intro heq s' h
      obtain rfl := Option.some.inj h
      exact Or.inr (coincides_iff.mpr heq)

/-- A packed list is in step where as many pieces are in front as fields. -/
theorem Packed.listAligned {key : String}
    (hpacked : ∀ s, annotationText anns key = some s → Packed s) (i : Nat) :
    ListAligned read anns key i i := by
  refine (listAligned_iff read anns key i i).mpr ?_
  unfold pieces commaField
  cases hs : annotationText anns key with
  | none => rfl
  | some s =>
    show (splitList s)[i]?.bind read = _
    rw [(hpacked s hs).getElem?_splitList i]
    show _ = ((s.splitOn ',')[i]?).bind _
    cases (s.splitOn ',')[i]? with
    | none => rfl
    | some field => by_cases hnil : trim field = [] <;> simp [Option.filter, hnil]

end Read

/-- A peer carries the fields with a number exactly when the lists it is made of are aligned. -/
theorem carriesFields_iff (h : CommaLists anns ips asns) {k i : Nat} {peer : ExternalPeer}
    (hpeer : (positionalRows anns)[k]?.bind PositionalRow.peer = some peer) :
    CarriesFields anns i peer ↔ PeerAligned anns k i := by
  obtain ⟨-, -, hasn, hlocal, hpassword, hport⟩ := (rowPeer_eq_some_iff h).mp hpeer
  have hfieldLocal : fieldLocalIp anns i =
      (commaField anns Keys.peerLocalips i).bind fun f => parseIp (trim f) :=
    Option.bind_congr fun f _ => (congrArg IpAddr.parse (Split.trim_trim f)).symm
  have hfieldPassword : fieldPassword anns i = (commaField anns Keys.peerPasswords i).bind fun f =>
      if trim f = [] then none else some (String.ofList (trim f)) := by
    unfold fieldPassword
    cases commaField anns Keys.peerPasswords i with
    | none => rfl
    | some f => by_cases hnil : trim f = [] <;> simp [hnil]
  have hpassword' : peer.password =
      (pieces anns Keys.peerPasswords)[k]?.bind fun f => some (String.ofList f) := by
    rw [hpassword]
    cases (pieces anns Keys.peerPasswords)[k]? <;> rfl
  have hasnIff := listAligned_iff parseU32 anns Keys.peerAsns k i
  have hlocalIff := listAligned_iff parseIp anns Keys.peerLocalips k i
  have hpasswordIff := listAligned_iff (fun f => some (String.ofList f)) anns Keys.peerPasswords k i
  have hportIff := listAligned_iff parseU16 anns Keys.peerPorts k i
  rw [bind_of_blank rfl, pieces_of_eq h.asns_eq, hasn] at hasnIff
  rw [bind_of_blank rfl, ← hfieldLocal, ← hlocal] at hlocalIff
  rw [← hfieldPassword, ← hpassword'] at hpasswordIff
  rw [bind_of_blank rfl, ← hport] at hportIff
  constructor
  · rintro ⟨hasn, hlocal, hpassword, hport⟩
    exact ⟨hasnIff.mpr hasn, hlocalIff.mpr hlocal, hpasswordIff.mpr hpassword, hportIff.mpr hport⟩
  · rintro ⟨hasn, hlocal, hpassword, hport⟩
    exact ⟨hasnIff.mp hasn, hlocalIff.mp hlocal, hpasswordIff.mp hpassword, hportIff.mp hport⟩

/-- In packed lists an address has as many pieces in front of it as fields. -/
theorem peerAligned_of_packed (h : CommaLists anns ips asns)
    (hpacked : ∀ key ∈ [Keys.peerIps, Keys.peerAsns, Keys.peerLocalips, Keys.peerPasswords,
      Keys.peerPorts], ∀ s, annotationText anns key = some s → Packed s)
    {k i : Nat} {ip : List Char} (hk : StandsAt ips k i ip) : PeerAligned anns k i := by
  have hips : Packed ips := hpacked Keys.peerIps (by simp) ips h.ips_eq
  have hnumber : k = i := by
    have hk' := getElem?_numberedPieces_eq_some_iff.mpr hk
    rw [hips.numberedPieces_eq h.ips_filled, List.getElem?_map, List.getElem?_zipIdx] at hk'
    cases hfield : (ips.splitOn ',')[k]? with
    | none => simp [hfield] at hk'
    | some field =>
      simp only [hfield, Option.map_some, Option.some.injEq, Prod.mk.injEq, Nat.zero_add] at hk'
      exact hk'.2
  subst hnumber
  exact ⟨Packed.listAligned (hpacked Keys.peerAsns (by simp)) k,
    Packed.listAligned (hpacked Keys.peerLocalips (by simp)) k,
    Packed.listAligned (hpacked Keys.peerPasswords (by simp)) k,
    Packed.listAligned (hpacked Keys.peerPorts (by simp)) k⟩

/-- Packed lists are aligned. -/
theorem carriesFields_of_packed (h : CommaLists anns ips asns)
    (hpacked : ∀ key ∈ [Keys.peerIps, Keys.peerAsns, Keys.peerLocalips, Keys.peerPasswords,
      Keys.peerPorts], ∀ s, annotationText anns key = some s → Packed s)
    {i : Nat} {peer : ExternalPeer} (hstems : StemsFrom anns ips i peer) :
    CarriesFields anns i peer := by
  obtain ⟨k, ip, hpeer, hk⟩ := hstems
  exact (carriesFields_iff h hpeer).mpr
    (peerAligned_of_packed h hpacked (getElem?_numberedPieces_eq_some_iff.mp hk))

end Alignment

section Sample

/-- Two peers with passwords and ports. -/
def twoPeers (passwords ports : String) : Annotations :=
  [(Keys.peerIps, "192.0.2.1,192.0.2.2"), (Keys.peerAsns, "65001, 65002"),
    (Keys.peerPasswords, passwords), (Keys.peerPorts, ports)]

theorem twoPeers_commaLists {passwords ports : String}
    (hpasswords : (passwords.toList.splitOn ',').length = 2)
    (hports : (ports.toList.splitOn ',').length = 2) :
    CommaLists (twoPeers passwords ports) "192.0.2.1,192.0.2.2".toList "65001, 65002".toList where
  ips_eq := rfl
  asns_eq := rfl
  asns_length := by decide
  optional_length := by
    intro key hkey s hs
    simp only [List.mem_cons, List.not_mem_nil, or_false] at hkey
    obtain rfl | rfl | rfl := hkey
    · cases hs
    · cases hs
      exact hpasswords
    · cases hs
      exact hports
  ips_filled := by decide
  asns_filled := by decide

theorem twoPeers_packed {passwords ports : String} (hpasswords : Packed passwords.toList)
    (hports : Packed ports.toList) : ∀ key ∈ [Keys.peerIps, Keys.peerAsns, Keys.peerLocalips,
      Keys.peerPasswords, Keys.peerPorts], ∀ s,
      annotationText (twoPeers passwords ports) key = some s → Packed s := by
  intro key hkey s hs
  simp only [List.mem_cons, List.not_mem_nil, or_false] at hkey
  obtain rfl | rfl | rfl | rfl | rfl := hkey
  · cases hs
    exact ⟨by decide, by decide⟩
  · cases hs
    exact ⟨by decide, by decide⟩
  · cases hs
  · cases hs
    exact hpasswords
  · cases hs
    exact hports

end Sample

end KubeRouter.Routing
