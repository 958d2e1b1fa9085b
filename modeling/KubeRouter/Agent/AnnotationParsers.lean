/-
  The two parsers of the BGP annotations: `parse_node_bgp` (`routing/src/annotations.rs`) and what
  the agent uses, `local_node_bgp_policy` and the annotation peers of `build_controller`
  (`kube-router-rs/src/routing_wire.rs`).

  They differ in what separates the entries of a list, in what a malformed value does to the rest,
  and in the forms of peers they know.

  Proved:
  * `parsers_agree_iff`: when the two parsers agree on a node.
  * `prepend_without_count`: an AS-path prepend without its repeat count divides them.
-/
import KubeRouter.Agent.BgpWire

namespace KubeRouter.Agent

open Routing Text

/-! ## What the parsers agree on -/

/-- The values of a configured peer that an annotation gives. -/
def annotated (peer : Bgp.PeerConfig) : ExternalPeer where
  remoteIp := peer.neighbor
  remoteAsn := peer.peerAsn
  localIp := peer.localAddress
  password := peer.password
  port := peer.port

section Agreement

variable (parseNet : List Char → Option IpNet) (readPeers : String → Except String (List PeerEntry))
  (ttl : Option UInt8) (gracefulRestart : Option Bgp.GracefulRestart) (store : List K8sNodeMeta)
  (name : String)

structure ParsersAgree : Prop where
  prepend : (parseNodeBgp parseNet readPeers (nodeAnnotations store name)).pathPrepend =
    (localNodeBgpPolicy parseNet store name).pathPrepend
  reject : (parseNodeBgp parseNet readPeers (nodeAnnotations store name)).customImportReject =
    (localNodeBgpPolicy parseNet store name).importReject
  kept : ∀ token ∈ (parseNodeBgp parseNet readPeers (nodeAnnotations store name)).communities,
    ∃ v ∈ (localNodeBgpPolicy parseNet store name).communities, parseCommunity token = .ok v
  advertised : ∀ v ∈ (localNodeBgpPolicy parseNet store name).communities,
    ∃ token ∈ (parseNodeBgp parseNet readPeers (nodeAnnotations store name)).communities,
      parseCommunity token = .ok v
  peers : (parseNodeBgp parseNet readPeers (nodeAnnotations store name)).externalPeers =
    (annotationPeers readPeers store name ttl gracefulRestart).map annotated

end Agreement

/-! ## When they agree -/

/-- Where the policy is read, a prepend has a repeat count from one to eight; where it is not, the
prepend annotations do not name both an ASN and a count up to eight. -/
def PrependFits (anns : Annotations) : Prop :=
  (ExportReadable anns → ∀ asn, annotationText anns Keys.pathPrependAs = some asn →
    ∃ times n, annotationText anns Keys.pathPrependRepeat = some times ∧
      parseU8 (trim times) = some n ∧ 1 ≤ n ∧ n ≤ 8) ∧
  (¬ExportReadable anns → ∀ asn times n m, annotationText anns Keys.pathPrependAs = some asn →
    annotationText anns Keys.pathPrependRepeat = some times → parseU32 (trim asn) = some m →
    parseU8 (trim times) = some n → 8 < n)

/-- Where the policy is read, no comma entry with a blank in it has a piece that is a prefix; where
it is not, no piece is one. -/
def RejectFits (parseNet : List Char → Option IpNet) (anns : Annotations) : Prop :=
  ∀ s, annotationText anns Keys.customImportReject = some s →
    ∀ field ∈ s.splitOn ',', (ExportReadable anns → ' ' ∈ trim field) →
      ∀ piece ∈ fieldPieces field, parseNet piece = none

/-- Where the policy is not read, no piece is a community. -/
def CommunitiesFit (anns : Annotations) : Prop :=
  ¬ExportReadable anns → ∀ token ∈ pieces anns Keys.communities, validateCommunity token = false

/-- The positional values of a peer read as the entry is used. -/
def RowReads (row : PositionalRow) (e : PeerEntry) : Prop :=
  parseIp row.ip = IpAddr.parse e.remoteip.toList ∧ parseU32 row.asn = some e.remoteasn ∧
    row.localIp.bind parseIp = e.localAddress ∧ row.password.map String.ofList = e.usedPassword ∧
    row.port.bind parseU16 = e.usedPort

/-- The address of an entry is one, and so are the local address and the port that it gives. -/
def EntryStrict (e : PeerEntry) : Prop :=
  (IpAddr.parse e.remoteip.toList).isSome = true ∧
    (∀ s, e.localip = some s → (IpAddr.parse s.toList).isSome = true) ∧
    ∀ p, e.port = some p → p.toNat < 65536

/-- The entries of the YAML annotation, if it can be read. -/
def yamlEntries (readPeers : String → Except String (List PeerEntry)) (anns : Annotations) :
    Option (List PeerEntry) := (anns.lookup Keys.peers).bind fun yaml => (readPeers yaml).toOption

/-- The positional values whose address and ASN are well-formed. -/
def wellFormedRows (anns : Annotations) : List PositionalRow :=
  (positionalRows anns).filter fun row => (parseIp row.ip).isSome && (parseU32 row.asn).isSome

/-- Entries that the stricter type reads have no empty password and no port zero. Entries that only
the other one reads are those of the positional lists. Where neither reads them, the positional
lists have no well-formed peer. -/
def PeersFit (readPeers : String → Except String (List PeerEntry)) (anns : Annotations) : Prop :=
  (∀ es, yamlEntries readPeers anns = some es → (∀ e ∈ es, EntryStrict e) →
    ∀ e ∈ es, e.password ≠ some "" ∧ e.port ≠ some 0) ∧
  (∀ es, yamlEntries readPeers anns = some es →
    (∀ e ∈ es, (IpAddr.parse e.remoteip.toList).isSome = true) → (∃ e ∈ es, ¬EntryStrict e) →
    List.Forall₂ RowReads (wellFormedRows anns) es) ∧
  ((∀ es, yamlEntries readPeers anns = some es →
    ∃ e ∈ es, IpAddr.parse e.remoteip.toList = none) → wellFormedRows anns = [])

/-! ## Prepend -/

section

variable (parseNet : List Char → Option IpNet) (readPeers : String → Except String (List PeerEntry))
  {anns : Annotations}

theorem prepend_iff :
    (parseNodeBgp parseNet readPeers anns).pathPrepend = (policyOf parseNet anns).pathPrepend ↔
      PrependFits anns := by
  unfold PrependFits
  have hnode : (parseNodeBgp parseNet readPeers anns).pathPrepend =
      bothPrepend (annotationText anns Keys.pathPrependAs)
        (annotationText anns Keys.pathPrependRepeat) := rfl
  rw [hnode]
  by_cases h : ExportReadable anns
  · have hpolicy := (policyOf_of_readable parseNet h).2.1
    simp only [h, not_true_eq_false, false_imp_iff, true_imp_iff, and_true]
    obtain ⟨has, hprep⟩ | ⟨text, asn, times, has, hasn, htimes, hprep⟩ := parsePrepend_eq_ok hpolicy
    · rw [hprep, has]
      exact iff_of_true rfl fun asn hasn => by cases hasn
    · rw [hprep, has]
      obtain ⟨hrep, rfl⟩ | ⟨r, hrep, htimes⟩ := htimes
      · rw [hrep]
        refine iff_of_false ?_ ?_
        · simp [bothPrepend]
        · intro hfits
          obtain ⟨_, _, hnone, _⟩ := hfits text rfl
          cases hnone
      · have hcount : (∀ asn, some text = some asn → ∃ t n, some r = some t ∧
            parseU8 (trim t) = some n ∧ 1 ≤ n ∧ n ≤ 8) ↔ 1 ≤ times ∧ times ≤ 8 := by
          simp [htimes]
        have hboth : bothPrepend (some text) (some r) =
            if times ≤ maxPathPrependRepeat then some (asn, times) else none := by
          simp [bothPrepend, hasn, htimes]
        rw [hrep, hcount, hboth]
        have hpos : times > 0 ↔ 1 ≤ times := by
          rw [gt_iff_lt, UInt8.lt_iff_toNat_lt, UInt8.le_iff_toNat_le]
          exact Iff.rfl
        by_cases hle : times ≤ maxPathPrependRepeat
        · rw [if_pos hle]
          by_cases hone : times > 0
          · exact iff_of_true (if_pos hone).symm ⟨hpos.mp hone, hle⟩
          · rw [if_neg hone]
            exact iff_of_false (by simp) fun hboth => hone (hpos.mpr hboth.1)
        · have hle8 : ¬times ≤ 8 := hle
          have hone : times > 0 := by
            rw [UInt8.le_iff_toNat_le] at hle8
            rw [gt_iff_lt, UInt8.lt_iff_toNat_lt]
            simp at hle8 ⊢
            omega
          rw [if_neg hle, if_pos hone]
          exact iff_of_false (by simp) fun hboth => hle hboth.2
  · rw [policyOf_of_not_readable parseNet h]
    simp only [h, not_false_eq_true, false_imp_iff, true_imp_iff, true_and]
    constructor
    · intro hnone asn times n m has hrep hasn htimes
      by_contra hle
      rw [has, hrep] at hnone
      have hsome : bothPrepend (some asn) (some times) = some (m, n) :=
        bothPrepend_eq_some_iff.mpr ⟨hasn, htimes, UInt8.not_lt.mp hle⟩
      rw [hnone] at hsome
      cases hsome
    · intro hall
      by_contra hsome
      obtain ⟨⟨m, n⟩, hsome⟩ := Option.ne_none_iff_exists'.mp hsome
      obtain ⟨hasn, htimes, hle⟩ := bothPrepend_eq_some_iff.mp hsome
      obtain ⟨asn, has, hasn⟩ := Option.bind_eq_some_iff.mp hasn
      obtain ⟨times, hrep, htimes⟩ := Option.bind_eq_some_iff.mp htimes
      exact absurd hle (UInt8.not_le.mpr (hall asn times n m has hrep hasn htimes))

/-! ## Rejected prefixes -/

theorem parseImportReject_eq_flatMap (parseNet : List Char → Option IpNet) (s : List Char) :
    parseImportReject parseNet s = (s.splitOn ',').flatMap fun field =>
      if trim field = [] then [] else (parseNet (trim field)).toList := by
  unfold parseImportReject commaEntries
  rw [List.filterMap_filter, List.filterMap_map, List.filterMap_eq_flatMap_toList]
  refine List.flatMap_congr fun field _ => ?_
  by_cases hnil : trim field = []
  · simp [hnil]
  · simp [hnil]

theorem reject_iff (hblank : ∀ text net, parseNet text = some net → ' ' ∉ text) :
    (parseNodeBgp parseNet readPeers anns).customImportReject =
        (policyOf parseNet anns).importReject ↔ RejectFits parseNet anns := by
  have hpieces : ∀ field, (fieldPieces field).filterMap (Routing.parseCidr parseNet) = [] ↔
      ∀ piece ∈ fieldPieces field, parseNet piece = none := by
    intro field
    rw [List.filterMap_eq_nil_iff]
    refine forall₂_congr fun piece hpiece => ?_
    unfold Routing.parseCidr
    rw [trim_of_mem_fieldPieces hpiece]
  have hnode : (parseNodeBgp parseNet readPeers anns).customImportReject =
      (pieces anns Keys.customImportReject).filterMap (Routing.parseCidr parseNet) := rfl
  rw [hnode]
  unfold RejectFits pieces
  cases hann : annotationText anns Keys.customImportReject with
  | none =>
    have hpolicy : (policyOf parseNet anns).importReject = [] := by
      by_cases h : ExportReadable anns
      · rw [(policyOf_of_readable parseNet h).2.2, hann]
        rfl
      · rw [policyOf_of_not_readable parseNet h]
    rw [hpolicy]
    exact iff_of_true rfl fun s hs => by cases hs
  | some s =>
    have hsplit : (splitList s).filterMap (Routing.parseCidr parseNet) =
        (s.splitOn ',').flatMap fun field =>
          (fieldPieces field).filterMap (Routing.parseCidr parseNet) := by
      rw [splitList_eq_flatMap, List.filterMap_flatMap]
    simp only [Option.map_some, Option.getD_some, Option.some.injEq, forall_eq', hsplit]
    by_cases h : ExportReadable anns
    · have hpolicy : (policyOf parseNet anns).importReject =
          (s.splitOn ',').flatMap fun field =>
            if trim field = [] then [] else (parseNet (trim field)).toList := by
        rw [(policyOf_of_readable parseNet h).2.2, hann]
        exact parseImportReject_eq_flatMap parseNet s
      -- what a field gives to the policy
      have hone : ∀ field, ' ' ∉ trim field →
          (fieldPieces field).filterMap (Routing.parseCidr parseNet) =
          if trim field = [] then [] else (parseNet (trim field)).toList := by
        intro field hfield
        rw [fieldPieces_of_no_blank hfield]
        split
        · rfl
        · rw [List.filterMap_cons, Routing.parseCidr, trim_trim]
          cases parseNet (trim field) <;> rfl
      have hnone : ∀ field, ' ' ∈ trim field →
          (if trim field = [] then [] else (parseNet (trim field)).toList) = [] := by
        intro field hfield
        split
        · rfl
        · cases hnet : parseNet (trim field) with
          | none => rfl
          | some net => exact absurd hfield (hblank _ net hnet)
      simp only [h, true_imp_iff]
      rw [hpolicy, Collect.flatMap_eq_flatMap_iff]
      · refine forall₂_congr fun field _ => ?_
        by_cases hfield : ' ' ∈ trim field
        · rw [hnone field hfield, hpieces]
          exact ⟨fun hall _ => hall, fun hall => hall hfield⟩
        · exact iff_of_true (hone field hfield) fun hin => absurd hin hfield
      · intro field _
        by_cases hfield : ' ' ∈ trim field
        · exact .inr (hnone field hfield)
        · exact .inl (hone field hfield).symm
    · rw [policyOf_of_not_readable parseNet h]
      simp only [h, false_imp_iff, true_imp_iff, ← hpieces, List.flatMap_eq_nil_iff]

/-! ## Communities -/

theorem communities_iff :
    ((∀ token ∈ (parseNodeBgp parseNet readPeers anns).communities,
        ∃ v ∈ (policyOf parseNet anns).communities, parseCommunity token = .ok v) ∧
      ∀ v ∈ (policyOf parseNet anns).communities,
        ∃ token ∈ (parseNodeBgp parseNet readPeers anns).communities,
          parseCommunity token = .ok v) ↔ CommunitiesFit anns := by
  have hnode : (parseNodeBgp parseNet readPeers anns).communities =
      (pieces anns Keys.communities).filter validateCommunity := rfl
  unfold CommunitiesFit
  rw [hnode]
  by_cases h : ExportReadable anns
  · refine iff_of_true ?_ fun hnot => absurd h hnot
    have hpolicy := (policyOf_of_readable parseNet h).1
    cases hann : annotationText anns Keys.communities with
    | none =>
      rw [hann] at hpolicy
      have hnone : (policyOf parseNet anns).communities = [] := (Except.ok.inj hpolicy).symm
      simp [pieces, hann, hnone]
    | some s =>
      rw [hann] at hpolicy
      have hread : List.Forall₂ (fun e v => parseCommunity e = .ok v) (commaEntries s)
          (policyOf parseNet anns).communities := Collect.mapM_eq_ok_iff.mp hpolicy
      have hentries : ∀ e ∈ commaEntries s, ∃ v, parseCommunity e = .ok v := h.1 s hann
      have hkept : (pieces anns Keys.communities).filter validateCommunity = commaEntries s := by
        rw [pieces_of_eq hann, splitList_eq_commaEntries, List.filter_eq_self]
        · intro e he
          obtain ⟨v, hv⟩ := hentries e he
          exact validateCommunity_of_parseCommunity hv
        · intro field hfield
          by_cases hnil : trim field = []
          · rw [hnil]
            exact List.not_mem_nil
          · have hentry : trim field ∈ commaEntries s :=
              List.mem_filter.mpr ⟨List.mem_map_of_mem hfield, by simpa using hnil⟩
            obtain ⟨v, hv⟩ := hentries _ hentry
            rw [← trim_trim]
            exact blank_not_mem_of_parseCommunity hv
      rw [hkept]
      exact ⟨Collect.exists_of_forall₂ hread, Collect.exists_of_forall₂ hread.flip⟩
  · rw [policyOf_of_not_readable parseNet h]
    simp only [h, not_false_eq_true, true_imp_iff]
    simp

end

/-! ## Peers -/

/-- The peer that the agent makes of an entry. -/
def usedPeer (e : PeerEntry) : Option ExternalPeer :=
  (IpAddr.parse e.remoteip.toList).map fun ip =>
    ⟨ip, e.remoteasn, e.localAddress, e.usedPassword, e.usedPort⟩

section Peers

variable {readPeers : String → Except String (List PeerEntry)} {store : List K8sNodeMeta}
  {name : String} {es : List PeerEntry}

theorem isSome_usedPeer {e : PeerEntry} :
    (usedPeer e).isSome = (IpAddr.parse e.remoteip.toList).isSome := by
  unfold usedPeer
  rw [Option.isSome_map]

theorem tryPort_of_lt {p : UInt32} (h : p.toNat < 65536) :
    tryPort p = some (UInt16.ofNat p.toNat) := if_pos h

theorem tryPort_of_not_lt {p : UInt32} (h : ¬p.toNat < 65536) : tryPort p = none := if_neg h

theorem ofEntry_of_strict {e : PeerEntry} (h : EntryStrict e) :
    ExternalPeer.ofEntry e = (IpAddr.parse e.remoteip.toList).map fun ip =>
      ⟨ip, e.remoteasn, e.localAddress, e.password, e.port.bind tryPort⟩ := by
  obtain ⟨remoteip, remoteasn, localip, password, port⟩ := e
  obtain ⟨hip, hlocal, hport⟩ := h
  obtain ⟨ip, hip⟩ := Option.isSome_iff_exists.mp hip
  simp only [ExternalPeer.ofEntry, PeerEntry.localAddress] at hip hlocal hport ⊢
  rw [hip]
  cases localip with
  | none =>
    cases port with
    | none => rfl
    | some p => simp [tryPort_of_lt (hport p rfl)]
  | some s =>
    obtain ⟨a, ha⟩ := Option.isSome_iff_exists.mp (hlocal s rfl)
    cases port with
    | none => simp [ha]
    | some p => simp [ha, tryPort_of_lt (hport p rfl)]

theorem ofEntry_of_not_strict {e : PeerEntry} (h : ¬EntryStrict e) :
    ExternalPeer.ofEntry e = none := by
  by_contra hsome
  refine h ⟨?_, fun s hs => ?_, fun p hp => ?_⟩
  · by_contra hip
    simp [ExternalPeer.ofEntry, Option.not_isSome_iff_eq_none.mp hip] at hsome
  · by_contra hlocal
    simp [ExternalPeer.ofEntry, hs, Option.not_isSome_iff_eq_none.mp hlocal] at hsome
  · by_contra hport
    cases hlocal : e.localip <;>
      simp [ExternalPeer.ofEntry, hp, hlocal, tryPort_of_not_lt hport] at hsome

theorem usedPeer_of_entryPeer {ttl : Option UInt8} {gracefulRestart : Option Bgp.GracefulRestart}
    {e : PeerEntry} {peer : Bgp.PeerConfig} (h : entryPeer ttl gracefulRestart e = .ok peer) :
    usedPeer e = some (annotated peer) := by
  unfold entryPeer at h
  split at h
  · cases h
  · next ip hip =>
    cases h
    simp [usedPeer, annotated, hip]

theorem entryPeer_isOk_iff {ttl : Option UInt8} {gracefulRestart : Option Bgp.GracefulRestart}
    {e : PeerEntry} : (∃ peer, entryPeer ttl gracefulRestart e = .ok peer) ↔
      (IpAddr.parse e.remoteip.toList).isSome = true := by
  unfold entryPeer
  cases IpAddr.parse e.remoteip.toList <;> simp

variable (ttl : Option UInt8) (gracefulRestart : Option Bgp.GracefulRestart)

theorem annotationPeers_eq : annotationPeers readPeers store name ttl gracefulRestart =
    ((yamlEntries readPeers (nodeAnnotations store name)).bind fun es =>
      (es.mapM (entryPeer ttl gracefulRestart)).toOption).getD [] := by
  unfold annotationPeers yamlEntries parsePeersAnnotation
  cases (nodeAnnotations store name).lookup Keys.peers with
  | none => rfl
  | some yaml =>
    cases hread : readPeers yaml with
    | error e =>
      simp only [hread, Option.bind_some]
      rfl
    | ok entries =>
      simp only [hread, Option.bind_some]
      show _ = (entries.mapM (entryPeer ttl gracefulRestart)).toOption.getD []
      cases entries.mapM (entryPeer ttl gracefulRestart) <;> rfl

/-- The agent's peers of the annotation. -/
theorem annotated_annotationPeers
    (h : yamlEntries readPeers (nodeAnnotations store name) = some es)
    (hips : ∀ e ∈ es, (IpAddr.parse e.remoteip.toList).isSome = true) :
    (annotationPeers readPeers store name ttl gracefulRestart).map annotated =
      es.filterMap usedPeer := by
  obtain ⟨peers, hpeers⟩ := (Collect.mapM_isOk_iff (f := entryPeer ttl gracefulRestart)).mpr
    fun e he => entryPeer_isOk_iff.mpr (hips e he)
  rw [annotationPeers_eq, h, Option.bind_some, hpeers]
  have hall := Collect.mapM_eq_ok_iff.mp hpeers
  clear h hips hpeers
  show peers.map annotated = _
  induction hall with
  | nil => rfl
  | cons hpeer _ ih =>
    rw [List.map_cons, List.filterMap_cons, usedPeer_of_entryPeer hpeer, ih]

theorem annotationPeers_eq_nil
    (h : ∀ es, yamlEntries readPeers (nodeAnnotations store name) = some es →
      ∃ e ∈ es, IpAddr.parse e.remoteip.toList = none) :
    annotationPeers readPeers store name ttl gracefulRestart = [] := by
  rw [annotationPeers_eq]
  cases hentries : yamlEntries readPeers (nodeAnnotations store name) with
  | none => rfl
  | some es =>
    obtain ⟨e, he, hip⟩ := h es hentries
    rw [Option.bind_some]
    cases hpeers : es.mapM (entryPeer ttl gracefulRestart) with
    | error err => rfl
    | ok peers =>
      have hok := entryPeer_isOk_iff.mp (Collect.mapM_isOk_iff.mp ⟨peers, hpeers⟩ e he)
      rw [hip] at hok
      cases hok

theorem parseExternalPeers_eq (anns : Annotations) : parseExternalPeers readPeers anns =
    ((yamlEntries readPeers anns).bind fun es => es.mapM ExternalPeer.ofEntry).getD
      (parseDeprecatedPeers anns) := by
  have hread : (anns.lookup Keys.peers).bind (readExternalPeers readPeers) =
      (yamlEntries readPeers anns).bind fun es => es.mapM ExternalPeer.ofEntry := by
    unfold yamlEntries readExternalPeers
    rw [Option.bind_assoc]
    congr 1
    funext yaml
    cases readPeers yaml <;> rfl
  unfold parseExternalPeers
  rw [hread]
  cases (yamlEntries readPeers anns).bind fun es => es.mapM ExternalPeer.ofEntry <;> rfl

theorem parseExternalPeers_of_strict {anns : Annotations} (h : yamlEntries readPeers anns = some es)
    (hstrict : ∀ e ∈ es, EntryStrict e) :
    parseExternalPeers readPeers anns = es.filterMap ExternalPeer.ofEntry := by
  have hall : ∀ e ∈ es, (ExternalPeer.ofEntry e).isSome = true := by
    intro e he
    rw [ofEntry_of_strict (hstrict e he), Option.isSome_map]
    exact (hstrict e he).1
  rw [parseExternalPeers_eq, h, Option.bind_some, Collect.mapM_eq_some_filterMap hall,
    Option.getD_some]

theorem parseExternalPeers_of_not_strict {anns : Annotations}
    (h : ∀ es, yamlEntries readPeers anns = some es → ∃ e ∈ es, ¬EntryStrict e) :
    parseExternalPeers readPeers anns = parseDeprecatedPeers anns := by
  rw [parseExternalPeers_eq]
  cases hentries : yamlEntries readPeers anns with
  | none => rfl
  | some es =>
    obtain ⟨e, he, hnot⟩ := h es hentries
    rw [Option.bind_some, Collect.mapM_eq_none he (ofEntry_of_not_strict hnot), Option.getD_none]

/-- The positional peers are those of the well-formed rows. -/
theorem parseDeprecatedPeers_eq (anns : Annotations) :
    parseDeprecatedPeers anns = (wellFormedRows anns).filterMap PositionalRow.peer := by
  unfold parseDeprecatedPeers wellFormedRows
  rw [List.filterMap_filter]
  refine List.filterMap_congr fun row _ => ?_
  split
  · rfl
  · next hnot =>
    unfold PositionalRow.peer
    cases hip : parseIp row.ip with
    | none => rfl
    | some ip =>
      cases hasn : parseU32 row.asn with
      | none => rfl
      | some asn => simp [hip, hasn] at hnot

theorem peer_of_mem_wellFormedRows {anns : Annotations} {row : PositionalRow}
    (h : row ∈ wellFormedRows anns) : ∃ ip asn, parseIp row.ip = some ip ∧
      parseU32 row.asn = some asn ∧ row.peer = some ⟨ip, asn, row.localIp.bind parseIp,
        row.password.map String.ofList, row.port.bind parseU16⟩ := by
  have hwell := (List.mem_filter.mp h).2
  simp only [Bool.and_eq_true, Option.isSome_iff_exists] at hwell
  obtain ⟨⟨ip, hip⟩, asn, hasn⟩ := hwell
  exact ⟨ip, asn, hip, hasn, by simp [PositionalRow.peer, hip, hasn]⟩

theorem rowReads_iff {row : PositionalRow} {e : PeerEntry} {anns : Annotations}
    (hrow : row ∈ wellFormedRows anns) (hip : (IpAddr.parse e.remoteip.toList).isSome = true) :
    row.peer = usedPeer e ↔ RowReads row e := by
  obtain ⟨ip, asn, hparse, hasn, hpeer⟩ := peer_of_mem_wellFormedRows hrow
  obtain ⟨remote, hremote⟩ := Option.isSome_iff_exists.mp hip
  unfold RowReads usedPeer
  rw [hpeer, hparse, hasn, hremote]
  simp

theorem eq_filter_ne_iff {α : Type} [DecidableEq α] (o : Option α) (a : α) :
    o = o.filter (· ≠ a) ↔ o ≠ some a := by
  cases o with
  | none => simp
  | some b => by_cases hb : b = a <;> simp [Option.filter, hb]

theorem ofEntry_eq_usedPeer_iff {e : PeerEntry} (h : EntryStrict e) :
    ExternalPeer.ofEntry e = usedPeer e ↔ e.password ≠ some "" ∧ e.port ≠ some 0 := by
  obtain ⟨ip, hip⟩ := Option.isSome_iff_exists.mp h.1
  have hpassword : e.password = e.usedPassword ↔ e.password ≠ some "" := eq_filter_ne_iff _ _
  have hport : e.port.bind tryPort = e.usedPort ↔ e.port ≠ some 0 := by
    have hfilter : e.port.bind tryPort = e.usedPort ↔ e.port.bind tryPort ≠ some 0 :=
      eq_filter_ne_iff _ _
    rw [hfilter]
    cases hp : e.port with
    | none => simp
    | some p =>
      have hlt := h.2.2 p hp
      rw [Option.bind_some, tryPort_of_lt hlt, Ne, Ne, Option.some.injEq, Option.some.injEq,
        ← UInt16.toNat_inj, UInt16.toNat_ofNat', Nat.mod_eq_of_lt hlt, ← UInt32.toNat_inj]
      exact Iff.rfl
  unfold usedPeer
  rw [ofEntry_of_strict h, hip, ← hpassword, ← hport]
  simp

theorem peers_iff :
    parseExternalPeers readPeers (nodeAnnotations store name) =
        (annotationPeers readPeers store name ttl gracefulRestart).map annotated ↔
      PeersFit readPeers (nodeAnnotations store name) := by
  unfold PeersFit
  by_cases hips : ∃ es, yamlEntries readPeers (nodeAnnotations store name) = some es ∧
      ∀ e ∈ es, (IpAddr.parse e.remoteip.toList).isSome = true
  · obtain ⟨es, hentries, hips⟩ := hips
    have hused : ∀ e ∈ es, (usedPeer e).isSome = true :=
      fun e he => isSome_usedPeer.trans (hips e he)
    have hthird : ¬∃ e ∈ es, IpAddr.parse e.remoteip.toList = none := by
      rintro ⟨e, he, hnone⟩
      have hsome := hips e he
      rw [hnone] at hsome
      cases hsome
    rw [annotated_annotationPeers ttl gracefulRestart hentries hips]
    simp only [hentries, Option.some.injEq, forall_eq', hthird, false_imp_iff, and_true]
    by_cases hstrict : ∀ e ∈ es, EntryStrict e
    · have hall : ∀ e ∈ es, (ExternalPeer.ofEntry e).isSome = true := by
        intro e he
        rw [ofEntry_of_strict (hstrict e he), Option.isSome_map]
        exact hips e he
      have hnone : ¬∃ e ∈ es, ¬EntryStrict e := fun ⟨e, he, hnot⟩ => hnot (hstrict e he)
      rw [parseExternalPeers_of_strict hentries hstrict,
        Collect.filterMap_eq_filterMap_iff hall hused, List.forall₂_same]
      simp only [hnone, false_imp_iff, implies_true, and_true, forall_prop_of_true hstrict]
      exact forall₂_congr fun e he => ofEntry_eq_usedPeer_iff (hstrict e he)
    · have hsome : ∃ e ∈ es, ¬EntryStrict e := by
        by_contra hnone
        exact hstrict fun e he => by_contra fun hnot => hnone ⟨e, he, hnot⟩
      have hrows : ∀ row ∈ wellFormedRows (nodeAnnotations store name), row.peer.isSome = true := by
        intro row hrow
        obtain ⟨ip, asn, -, -, hpeer⟩ := peer_of_mem_wellFormedRows hrow
        exact Option.isSome_of_eq_some hpeer
      rw [parseExternalPeers_of_not_strict
          (fun es' hes' => Option.some.inj (hentries.symm.trans hes') ▸ hsome),
        parseDeprecatedPeers_eq, Collect.filterMap_eq_filterMap_iff hrows hused]
      simp only [hstrict, false_imp_iff, true_and, forall_prop_of_true hsome,
        forall_prop_of_true hips]
      exact Collect.forall₂_congr_mem fun row hrow e he => rowReads_iff hrow (hips e he)
  · have hnil : ∀ es, yamlEntries readPeers (nodeAnnotations store name) = some es →
        ∃ e ∈ es, IpAddr.parse e.remoteip.toList = none := by
      intro es hentries
      by_contra hnone
      refine hips ⟨es, hentries, fun e he => ?_⟩
      by_contra hnot
      exact hnone ⟨e, he, Option.not_isSome_iff_eq_none.mp hnot⟩
    have hnot : ∀ es, yamlEntries readPeers (nodeAnnotations store name) = some es →
        ∃ e ∈ es, ¬EntryStrict e := by
      intro es hentries
      obtain ⟨e, he, hip⟩ := hnil es hentries
      refine ⟨e, he, fun hstrict => ?_⟩
      have hsome := hstrict.1
      rw [hip] at hsome
      cases hsome
    rw [parseExternalPeers_of_not_strict hnot, annotationPeers_eq_nil ttl gracefulRestart hnil,
      parseDeprecatedPeers_eq, List.map_nil, List.filterMap_eq_nil_iff]
    constructor
    · intro hnone
      refine ⟨fun es hes hstrict => ?_, fun es hes hips' => ?_, fun _ => ?_⟩
      · obtain ⟨e, he, hnotStrict⟩ := hnot es hes
        exact absurd (hstrict e he) hnotStrict
      · exact absurd ⟨es, hes, hips'⟩ hips
      · refine List.eq_nil_iff_forall_not_mem.mpr fun row hrow => ?_
        obtain ⟨ip, asn, -, -, hpeer⟩ := peer_of_mem_wellFormedRows hrow
        rw [hnone row hrow] at hpeer
        cases hpeer
    · rintro ⟨-, -, hempty⟩ row hrow
      rw [hempty hnil] at hrow
      cases hrow

end Peers

/-- The two parsers agree on a node if and only if its prepend, import, community and peer
annotations fit. The reader of prefixes takes no text with a blank in it. -/
theorem parsers_agree_iff (parseNet : List Char → Option IpNet)
    (readPeers : String → Except String (List PeerEntry)) (ttl : Option UInt8)
    (gracefulRestart : Option Bgp.GracefulRestart) (store : List K8sNodeMeta) (name : String)
    (hblank : ∀ text net, parseNet text = some net → ' ' ∉ text) :
    ParsersAgree parseNet readPeers ttl gracefulRestart store name ↔
      PrependFits (nodeAnnotations store name) ∧ RejectFits parseNet (nodeAnnotations store name) ∧
        CommunitiesFit (nodeAnnotations store name) ∧
        PeersFit readPeers (nodeAnnotations store name) := by
  rw [← prepend_iff parseNet readPeers, ← reject_iff parseNet readPeers hblank,
    ← communities_iff parseNet readPeers, ← peers_iff ttl gracefulRestart]
  constructor
  · intro h
    exact ⟨h.prepend, h.reject, ⟨h.kept, h.advertised⟩, h.peers⟩
  · rintro ⟨hprepend, hreject, ⟨hkept, hadvertised⟩, hpeers⟩
    exact ⟨hprepend, hreject, hkept, hadvertised, hpeers⟩

section Sample

theorem parsePrivate_no_blank : ∀ text net, parsePrivate text = some net → ' ' ∉ text := by
  intro text net h
  unfold parsePrivate at h
  split at h
  · next htext =>
    rw [htext]
    decide
  · cases h

/-- No YAML is read below. -/
def noYaml (_ : String) : Except String (List PeerEntry) := .error "EOF while parsing a value"

def prependNode (annotations : Annotations) : K8sNodeMeta where
  name := some "n1"
  annotations := some ((Keys.pathPrependAs, "64512") :: annotations)

/-- All export annotations are well-formed. -/
def fittingNode : K8sNodeMeta :=
  prependNode [(Keys.pathPrependRepeat, "3"), (Keys.communities, "65000:1, 7"),
    (Keys.customImportReject, "10.0.0.0/8")]

end Sample

/-- A node on which the parsers agree. -/
theorem fittingNode_agree :
    (∀ text net, parsePrivate text = some net → ' ' ∉ text) ∧
      ParsersAgree parsePrivate noYaml none none [fittingNode] "n1" := by
  refine ⟨parsePrivate_no_blank,
    (parsers_agree_iff parsePrivate noYaml none none [fittingNode] "n1"
      parsePrivate_no_blank).mpr ?_⟩
  have hread : ExportReadable (nodeAnnotations [fittingNode] "n1") :=
    (BgpPolicyConfig.fromAnnotations_isOk_iff parsePrivate none).mp
      ⟨⟨[4259840001, 7], some (64512, 3), []⟩, by decide +kernel⟩
  refine ⟨⟨fun _ asn _ => ⟨"3".toList, 3, rfl, by decide +kernel, by decide, by decide⟩,
    fun hnot => absurd hread hnot⟩, ?_, fun hnot => absurd hread hnot, ?_, ?_, ?_⟩
  · intro s hs field hfield hblank
    cases hs
    have hnone : ∀ f ∈ "10.0.0.0/8".toList.splitOn ',', ' ' ∉ trim f := by decide
    exact absurd (hblank hread) (hnone field hfield)
  · intro es hes
    cases hes
  · intro es hes
    cases hes
  · intro _
    rfl

/-- Without a repeat count the agent prepends once, and the other parser does not prepend. -/
theorem prepend_without_count :
    ¬∀ parseNet readPeers ttl gracefulRestart store name,
      (∀ text net, parseNet text = some net → ' ' ∉ text) →
        ParsersAgree parseNet readPeers ttl gracefulRestart store name := by
  intro h
  have hprepend := (h parsePrivate noYaml none none [prependNode []] "n1"
    parsePrivate_no_blank).prepend
  have hnode : (parseNodeBgp parsePrivate noYaml
      (nodeAnnotations [prependNode []] "n1")).pathPrepend = none := by decide +kernel
  have hpolicy : (localNodeBgpPolicy parsePrivate [prependNode []] "n1").pathPrepend =
      some (64512, 1) := by decide +kernel
  rw [hnode, hpolicy] at hprepend
  cases hprepend

end KubeRouter.Agent
