/-
  The BGP settings of the local node, taken from its stored object
  (`kube-router-rs/src/routing_wire.rs`).

  The store is a list of node objects, of which the name and the annotations are read. A policy
  that cannot be read is replaced by the default one. `parseNet` is `from_str` of `IpNet`.

  Proved:
  * `importReject_eq_iff`: when a node rejects what its import annotation says.
  * `importReject_agree_iff`: when two nodes with the same import annotation both do.
  * `community_disables_reject`: a malformed community switches the rejection off.
-/
import KubeRouter.Routing.Annotations

namespace KubeRouter.Agent

open Routing Text

structure K8sNodeMeta where
  name : Option String := none
  annotations : Option Annotations := none
deriving DecidableEq, Repr

/-- The annotations of the first node of a name. -/
def nodeAnnotations (store : List K8sNodeMeta) (name : String) : Annotations :=
  ((store.find? fun n => n.name == some name).bind (·.annotations)).getD []

/-- The policy of a node, the default one where it cannot be read. -/
def policyOf (parseNet : List Char → Option IpNet) (anns : Annotations) : BgpPolicyConfig :=
  (BgpPolicyConfig.fromAnnotations parseNet (annotationText anns Keys.communities)
    (annotationText anns Keys.pathPrependAs) (annotationText anns Keys.pathPrependRepeat)
    (annotationText anns Keys.customImportReject)).toOption.getD {}

def localNodeBgpPolicy (parseNet : List Char → Option IpNet) (store : List K8sNodeMeta)
    (name : String) : BgpPolicyConfig := policyOf parseNet (nodeAnnotations store name)

/-- The peers that `build_controller` takes from the annotation; a malformed one is ignored. -/
def annotationPeers (readPeers : String → Except String (List PeerEntry)) (store : List K8sNodeMeta)
    (name : String) (ttl : Option UInt8) (gracefulRestart : Option Bgp.GracefulRestart) :
    List Bgp.PeerConfig :=
  match (nodeAnnotations store name).lookup Keys.peers with
  | none => []
  | some yaml =>
    match parsePeersAnnotation readPeers yaml ttl gracefulRestart with
    | .ok peers => peers
    | .error _ => []

/-! ## Import rejection -/

/-- The export annotations of a node can be read. -/
def ExportReadable (anns : Annotations) : Prop :=
  BgpPolicyConfig.ExportWellFormed (annotationText anns Keys.communities)
    (annotationText anns Keys.pathPrependAs) (annotationText anns Keys.pathPrependRepeat)

/-- No entry of the import annotation is a prefix. -/
def RejectsNothing (parseNet : List Char → Option IpNet) (anns : Annotations) : Prop :=
  ∀ s, annotationText anns Keys.customImportReject = some s →
    ∀ e ∈ commaEntries s, parseNet e = none

section Policy

variable (parseNet : List Char → Option IpNet) {anns : Annotations}

theorem policyOf_of_readable (h : ExportReadable anns) :
    communitiesOf (annotationText anns Keys.communities) =
      .ok (policyOf parseNet anns).communities ∧
      parsePrepend (annotationText anns Keys.pathPrependAs)
          (annotationText anns Keys.pathPrependRepeat) =
        .ok (policyOf parseNet anns).pathPrepend ∧
      (policyOf parseNet anns).importReject =
        ((annotationText anns Keys.customImportReject).map
          (parseImportReject parseNet)).getD [] := by
  obtain ⟨policy, hpolicy⟩ := (BgpPolicyConfig.fromAnnotations_isOk_iff parseNet
    (annotationText anns Keys.customImportReject)).mpr h
  have heq : policyOf parseNet anns = policy := by
    unfold policyOf
    rw [hpolicy]
    rfl
  rw [heq]
  exact BgpPolicyConfig.fromAnnotations_eq_ok_iff.mp hpolicy

theorem policyOf_of_not_readable (h : ¬ExportReadable anns) : policyOf parseNet anns = {} := by
  unfold policyOf
  cases hpolicy : BgpPolicyConfig.fromAnnotations parseNet (annotationText anns Keys.communities)
      (annotationText anns Keys.pathPrependAs) (annotationText anns Keys.pathPrependRepeat)
      (annotationText anns Keys.customImportReject) with
  | error e => rfl
  | ok policy =>
    exact absurd ((BgpPolicyConfig.fromAnnotations_isOk_iff _ _).mp ⟨policy, hpolicy⟩) h

theorem rejectsNothing_iff :
    RejectsNothing parseNet anns ↔
      ((annotationText anns Keys.customImportReject).map (parseImportReject parseNet)).getD [] =
        [] := by
  unfold RejectsNothing
  cases annotationText anns Keys.customImportReject with
  | none => simp
  | some s => simp [parseImportReject, List.filterMap_eq_nil_iff]

end Policy

/-- What the import annotation says. -/
def importAnnotation (parseNet : List Char → Option IpNet) (anns : Annotations) : List IpNet :=
  ((annotationText anns Keys.customImportReject).map (parseImportReject parseNet)).getD []

/-- A node rejects what its import annotation says if and only if that is nothing or its export
annotations can be read. -/
theorem importReject_eq_iff (parseNet : List Char → Option IpNet) (anns : Annotations) :
    (policyOf parseNet anns).importReject = importAnnotation parseNet anns ↔
      RejectsNothing parseNet anns ∨ ExportReadable anns := by
  rw [rejectsNothing_iff]
  by_cases h : ExportReadable anns
  · exact iff_of_true (policyOf_of_readable parseNet h).2.2 (Or.inr h)
  · rw [policyOf_of_not_readable parseNet h, or_iff_left h]
    exact eq_comm

section Pair

variable (parseNet : List Char → Option IpNet) {anns anns' : Annotations}
  (hsame : annotationText anns Keys.customImportReject =
    annotationText anns' Keys.customImportReject)

include hsame

/-- Two annotation maps with the same import annotation: both give what it says. -/
theorem importReject_kept_iff :
    (policyOf parseNet anns).importReject = (policyOf parseNet anns').importReject ∧
        (policyOf parseNet anns).importReject = importAnnotation parseNet anns ↔
      RejectsNothing parseNet anns ∨ (ExportReadable anns ∧ ExportReadable anns') := by
  have himport : importAnnotation parseNet anns = importAnnotation parseNet anns' := by
    unfold importAnnotation
    rw [hsame]
  have hnothing : RejectsNothing parseNet anns ↔ RejectsNothing parseNet anns' := by
    rw [rejectsNothing_iff, rejectsNothing_iff, hsame]
  have hown' := importReject_eq_iff parseNet anns'
  rw [← himport, ← hnothing] at hown'
  rw [or_and_left, ← importReject_eq_iff, ← hown']
  constructor
  · rintro ⟨heq, hval⟩
    exact ⟨hval, heq.symm.trans hval⟩
  · rintro ⟨hval, hval'⟩
    exact ⟨hval.trans hval'.symm, hval⟩

/-- Both give the same, be it nothing. -/
theorem importReject_same_iff :
    (policyOf parseNet anns).importReject = (policyOf parseNet anns').importReject ↔
      RejectsNothing parseNet anns ∨ (ExportReadable anns ↔ ExportReadable anns') := by
  by_cases h : ExportReadable anns
  · -- The first map gives what the annotation says.
    have hval := (importReject_eq_iff parseNet anns).mpr (Or.inr h)
    have hkept := importReject_kept_iff parseNet hsame
    rw [iff_true_left h]
    exact ⟨fun heq => (hkept.mp ⟨heq, hval⟩).imp_right And.right,
      fun hor => (hkept.mpr (hor.imp_right (And.intro h))).1⟩
  · rw [policyOf_of_not_readable parseNet h]
    by_cases h' : ExportReadable anns'
    · have hval' := (importReject_eq_iff parseNet anns').mpr (Or.inr h')
      rw [hval', or_iff_left (fun heq => h (heq.mpr h')), rejectsNothing_iff, hsame]
      exact eq_comm
    · rw [policyOf_of_not_readable parseNet h']
      exact iff_of_true rfl (Or.inr (iff_of_false h h'))

end Pair

/-- Two nodes with the same import annotation reject the same prefixes, those of the annotation, if
and only if the annotation has none or the export annotations of both can be read. Without the
annotation's own list, they agree also where the export annotations of neither can be read: both
then reject nothing. -/
theorem importReject_agree_iff (parseNet : List Char → Option IpNet)
    (store store' : List K8sNodeMeta)
    (name name' : String)
    (hsame : annotationText (nodeAnnotations store name) Keys.customImportReject =
      annotationText (nodeAnnotations store' name') Keys.customImportReject) :
    ((localNodeBgpPolicy parseNet store name).importReject =
          (localNodeBgpPolicy parseNet store' name').importReject ∧
        (localNodeBgpPolicy parseNet store name).importReject =
          importAnnotation parseNet (nodeAnnotations store name) ↔
      RejectsNothing parseNet (nodeAnnotations store name) ∨
        (ExportReadable (nodeAnnotations store name) ∧
          ExportReadable (nodeAnnotations store' name'))) ∧
    ((localNodeBgpPolicy parseNet store name).importReject =
        (localNodeBgpPolicy parseNet store' name').importReject ↔
      RejectsNothing parseNet (nodeAnnotations store name) ∨
        (ExportReadable (nodeAnnotations store name) ↔
          ExportReadable (nodeAnnotations store' name'))) :=
  ⟨importReject_kept_iff parseNet hsame, importReject_same_iff parseNet hsame⟩

section Sample

theorem privateNet_le : 8 ≤ (IpAddr.ofOctets 10 0 0 0).bits := by decide

def privateNet : IpNet := ⟨.ofOctets 10 0 0 0, 8, privateNet_le⟩

/-- `from_str` of `IpNet` on the texts below. -/
def parsePrivate (text : List Char) : Option IpNet :=
  if text = "10.0.0.0/8".toList then some privateNet else none

/-- A node that rejects a prefix and adds communities. -/
def communityNode (communities : String) : K8sNodeMeta where
  name := some "n1"
  annotations := some [(Keys.communities, communities), (Keys.customImportReject, "10.0.0.0/8")]

end Sample

/-- Two nodes with well-formed communities reject the prefix of the annotation. -/
theorem communities_keep_reject :
    (localNodeBgpPolicy parsePrivate [communityNode "65000:1"] "n1").importReject =
        (localNodeBgpPolicy parsePrivate [communityNode "65000:2,7"] "n1").importReject ∧
      (localNodeBgpPolicy parsePrivate [communityNode "65000:1"] "n1").importReject =
        importAnnotation parsePrivate (nodeAnnotations [communityNode "65000:1"] "n1") := by
  refine (importReject_agree_iff parsePrivate [communityNode "65000:1"]
    [communityNode "65000:2,7"] "n1" "n1" (by decide)).1.mpr (.inr ⟨?_, ?_⟩)
  · exact (BgpPolicyConfig.fromAnnotations_isOk_iff parsePrivate none).mp
      ⟨⟨[4259840001], none, []⟩, by decide +kernel⟩
  · exact (BgpPolicyConfig.fromAnnotations_isOk_iff parsePrivate none).mp
      ⟨⟨[4259840002, 7], none, []⟩, by decide +kernel⟩

/-- A well-known community, which cannot be read as a number, switches the rejection off. -/
theorem community_disables_reject :
    ¬∀ parseNet store store' name name',
      annotationText (nodeAnnotations store name) Keys.customImportReject =
        annotationText (nodeAnnotations store' name') Keys.customImportReject →
      (localNodeBgpPolicy parseNet store name).importReject =
        (localNodeBgpPolicy parseNet store' name').importReject := by
  intro h
  have hsame := h parsePrivate [communityNode "65000:1"] [communityNode "no-export"] "n1" "n1"
    (by decide)
  have hreject : (localNodeBgpPolicy parsePrivate [communityNode "65000:1"] "n1").importReject =
      [privateNet] := by decide +kernel
  have hnone : (localNodeBgpPolicy parsePrivate [communityNode "no-export"] "n1").importReject =
      [] := by decide +kernel
  rw [hreject, hnone] at hsame
  cases hsame

end KubeRouter.Agent
