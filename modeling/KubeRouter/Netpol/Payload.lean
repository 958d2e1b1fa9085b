/-
  The `ipset restore` payloads of a sync pass, line by line against the rules of `ipset`.

  Rules. A set name, that of a TMP set included, has at most 31 characters; a `hash:net` entry
  has a prefix length of at least 1; an entry has the family its set was created with.
  `Accepted` states the three of a payload as text, without a kernel state.

  Where names and entries come from. A policy's sets are named by a 9-character prefix and a
  16-character hash, so `TMP-` still fits. Addresses are filtered by family before they become
  entries. An ipBlock is not checked: its CIDR and its exceptions become entries as they are,
  and a block for "everywhere" has length 0. The IPv6 set of the default-deny gate has a name
  of 28 characters, and its TMP set one of 32.

  One rejected payload ends the pass for every policy and family behind it, since the source
  propagates the error with `?`.

  Proved:
  * `accepted_iff`: the payload of a set is accepted when its TMP name and its entries fit.
  * `ipsets_accepted_iff`: exactly when every set of a plan is.
  * `pass_accepted_iff`, `pass_ok`, `pass_fails`: the same over a pass, and what `reconcile`
    then returns.
-/
import KubeRouter.Netpol.Install

namespace KubeRouter.Netpol

/-! ## What `ipset` accepts -/

/-- The set names on a line. -/
def IpsetCmd.names : IpsetCmd → List String
  | create set _ _ | flush set | addIp set _ | addNet set _ _ | destroy set => [set]
  | swap a b => [a, b]

/-- Every line of the payload follows the rules of `ipset`. -/
structure Accepted (payload : List IpsetCmd) : Prop where
  names : ∀ cmd ∈ payload, ∀ n ∈ cmd.names, n.length ≤ maxSetName
  lengths : ∀ set net excluded, .addNet set net excluded ∈ payload → 1 ≤ net.prefixLen
  ips : ∀ set ip typ fam, .addIp set ip ∈ payload → .create set typ fam ∈ payload → ip.family = fam
  nets : ∀ set net excluded typ fam, .addNet set net excluded ∈ payload →
    .create set typ fam ∈ payload → net.family = fam

section Payload

variable {set : String} {fam : IpFamily} {body : SetBody}

theorem mem_payload {cmd : IpsetCmd} : cmd ∈ buildRestorePayload set fam body ↔
    cmd = .create set body.setType fam ∨ cmd = .create (tmpName set) body.setType fam ∨
    cmd = .flush (tmpName set) ∨ cmd ∈ body.addCmds (tmpName set) ∨
    cmd = .swap (tmpName set) set ∨ cmd = .destroy (tmpName set) := by
  simp only [buildRestorePayload, List.mem_append, List.mem_cons, List.not_mem_nil, or_false]
  tauto

/-- The `create` lines of a payload: the set and its TMP set, of one type and family. -/
theorem create_mem_payload {n : String} {typ : SetType} {f : IpFamily} :
    IpsetCmd.create n typ f ∈ buildRestorePayload set fam body ↔
      (n = set ∨ n = tmpName set) ∧ typ = body.setType ∧ f = fam := by
  have hadd : IpsetCmd.create n typ f ∉ body.addCmds (tmpName set) := by
    cases body <;> simp [SetBody.addCmds]
  rw [mem_payload]
  simp only [hadd, IpsetCmd.create.injEq, reduceCtorEq, or_false]
  tauto

theorem addIp_mem_payload {n : String} {ip : IpAddr} :
    IpsetCmd.addIp n ip ∈ buildRestorePayload set fam body ↔
      n = tmpName set ∧ ∃ ips, body = .hashIp ips ∧ ip ∈ ips := by
  rw [mem_payload]
  cases body <;> simp [SetBody.addCmds, and_comm, eq_comm]

theorem addNet_mem_payload {n : String} {net : IpNet} {excluded : Bool} :
    IpsetCmd.addNet n net excluded ∈ buildRestorePayload set fam body ↔
      n = tmpName set ∧ ∃ nets, body = .hashNet nets ∧ (net, excluded) ∈ nets := by
  have hadd : IpsetCmd.addNet n net excluded ∈ body.addCmds (tmpName set) ↔
      n = tmpName set ∧ ∃ nets, body = .hashNet nets ∧ (net, excluded) ∈ nets := by
    cases body with
    | hashIp ips => simp [SetBody.addCmds]
    | hashNet nets =>
      simp only [SetBody.addCmds, List.mem_map, IpsetCmd.addNet.injEq, SetBody.hashNet.injEq]
      constructor
      · rintro ⟨e, he, rfl, rfl, rfl⟩
        exact ⟨rfl, nets, rfl, he⟩
      · rintro ⟨rfl, nets', rfl, he⟩
        exact ⟨_, he, rfl, rfl, rfl⟩
  rw [mem_payload, hadd]
  simp

theorem name_mem_payload {cmd : IpsetCmd} (h : cmd ∈ buildRestorePayload set fam body) {n : String}
    (hn : n ∈ cmd.names) : n = set ∨ n = tmpName set := by
  cases cmd with
  | create m typ f =>
    rw [List.mem_singleton.mp hn]
    exact (create_mem_payload.mp h).1
  | addIp m ip =>
    rw [List.mem_singleton.mp hn]
    exact Or.inr (addIp_mem_payload.mp h).1
  | addNet m net e =>
    rw [List.mem_singleton.mp hn]
    exact Or.inr (addNet_mem_payload.mp h).1
  | flush m =>
    have hm : m = tmpName set := by cases body <;> simpa [mem_payload, SetBody.addCmds] using h
    exact Or.inr ((List.mem_singleton.mp hn).trans hm)
  | destroy m =>
    have hm : m = tmpName set := by cases body <;> simpa [mem_payload, SetBody.addCmds] using h
    exact Or.inr ((List.mem_singleton.mp hn).trans hm)
  | swap a b =>
    have hm : a = tmpName set ∧ b = set := by
      cases body <;> simpa [mem_payload, SetBody.addCmds] using h
    simp only [IpsetCmd.names, List.mem_cons, List.not_mem_nil, or_false, hm.1, hm.2] at hn
    exact hn.symm

theorem length_le_tmp (set : String) : set.length ≤ (tmpName set).length := by
  rw [tmpName, String.length_append]
  exact Nat.le_add_left ..

/-- The payload of one set: the TMP name is the longer one, and the entries stand on `add` lines
    of the TMP set. -/
theorem accepted_iff : Accepted (buildRestorePayload set fam body) ↔
    (tmpName set).length ≤ maxSetName ∧ body.Fits fam := by
  have htmp : IpsetCmd.create (tmpName set) body.setType fam ∈ buildRestorePayload set fam body :=
    create_mem_payload.mpr ⟨Or.inr rfl, rfl, rfl⟩
  constructor
  · intro h
    refine ⟨h.names _ htmp _ (List.mem_singleton_self _), ?_⟩
    cases hb : body with
    | hashIp ips =>
      intro ip hip
      exact h.ips _ ip _ _ (addIp_mem_payload.mpr ⟨rfl, ips, hb, hip⟩) htmp
    | hashNet nets =>
      intro e he
      have hadd : IpsetCmd.addNet (tmpName set) e.1 e.2 ∈ buildRestorePayload set fam body :=
        addNet_mem_payload.mpr ⟨rfl, nets, hb, he⟩
      exact ⟨h.nets _ _ _ _ _ hadd htmp, h.lengths _ _ _ hadd⟩
  · rintro ⟨hname, hfits⟩
    have hnet : ∀ n net e, IpsetCmd.addNet n net e ∈ buildRestorePayload set fam body →
        net.family = fam ∧ 1 ≤ net.prefixLen := by
      intro n net e h
      obtain ⟨-, nets, rfl, hm⟩ := addNet_mem_payload.mp h
      exact hfits _ hm
    refine ⟨?_, fun n net e h => (hnet n net e h).2, ?_, ?_⟩
    · intro cmd h n hn
      rcases name_mem_payload h hn with rfl | rfl
      · exact (length_le_tmp n).trans hname
      · exact hname
    · intro n ip typ f hadd hc
      obtain ⟨-, ips, rfl, hm⟩ := addIp_mem_payload.mp hadd
      rw [(create_mem_payload.mp hc).2.2]
      exact hfits ip hm
    · intro n net e typ f hadd hc
      rw [(create_mem_payload.mp hc).2.2]
      exact (hnet n net e hadd).1

end Payload

/-! ## The sets of a plan -/

/-- `ipset` takes the entries of an ipBlock peer into a set of the family. A block of the other
    family is not in the set at all. -/
def Peer.Fits (family : IpFamily) : Peer → Prop
  | selector _ _ => True
  | ipBlock cidr except => cidr.family = family →
      1 ≤ cidr.prefixLen ∧ ∀ ex ∈ except, ex.family = family ∧ 1 ≤ ex.prefixLen

/-- No set of the family's plan offends: the default-deny gate is not the IPv6 one, and the
    ipBlocks of every direction a policy covers fit. -/
structure FamilyFits (cfg : Config) (w : PolicyWorld) (family : IpFamily) : Prop where
  localPods : ¬(cfg.defaultDeny = true ∧ family = .V6)
  blocks : ∀ pol ∈ w.policies, ∀ dir : Direction, dir.covers pol = true →
    ∀ rule ∈ dir.rules pol, ∀ peer ∈ rule.peers, peer.Fits family

section Sets

variable {cfg : Config} {w : PolicyWorld} {family : IpFamily}

theorem namedPortGroups_family {recv : List Pod} {protocol name : String}
    {g : UInt16 × List IpAddr} (hg : g ∈ namedPortGroups family recv protocol name) :
    ∀ ip ∈ g.2, ip.family = family := by
  intro ip hip
  obtain ⟨pod, -, hip, -⟩ := (mem_group hg).mp hip
  exact (mem_podFamilyIps.mp hip).2

theorem netEntries_fits_iff {peers : List Peer} {pods : List Pod} {namespaces : List Namespace}
    {ns : String} :
    (∀ e ∈ (resolvePeers peers pods namespaces ns family).netEntries,
      e.1.family = family ∧ 1 ≤ e.1.prefixLen) ↔ ∀ peer ∈ peers, peer.Fits family := by
  cases peers with
  | nil => simp [resolvePeers]
  | cons first rest =>
    rw [resolvePeers, if_neg (by simp)]
    simp only [List.mem_flatMap]
    constructor
    · intro h peer hp
      cases peer with
      | selector nsSel podSel => trivial
      | ipBlock cidr except =>
        intro hfam
        have hentries : Peer.netEntries (.ipBlock cidr except) family =
            (cidr, false) :: except.map (·, true) := by simp [Peer.netEntries, hfam]
        refine ⟨(h (cidr, false) ⟨_, hp, by simp [hentries]⟩).2, ?_⟩
        intro ex hex
        exact h (ex, true) ⟨_, hp, by simp [hentries, hex]⟩
    · rintro h e ⟨peer, hp, he⟩
      cases peer with
      | selector nsSel podSel => exact absurd he List.not_mem_nil
      | ipBlock cidr except =>
        simp only [Peer.netEntries, beq_iff_eq] at he
        split at he
        · next hfam =>
          obtain ⟨hcidr, hexc⟩ := h _ hp hfam
          rcases List.mem_cons.mp he with rfl | he
          · exact ⟨hfam, hcidr⟩
          · obtain ⟨ex, hex, rfl⟩ := List.mem_map.mp he
            exact hexc ex hex
        · exact absurd he List.not_mem_nil

theorem ipEntries_family {peers : List Peer} {pods : List Pod} {namespaces : List Namespace}
    {ns : String} {ip : IpAddr}
    (h : ip ∈ (resolvePeers peers pods namespaces ns family).ipEntries) :
    ip.family = family := by
  unfold resolvePeers at h
  split at h
  · exact absurd h List.not_mem_nil
  · obtain ⟨peer, -, h⟩ := List.mem_flatMap.mp (List.mem_dedup.mp h)
    cases peer with
    | selector nsSel podSel =>
      obtain ⟨pod, -, h⟩ := List.mem_flatMap.mp h
      exact (mem_podFamilyIps.mp h).2
    | ipBlock cidr except => exact absurd h List.not_mem_nil

/-- The entries of a policy's set fit as soon as the ipBlocks of the covered direction do. -/
theorem Pushed.fits {dir : Direction} {pol : NetworkPolicy} {k : SetKind} {body : SetBody}
    (h : Pushed w family dir pol k body)
    (hblocks : ∀ rule ∈ dir.rules pol, ∀ peer ∈ rule.peers, peer.Fits family) :
    body.Fits family := by
  cases h with
  | target =>
    intro ip hip
    obtain ⟨pod, -, hip⟩ := List.mem_flatMap.mp hip
    exact (mem_podFamilyIps.mp hip).2
  | pod rule idx hr he => exact fun ip hip => ipEntries_family hip
  | ipblock rule idx hr he =>
    exact netEntries_fits_iff.mpr (hblocks rule (List.fst_mem_of_mem_zipIdx hr))
  | namedPort rule idx port name hn ep g hg =>
    intro ip hip
    exact namedPortGroups_family (List.mem_of_getElem? hg) ip (List.mem_dedup.mp hip)

/-- `TMP-`, a prefix of 9 characters and the hash make 29. -/
theorem SetKind.tmp_length (hlen : ∀ s, (cfg.hash16 s).length = hashLen) (pol : NetworkPolicy)
    (k : SetKind) : (tmpName (k.name cfg family pol)).length ≤ maxSetName := by
  have h4 : "TMP-".length = 4 := by decide
  have h9 : k.side.length = 9 := by
    rcases k.side_eq with hs | hs <;> rw [hs] <;> decide
  rw [k.name_eq, tmpName, String.length_append, String.length_append, hlen, h4, h9]
  decide

/-- 26 characters for IPv4, 32 for IPv6. -/
theorem tmp_localPodsSet {f : IpFamily} :
    (tmpName (localPodsSet f)).length ≤ maxSetName ↔ f = .V4 := by
  cases f <;> decide

/-- A plan's payloads are accepted exactly when nothing of the family offends. -/
theorem ipsets_accepted_iff (hlen : ∀ s, (cfg.hash16 s).length = hashLen) :
    (∀ s ∈ (buildPlan cfg w family).ipsets,
      Accepted (buildRestorePayload s.name s.family s.body)) ↔ FamilyFits cfg w family := by
  simp only [accepted_iff]
  constructor
  · intro h
    refine ⟨?_, ?_⟩
    · rintro ⟨hdeny, rfl⟩
      exact absurd (tmp_localPodsSet.mp (h _ (localPods_planned hdeny)).1) (by decide)
    · intro pol hp dir hcov rule hr
      obtain ⟨idx, hidx, hget⟩ := List.getElem_of_mem hr
      have hzip : (rule, idx) ∈ (dir.rules pol).zipIdx := by
        rw [List.mem_zipIdx_iff_getElem?, List.getElem?_eq_getElem hidx, hget]
      have hnets : ∀ e ∈ (resolvePeers rule.peers w.pods w.namespaces pol.ns family).netEntries,
          e.1.family = family ∧ 1 ≤ e.1.prefixLen := by
        intro e he
        exact (h _ (pushed_mem hp hcov (.ipblock rule idx hzip (List.ne_nil_of_mem he)))).2 e he
      exact netEntries_fits_iff.mp hnets
  · intro h s hs
    rcases mem_buildPlan_ipsets.mp hs with ⟨pol, hp, dir, hcov, k, body, hk, rfl⟩ | ⟨hdeny, rfl⟩
    · exact ⟨k.tmp_length hlen pol, hk.fits (h.blocks pol hp dir hcov)⟩
    · have hv4 : family = .V4 := by
        cases family with
        | V4 => rfl
        | V6 => exact absurd ⟨hdeny, rfl⟩ h.localPods
      subst hv4
      refine ⟨tmp_localPodsSet.mpr rfl, ?_⟩
      intro ip hip
      obtain ⟨pod, -, hip⟩ := List.mem_flatMap.mp hip
      exact (mem_podFamilyIps.mp hip).2

end Sets

/-! ## A pass -/

section Pass

variable {cfg : Config} {w : PolicyWorld} {families : List IpFamily} {k k' : Kernel}

/-- The sets a pass restores, family by family. -/
def passSets (cfg : Config) (families : List IpFamily) (w : PolicyWorld) : List IpsetPlan :=
  families.flatMap fun f => (buildPlan cfg w f).ipsets

theorem restore_mem_passCalls {payload : List IpsetCmd} :
    ToolCall.ipsetRestore payload ∈ passCalls cfg families w ↔
      ∃ s ∈ passSets cfg families w, payload = buildRestorePayload s.name s.family s.body := by
  have hfam : ∀ f, ToolCall.ipsetRestore payload ∈ familyCalls cfg w f ↔
      ∃ s ∈ (buildPlan cfg w f).ipsets, payload = buildRestorePayload s.name s.family s.body := by
    intro f
    simp [familyCalls, eq_comm]
  simp only [passCalls, passSets, List.mem_flatMap, hfam]
  constructor
  · rintro ⟨f, hf, s, hs, rfl⟩
    exact ⟨s, ⟨f, hf, hs⟩, rfl⟩
  · rintro ⟨s, ⟨f, hf, hs⟩, rfl⟩
    exact ⟨f, hf, s, hs, rfl⟩

theorem pass_accepted_iff (hlen : ∀ s, (cfg.hash16 s).length = hashLen) :
    (∀ payload, ToolCall.ipsetRestore payload ∈ passCalls cfg families w → Accepted payload) ↔
      ∀ f ∈ families, FamilyFits cfg w f := by
  constructor
  · intro h f hf
    refine (ipsets_accepted_iff hlen).mp ?_
    intro s hs
    exact h _ (restore_mem_passCalls.mpr ⟨s, List.mem_flatMap.mpr ⟨f, hf, hs⟩, rfl⟩)
  · intro h payload hp
    obtain ⟨s, hs, rfl⟩ := restore_mem_passCalls.mp hp
    obtain ⟨f, hf, hs⟩ := List.mem_flatMap.mp hs
    exact (ipsets_accepted_iff hlen).mpr (h f hf) s hs

/-- No two sets of the pass, and no set of the kernel under one of their names or TMP names,
    differ in family or type. -/
structure Compatible (sets : List IpsetPlan) (t : SetTable) : Prop where
  planned : ∀ s ∈ sets, ∀ u ∈ sets, s.name = u.name →
    s.family = u.family ∧ s.body.setType = u.body.setType
  live : ∀ s ∈ sets, ∀ x, t s.name = some x →
    x.family = s.family ∧ x.body.setType = s.body.setType
  tmp : ∀ s ∈ sets, ∀ x, t (tmpName s.name) = some x →
    x.family = s.family ∧ x.body.setType = s.body.setType

theorem passSets_ne_tmp {s : IpsetPlan} (h : s ∈ passSets cfg families w) (x : String) :
    s.name ≠ tmpName x := by
  obtain ⟨f, -, hs⟩ := List.mem_flatMap.mp h
  exact planned_ne_tmp hs x

theorem canCreate_of {t : SetTable} {n : String} {typ : SetType} {fam : IpFamily}
    (hn : n.length ≤ maxSetName)
    (ht : ∀ x, t n = some x → x.family = fam ∧ x.body.setType = typ) : CanCreate t n typ fam := by
  unfold CanCreate
  cases h : t n with
  | none => exact hn
  | some x => exact ht x h

theorem Compatible.restored {t : SetTable} {s : IpsetPlan}
    (hc : Compatible (passSets cfg families w) t) (hs : s ∈ passSets cfg families w) :
    Compatible (passSets cfg families w) (restored t s.name s.family s.body) := by
  refine ⟨hc.planned, ?_, ?_⟩
  · intro u hu x hx
    rcases restored_cases hx with ⟨hn, rfl⟩ | ⟨-, -, hx⟩
    · exact hc.planned s hs u hu hn.symm
    · exact hc.live u hu x hx
  · intro u hu x hx
    rcases restored_cases hx with ⟨hn, -⟩ | ⟨-, -, hx⟩
    · exact absurd hn.symm (passSets_ne_tmp hs u.name)
    · exact hc.tmp u hu x hx

theorem setCalls_ok (sets : List IpsetPlan) (hsub : ∀ s ∈ sets, s ∈ passSets cfg families w)
    (hacc : ∀ s ∈ sets, Accepted (buildRestorePayload s.name s.family s.body))
    (hc : Compatible (passSets cfg families w) k.sets) :
    ∃ m, Ran (setCalls sets) k m ∧ Compatible (passSets cfg families w) m.sets := by
  induction sets generalizing k with
  | nil => exact ⟨k, ran_nil.mpr rfl, hc⟩
  | cons s sets ih =>
    have hs := hsub s List.mem_cons_self
    obtain ⟨hname, hfits⟩ := accepted_iff.mp (hacc s List.mem_cons_self)
    have hlive := canCreate_of ((length_le_tmp s.name).trans hname) (hc.live s hs)
    have hexec := restore_call_exec.mpr
      ⟨hlive, canCreate_of hname (hc.tmp s hs), hfits, (rfl : _ = { k with sets := _ })⟩
    obtain ⟨m, hm, hcm⟩ := ih (fun u hu => hsub u (List.mem_cons_of_mem _ hu))
      (fun u hu => hacc u (List.mem_cons_of_mem _ hu))
      (k := { k with sets := restored k.sets s.name s.family s.body }) (hc.restored hs)
    exact ⟨m, ran_cons.mpr ⟨_, hexec, hm⟩, hcm⟩

theorem passCalls_ok (hlen : ∀ s, (cfg.hash16 s).length = hashLen) (fs : List IpFamily)
    (hsub : ∀ f ∈ fs, f ∈ families) (hfits : ∀ f ∈ fs, FamilyFits cfg w f)
    (hc : Compatible (passSets cfg families w) k.sets) : ∃ m, Ran (passCalls cfg fs w) k m := by
  induction fs generalizing k with
  | nil => exact ⟨k, ran_nil.mpr rfl⟩
  | cons f fs ih =>
    obtain ⟨m, hm, hcm⟩ := setCalls_ok (buildPlan cfg w f).ipsets
      (fun s hs => List.mem_flatMap.mpr ⟨f, hsub f List.mem_cons_self, hs⟩)
      ((ipsets_accepted_iff hlen).mpr (hfits f List.mem_cons_self)) hc
    obtain ⟨n, hn⟩ := docCalls_ok (sets_in_place hm)
    -- The document and the jumps leave the sets alone.
    rw [← (ran_docCalls hn).1] at hcm
    obtain ⟨o, ho⟩ := ih (fun g hg => hsub g (List.mem_cons_of_mem _ hg))
      (fun g hg => hfits g (List.mem_cons_of_mem _ hg)) hcm
    refine ⟨o, ?_⟩
    rw [passCalls, List.flatMap_cons, ran_append, familyCalls_eq]
    exact ⟨n, ran_append.mpr ⟨m, hm, hn⟩, ho⟩

/-- Where nothing offends and no names clash, the pass goes through. -/
theorem pass_ok (hlen : ∀ s, (cfg.hash16 s).length = hashLen)
    (hfits : ∀ f ∈ families, FamilyFits cfg w f)
    (hc : Compatible (passSets cfg families w) k.sets) : (reconcile cfg families w k).2 = true := by
  obtain ⟨m, hm⟩ := passCalls_ok hlen families (fun _ hf => hf) hfits hc
  rw [reconcile, hm]

theorem ran_setCalls_accepted {sets : List IpsetPlan} (hfit : NamesFit k.sets)
    (h : Ran (setCalls sets) k k') :
    ∀ s ∈ sets, Accepted (buildRestorePayload s.name s.family s.body) := by
  induction sets generalizing k with
  | nil => exact fun s hs => absurd hs List.not_mem_nil
  | cons s sets ih =>
    obtain ⟨m, hm, hrest⟩ := ran_cons.mp h
    obtain ⟨hc, hc', hfits, rfl⟩ := restore_call_exec.mp hm
    intro u hu
    rcases List.mem_cons.mp hu with rfl | hu
    · exact accepted_iff.mpr ⟨hc'.length_le hfit, hfits⟩
    · exact ih (hfit.restored (hc.length_le hfit)) hrest u hu

theorem ran_passCalls_fits (hlen : ∀ s, (cfg.hash16 s).length = hashLen) (hfit : NamesFit k.sets)
    (h : Ran (passCalls cfg families w) k k') : ∀ f ∈ families, FamilyFits cfg w f := by
  induction families generalizing k with
  | nil => exact fun f hf => absurd hf List.not_mem_nil
  | cons f fs ih =>
    rw [passCalls, List.flatMap_cons, ran_append] at h
    obtain ⟨m, hm, hrest⟩ := h
    have hfit' : NamesFit m.sets := (family_within hfit (fun n s h => ⟨s, h, rfl, rfl⟩) hm).1
    rw [familyCalls_eq, ran_append] at hm
    obtain ⟨n, hn, -⟩ := hm
    intro g hg
    rcases List.mem_cons.mp hg with rfl | hg
    · exact (ipsets_accepted_iff hlen).mp (ran_setCalls_accepted hfit hn)
    · exact ih hfit' hrest g hg

/-- One offending set anywhere and the pass returns `Err`, on every kernel. -/
theorem pass_fails (hlen : ∀ s, (cfg.hash16 s).length = hashLen)
    (hbad : ¬∀ f ∈ families, FamilyFits cfg w f) (hfit : NamesFit k.sets) :
    (reconcile cfg families w k).2 = false := by
  rw [Bool.eq_false_iff]
  intro hok
  exact hbad (ran_passCalls_fits hlen hfit (ran_of_ok hok))

/-- Every payload of a pass is accepted exactly when nothing of a configured family offends;
    then the pass goes through on every kernel without a clash of names, and otherwise on no
    kernel. -/
theorem restores_accepted_iff (cfg : Config) (hlen : ∀ s, (cfg.hash16 s).length = hashLen)
    (families : List IpFamily) (w : PolicyWorld) :
    ((∀ payload, ToolCall.ipsetRestore payload ∈ passCalls cfg families w → Accepted payload) ↔
      ∀ f ∈ families, FamilyFits cfg w f) ∧
    ((∀ f ∈ families, FamilyFits cfg w f) → ∀ k : Kernel,
      Compatible (passSets cfg families w) k.sets → (reconcile cfg families w k).2 = true) ∧
    ((¬∀ f ∈ families, FamilyFits cfg w f) → ∀ k : Kernel,
      NamesFit k.sets → (reconcile cfg families w k).2 = false) :=
  ⟨pass_accepted_iff hlen, fun hfits _ hc => pass_ok hlen hfits hc,
    fun hbad _ hfit => pass_fails hlen hbad hfit⟩

theorem frontWorld_fits : ∀ f ∈ [IpFamily.V4], FamilyFits sampleConfig frontWorld f := by
  intro f hf
  rw [List.mem_singleton.mp hf]
  refine ⟨by decide, ?_⟩
  intro pol hp dir hcov rule hr peer hpeer
  rw [List.mem_singleton.mp hp] at hcov hr
  cases dir with
  | ingress =>
    rw [List.mem_singleton.mp hr] at hpeer
    rw [List.mem_singleton.mp hpeer]
    trivial
  | egress => exact absurd hcov (by decide)

/-- The sample shop has selector peers only. -/
theorem frontWorld_restores :
    (∀ payload, ToolCall.ipsetRestore payload ∈ passCalls sampleConfig [.V4] frontWorld →
      Accepted payload) ∧ (reconcile sampleConfig [.V4] frontWorld .clean).2 = true := by
  obtain ⟨hacc, hok, -⟩ := restores_accepted_iff sampleConfig sampleHash_length [.V4] frontWorld
  refine ⟨hacc.mpr frontWorld_fits, hok frontWorld_fits .clean ⟨by decide +kernel, ?_, ?_⟩⟩
  · exact fun s _ x hx => absurd hx (by simp [Kernel.clean])
  · exact fun s _ x hx => absurd hx (by simp [Kernel.clean])

end Pass

/-! ## Objects the API server admits -/

/-- The API server admits exceptions that are proper subnets of their block. -/
def Peer.ApiValid : Peer → Prop
  | selector _ _ => True
  | ipBlock cidr except => ∀ ex ∈ except,
      ex.family = cidr.family ∧ cidr.prefixLen < ex.prefixLen ∧ cidr.contains ex.addr = true

/-- Of an admitted ipBlock only the length of the block itself decides. -/
theorem Peer.ApiValid.fits_iff {family : IpFamily} {cidr : IpNet} {except : List IpNet}
    (h : (Peer.ipBlock cidr except).ApiValid) :
    (Peer.ipBlock cidr except).Fits family ↔ (cidr.family = family → 1 ≤ cidr.prefixLen) := by
  refine forall_congr' fun hfam => and_iff_left ?_
  intro ex hex
  obtain ⟨hf, hl, -⟩ := h ex hex
  exact ⟨hf.trans hfam, Nat.one_le_of_lt hl⟩

/-- `sampleHash` with the ipBlock set of `front`'s first rule. -/
def blockHash (key : String) : String :=
  match key with
  | "shopfrontingressrule0IPv4ipblock" => "VXRMY2G7WDPORR7V"
  | key => sampleHash key

def blockConfig : Config := { sampleConfig with hash16 := blockHash }

/-- Ingress from everywhere. -/
def everywhere : Peer := .ipBlock ⟨.ofOctets 0 0 0 0, 0, by decide⟩ []

def everywhereWorld : PolicyWorld :=
  { frontWorld with policies := [{ front with ingress := [⟨[everywhere], []⟩] }] }

/-- A policy that admits 0.0.0.0/0 aborts the pass; so does the IPv6 default-deny gate, with no
    policy at all. -/
theorem everywhere_rejected :
    everywhere.ApiValid ∧
    (∃ payload, ToolCall.ipsetRestore payload ∈ passCalls blockConfig [.V4] everywhereWorld ∧
      ¬Accepted payload) ∧
    (reconcile blockConfig [.V4] everywhereWorld .clean).2 = false ∧
    (∃ payload, ToolCall.ipsetRestore payload ∈
      passCalls { blockConfig with defaultDeny := true } [.V6] {} ∧ ¬Accepted payload) := by
  refine ⟨fun ex hex => absurd hex List.not_mem_nil, ⟨buildRestorePayload
    "KUBE-SRC-VXRMY2G7WDPORR7V" .V4
      (.hashNet [(⟨.ofOctets 0 0 0 0, 0, by decide⟩, false)]), ?_, ?_⟩,
    by decide +kernel, ⟨buildRestorePayload (localPodsSet .V6) .V6 (.hashIp []), ?_, ?_⟩⟩
  · exact restore_mem_passCalls.mpr
      ⟨⟨"KUBE-SRC-VXRMY2G7WDPORR7V", .V4, .hashNet [(⟨.ofOctets 0 0 0 0, 0, by decide⟩, false)]⟩,
        by decide +kernel, rfl⟩
  · intro h
    exact absurd ((accepted_iff.mp h).2 _ List.mem_cons_self).2 (by decide)
  · exact restore_mem_passCalls.mpr
      ⟨⟨localPodsSet .V6, .V6, .hashIp []⟩, by decide +kernel, rfl⟩
  · intro h
    exact absurd (tmp_localPodsSet.mp (accepted_iff.mp h).1) (by decide)

end KubeRouter.Netpol
