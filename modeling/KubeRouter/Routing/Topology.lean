/-
  The iBGP sessions of a whole cluster (`routing/src/peers.rs`, module doc).

  Every node runs `derive_ibgp_peers` for itself over the same list of nodes. A session comes up
  only when both ends list each other, so what matters is a property of all pairs of runs: two
  nodes either share a session, or some reflector server has a session with both of them and
  treats both as its clients. A node with both reflector annotations counts as a server.

  Proved:
  * `lists_iff`: one node lists another exactly when the role rule `shouldPeer` says so.
  * `ibgp_connected`: with a full mesh or one ASN, and a server wherever there is a client, any
    two nodes are connected in this sense, no node lists itself or a neighbor twice, and no
    server is marked as a client.
-/
import KubeRouter.Routing.Peers

namespace KubeRouter.Routing

variable {nodes : List NodeBgp} {fullMesh : Bool}

/-! ## One end of a session -/

/-- The peers node `a` derives for itself, with iBGP enabled. -/
def peersOf (nodes : List NodeBgp) (fullMesh : Bool) (a : NodeBgp) : List BgpPeer :=
  deriveIbgpPeers a nodes fullMesh true

/-- Node `a` has a peer at the address of `b`. -/
def Lists (nodes : List NodeBgp) (fullMesh : Bool) (a b : NodeBgp) : Prop :=
  ∃ p ∈ peersOf nodes fullMesh a, p.neighbor = b.ip

/-- Node `s` treats `b` as a client of its own cluster. -/
def MarksClient (nodes : List NodeBgp) (fullMesh : Bool) (s b : NodeBgp) : Prop :=
  ∃ p ∈ peersOf nodes fullMesh s, p.neighbor = b.ip ∧ p.rrClient = true ∧
    p.rrClusterId = s.rrServer

/-- Both ends list each other. -/
def Session (nodes : List NodeBgp) (fullMesh : Bool) (a b : NodeBgp) : Prop :=
  Lists nodes fullMesh a b ∧ Lists nodes fullMesh b a

/-- Server `s` has a session with each of the two nodes and reflects between them. -/
structure Reflects (nodes : List NodeBgp) (fullMesh : Bool) (s a b : NodeBgp) : Prop where
  server : s.rrServer.isSome = true
  left : Session nodes fullMesh s a
  right : Session nodes fullMesh s b
  marksLeft : MarksClient nodes fullMesh s a
  marksRight : MarksClient nodes fullMesh s b

/-- A snapshot whose nodes can be told apart. -/
structure NodesApart (nodes : List NodeBgp) : Prop where
  names : nodes.Pairwise fun a b => a.name ≠ b.name
  ips : nodes.Pairwise fun a b => a.ip ≠ b.ip

theorem NodesApart.eq_of_ip (h : NodesApart nodes) {a b : NodeBgp} (ha : a ∈ nodes) (hb : b ∈ nodes)
    (hip : a.ip = b.ip) : a = b := by
  by_contra hne
  have : Std.Symm fun x y : NodeBgp => x.ip ≠ y.ip := ⟨fun _ _ hxy => hxy.symm⟩
  exact List.Pairwise.forall h.ips ha hb hne hip

theorem NodesApart.name_ne (h : NodesApart nodes) {a b : NodeBgp} (ha : a ∈ nodes) (hb : b ∈ nodes)
    (hne : a ≠ b) : a.name ≠ b.name := by
  have : Std.Symm fun x y : NodeBgp => x.name ≠ y.name := ⟨fun _ _ hxy => hxy.symm⟩
  exact List.Pairwise.forall h.names ha hb hne

theorem mem_peersOf {a : NodeBgp} {p : BgpPeer} :
    p ∈ peersOf nodes fullMesh a ↔ ∃ o ∈ nodes, peerFor a fullMesh o = some p := by
  simp [peersOf, deriveIbgpPeers]

theorem peerFor_isSome {a o : NodeBgp} :
    (∃ p, peerFor a fullMesh o = some p) ↔ o.name ≠ a.name ∧ shouldPeer a fullMesh o = true := by
  unfold peerFor
  by_cases hname : o.name = a.name
  · simp [hname]
  · by_cases hpeer : shouldPeer a fullMesh o = true
    · simp [hname, hpeer]
    · simp [hname, hpeer]

theorem lists_iff (h : NodesApart nodes) {a b : NodeBgp} (hb : b ∈ nodes) :
    Lists nodes fullMesh a b ↔ b.name ≠ a.name ∧ shouldPeer a fullMesh b = true := by
  rw [← peerFor_isSome]
  constructor
  · intro ⟨p, hp, hn⟩
    obtain ⟨o, ho, hpeer⟩ := mem_peersOf.mp hp
    have hob : o = b := h.eq_of_ip ho hb ((peerFor_neighbor hpeer).symm.trans hn)
    exact ⟨p, hob ▸ hpeer⟩
  · intro ⟨p, hpeer⟩
    exact ⟨p, mem_peersOf.mpr ⟨b, hb, hpeer⟩, peerFor_neighbor hpeer⟩

/-- The client mark of a derived peer. -/
theorem peerFor_mark {a o : NodeBgp} {p : BgpPeer} (h : peerFor a fullMesh o = some p) :
    p.rrClient = (a.rrServer.isSome && o.rrServer.isNone) ∧
      p.rrClusterId = if a.rrServer.isSome && o.rrServer.isNone then a.rrServer else none := by
  unfold peerFor at h
  dsimp only at h
  split at h
  · cases h
  · split at h
    · cases h
      exact ⟨rfl, rfl⟩
    · cases h

/-! ## Sessions by role -/

section Roles

variable (h : NodesApart nodes)
include h

theorem server_session {s b : NodeBgp} (hs : s ∈ nodes) (hb : b ∈ nodes) (hne : s ≠ b)
    (hserver : s.rrServer.isSome = true)
    (hmesh : fullMesh = true ∨ ∀ a ∈ nodes, ∀ b ∈ nodes, a.asn = b.asn) :
    Session nodes fullMesh s b := by
  constructor
  · rw [lists_iff h hb]
    exact ⟨h.name_ne hb hs hne.symm, if_pos hserver⟩
  · rw [lists_iff h hs]
    refine ⟨h.name_ne hs hb hne, ?_⟩
    -- a server and a client take every server; a plain node takes it by the mesh or the ASN
    unfold shouldPeer
    split
    · rfl
    · split
      · exact hserver
      · split
        · rfl
        · next hplain =>
          obtain hfull | hasn := hmesh
          · exact absurd hfull hplain
          · simpa using hasn s hs b hb

theorem server_marks {s b : NodeBgp} (hs : s ∈ nodes) (hb : b ∈ nodes)
    (hserver : s.rrServer.isSome = true) (hplain : b.rrServer.isNone = true) :
    MarksClient nodes fullMesh s b := by
  have hne : s ≠ b := by
    intro heq
    rw [heq, Option.isSome_iff_ne_none] at hserver
    exact hserver (Option.isNone_iff_eq_none.mp hplain)
  obtain ⟨p, hp⟩ := peerFor_isSome.mpr
    (⟨h.name_ne hb hs hne.symm, if_pos hserver⟩ : b.name ≠ s.name ∧ shouldPeer s fullMesh b = true)
  obtain ⟨hclient, hid⟩ := peerFor_mark hp
  refine ⟨p, mem_peersOf.mpr ⟨b, hb, hp⟩, peerFor_neighbor hp, ?_, ?_⟩
  · rw [hclient, hserver, hplain]
    rfl
  · rw [hid, hserver, hplain]
    rfl

theorem reflects {s a b : NodeBgp} (hs : s ∈ nodes) (ha : a ∈ nodes) (hb : b ∈ nodes)
    (hserver : s.rrServer.isSome = true) (ha' : a.rrServer.isNone = true)
    (hb' : b.rrServer.isNone = true)
    (hmesh : fullMesh = true ∨ ∀ a ∈ nodes, ∀ b ∈ nodes, a.asn = b.asn) :
    Reflects nodes fullMesh s a b := by
  have hne : ∀ o : NodeBgp, o.rrServer.isNone = true → s ≠ o := by
    intro o ho heq
    rw [heq, Option.isSome_iff_ne_none] at hserver
    exact hserver (Option.isNone_iff_eq_none.mp ho)
  exact {
    server := hserver
    left := server_session h hs ha (hne a ha') hserver hmesh
    right := server_session h hs hb (hne b hb') hserver hmesh
    marksLeft := server_marks h hs ha hserver ha'
    marksRight := server_marks h hs hb hserver hb' }

theorem plain_lists {a b : NodeBgp} (ha : a ∈ nodes) (hb : b ∈ nodes) (hne : a ≠ b)
    (hplain : a.rrClient.isSome = false)
    (hmesh : fullMesh = true ∨ ∀ a ∈ nodes, ∀ b ∈ nodes, a.asn = b.asn) :
    Lists nodes fullMesh a b := by
  rw [lists_iff h hb]
  refine ⟨h.name_ne hb ha hne.symm, ?_⟩
  unfold shouldPeer
  split
  · rfl
  · rw [if_neg (by simp [hplain])]
    split
    · rfl
    · next hpart =>
      obtain hfull | hasn := hmesh
      · exact absurd hfull hpart
      · simpa using hasn b hb a ha

end Roles

/-! ## The cluster -/

/-- What the independently derived peers of a cluster amount to. -/
structure IbgpConnected (nodes : List NodeBgp) (fullMesh : Bool) : Prop where
  linked : ∀ a ∈ nodes, ∀ b ∈ nodes, a ≠ b →
    Session nodes fullMesh a b ∨ ∃ s ∈ nodes, Reflects nodes fullMesh s a b
  notSelf : ∀ a ∈ nodes, ¬ Lists nodes fullMesh a a
  once : ∀ a ∈ nodes, (peersOf nodes fullMesh a).Pairwise fun p q => p.neighbor ≠ q.neighbor
  serversUnmarked : ∀ s ∈ nodes, s.rrServer.isSome = true → ∀ t ∈ nodes, t.rrServer.isSome = true →
    ∀ p ∈ peersOf nodes fullMesh s, p.neighbor = t.ip → p.rrClient = false

theorem linked_of_roles (h : NodesApart nodes)
    (hmesh : fullMesh = true ∨ ∀ a ∈ nodes, ∀ b ∈ nodes, a.asn = b.asn)
    (hservers : (∃ c ∈ nodes, c.rrClient.isSome = true) → ∃ s ∈ nodes, s.rrServer.isSome = true)
    {a b : NodeBgp} (ha : a ∈ nodes) (hb : b ∈ nodes) (hne : a ≠ b) :
    Session nodes fullMesh a b ∨ ∃ s ∈ nodes, Reflects nodes fullMesh s a b := by
  by_cases has : a.rrServer.isSome = true
  · exact Or.inl (server_session h ha hb hne has hmesh)
  by_cases hbs : b.rrServer.isSome = true
  · exact Or.inl (server_session h hb ha hne.symm hbs hmesh).symm
  have hnoneA : a.rrServer.isNone = true := by simpa using has
  have hnoneB : b.rrServer.isNone = true := by simpa using hbs
  -- neither is a server: a client of the two brings a server with it
  by_cases hclient : a.rrClient.isSome = true ∨ b.rrClient.isSome = true
  · obtain ⟨s, hs, hserver⟩ := hservers
      (hclient.elim (fun hc => ⟨a, ha, hc⟩) (fun hc => ⟨b, hb, hc⟩))
    exact Or.inr ⟨s, hs, reflects h hs ha hb hserver hnoneA hnoneB hmesh⟩
  · obtain ⟨hca, hcb⟩ := not_or.mp hclient
    exact Or.inl ⟨plain_lists h ha hb hne (by simpa using hca) hmesh,
      plain_lists h hb ha hne.symm (by simpa using hcb) hmesh⟩

/-- The derived topology connects the cluster. -/
theorem ibgp_connected (h : NodesApart nodes)
    (hmesh : fullMesh = true ∨ ∀ a ∈ nodes, ∀ b ∈ nodes, a.asn = b.asn)
    (hservers : (∃ c ∈ nodes, c.rrClient.isSome = true) → ∃ s ∈ nodes, s.rrServer.isSome = true) :
    IbgpConnected nodes fullMesh := by
  refine ⟨fun a ha b hb hne => linked_of_roles h hmesh hservers ha hb hne, ?_, ?_, ?_⟩
  · intro a ha hself
    exact ((lists_iff h ha).mp hself).1 rfl
  · intro a ha
    unfold peersOf deriveIbgpPeers
    rw [if_neg (by simp), List.pairwise_filterMap]
    refine h.ips.imp fun {x y} hxy p hp q hq => ?_
    rw [peerFor_neighbor hp, peerFor_neighbor hq]
    exact hxy
  · intro s hs hserver t ht hserver' p hp hn
    obtain ⟨o, ho, hpeer⟩ := mem_peersOf.mp hp
    have hot : o = t := h.eq_of_ip ho ht ((peerFor_neighbor hpeer).symm.trans hn)
    rw [(peerFor_mark hpeer).1, hot, Option.isNone_eq_false_iff.mpr hserver', Bool.and_false]

/-- A server, a client and a plain node in three ASNs. -/
def reflectedNodes : List NodeBgp :=
  [{ name := "s", ip := .ofOctets 10 0 0 1, asn := 64512, rrServer := some 1, rrClient := none },
   { name := "c", ip := .ofOctets 10 0 0 2, asn := 64513, rrServer := none, rrClient := some 1 },
   { name := "p", ip := .ofOctets 10 0 0 3, asn := 64514, rrServer := none, rrClient := none }]

theorem reflectedNodes_connected : IbgpConnected reflectedNodes true :=
  ibgp_connected ⟨by decide, by decide⟩ (Or.inl rfl) (fun _ => ⟨_, List.mem_cons_self, rfl⟩)

end KubeRouter.Routing
