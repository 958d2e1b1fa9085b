/-
  The desired table in closed form: every service port claims virtual services, in the order of
  the loop over the snapshot, and the table holds the last claim of each key.

  A key is the `Debug` text of address, protocol and port; the text determines the three
  (`keyText_injective`), so claims compete exactly when the three agree. With a mangle handler
  configured, external and LoadBalancer addresses of a DSR service take the FWMARK path and are
  not claimed here (`ipvsClaims`); without one, all of them are (`itemClaims`).

  Proved:
  * `desired_tables`: services and owners of the desired state are the claims, inserted in order.
  * `services_iff`: the entries of the table are the last claims.
  * `programmed_iff`: the entries with their owners are the last claims.
-/
import KubeRouter.Common.AddrText
import KubeRouter.Proxy.Desired
import KubeRouter.Proxy.FwMark

namespace KubeRouter.Proxy

/-! ## Keys -/

/-- A first part without the separator is read off the front. -/
theorem append_sep_inj {α : Type} {a : α} {xs ys xs' ys' : List α} (hxs : a ∉ xs) (hys : a ∉ ys)
    (h : xs ++ a :: xs' = ys ++ a :: ys') : xs = ys ∧ xs' = ys' := by
  rcases List.append_eq_append_iff.mp h with ⟨as, rfl, hs⟩ | ⟨as, rfl, hs⟩
  · cases as with
    | nil => exact ⟨by simp, (List.cons.inj hs).2⟩
    | cons b as =>
      obtain rfl := (List.cons.inj hs).1
      exact absurd (by simp) hys
  · cases as with
    | nil => exact ⟨by simp, (List.cons.inj hs).2.symm⟩
    | cons b as =>
      obtain rfl := (List.cons.inj hs).1
      exact absurd (by simp) hxs

theorem keyText_injective : Function.Injective keyText := by
  have hcomma : ∀ ip : IpAddr, ',' ∉ ip.toText.toList := fun ip hc =>
    absurd (addressText_toText ip ',' hc) (by decide)
  have hproto : ∀ p : Protocol, ',' ∉ ' ' :: p.debug.toList := by
    intro p
    cases p <;> decide
  rintro ⟨a, p, n⟩ ⟨b, q, m⟩ h
  have hlist := congrArg String.toList h
  simp only [keyText, String.toList_append] at hlist
  simp only [String.reduceToList, List.cons_append, List.nil_append, List.append_assoc,
    List.cons.injEq, true_and] at hlist
  obtain ⟨haddr, hrest⟩ := append_sep_inj (hcomma a) (hcomma b) hlist
  have hrest' : (' ' :: p.debug.toList) ++ ',' :: ' ' :: ((toString n.toNat).toList ++ [')']) =
      (' ' :: q.debug.toList) ++ ',' :: ' ' :: ((toString m.toNat).toList ++ [')']) := by
    simpa using hrest
  obtain ⟨hp, hn⟩ := append_sep_inj (hproto p) (hproto q) hrest'
  have hport := List.append_cancel_right (List.cons.inj hn).2
  have hpq : p = q := by
    revert hp
    cases p <;> cases q <;> decide
  rw [IpAddr.toText_injective (String.toList_inj.mp haddr), hpq,
    UInt16.toNat_inj.mp (Nat.repr_injective (String.toList_inj.mp hport))]

/-! ## Claims -/

/-- A virtual service a service port asks for. -/
structure Claim where
  svc : ServiceInfo
  eps : List EndpointInfo
  vip : IpAddr
  port : UInt16
  localOnly : Bool
deriving DecidableEq, Repr

namespace Claim

def service (c : Claim) : IpvsService := ipvsService c.svc c.vip c.port

def entry (c : Claim) : Entry := (c.service, dests c.svc c.eps c.localOnly)

def owner (c : Claim) : String × String := (c.svc.ns, c.svc.name)

/-- What the table distinguishes claims by. -/
def key (c : Claim) : IpAddr × Protocol × UInt16 := (c.vip, c.svc.protocol, c.port)

theorem svcKey_eq {c c' : Claim} : svcKey c.service = svcKey c'.service ↔ c.key = c'.key :=
  keyText_injective.eq_iff

end Claim

/-- ClusterIPs follow the internal traffic policy. -/
def internalClaims (item : ServiceInfo × List EndpointInfo) : List Claim :=
  item.1.clusterIps.map fun vip =>
    ⟨item.1, item.2, vip, item.1.port, item.1.internalTrafficLocal⟩

def externalVip (item : ServiceInfo × List EndpointInfo) (vip : IpAddr) : Claim :=
  ⟨item.1, item.2, vip, item.1.port, item.1.externalTrafficLocal⟩

/-- The validated addresses of one list. -/
def validVips (cfg : Config) (allowed : List IpNet) (vips : List IpAddr) : List IpAddr :=
  vips.filter fun vip => validateExternalIp vip allowed cfg.ranges.cluster cfg.ranges.strict

def nodePortClaims (cfg : Config) (item : ServiceInfo × List EndpointInfo) : List Claim :=
  match item.1.nodePort with
  | none => []
  | some np =>
    if Desired.nodePortInRange cfg np &&
        !(item.1.externalTrafficLocal && (dests item.1 item.2 true).isEmpty) then
      cfg.nodeIps.map fun nip => ⟨item.1, item.2, nip, np, item.1.externalTrafficLocal⟩
    else []

/-- External, LoadBalancer and NodePort addresses follow the external traffic policy. -/
def externalClaims (cfg : Config) (item : ServiceInfo × List EndpointInfo) : List Claim :=
  (validVips cfg cfg.ranges.external item.1.externalIps).map (externalVip item) ++
    (validVips cfg cfg.ranges.loadbalancer item.1.loadBalancerIps).map (externalVip item) ++
    nodePortClaims cfg item

def itemClaims (cfg : Config) (item : ServiceInfo × List EndpointInfo) : List Claim :=
  internalClaims item ++ externalClaims cfg item

/-- External and LoadBalancer addresses go to the FWMARK path. -/
def takesDsr (cfg : Config) (svc : ServiceInfo) : Bool := !cfg.dsrMangle.isEmpty && svc.dsr

/-- The claims left to the IPVS table. -/
def ipvsClaims (cfg : Config) (item : ServiceInfo × List EndpointInfo) : List Claim :=
  if takesDsr cfg item.1 then internalClaims item ++ nodePortClaims cfg item
  else itemClaims cfg item

theorem ipvsClaims_eq {cfg : Config} (hdsr : cfg.dsrMangle = []) :
    ipvsClaims cfg = itemClaims cfg := by
  funext item
  simp [ipvsClaims, takesDsr, hdsr]

section Keys

variable {cfg : Config} {item : ServiceInfo × List EndpointInfo} {c : Claim}

/-- A claim of the item under one of its policies. -/
structure ClaimOf (item : ServiceInfo × List EndpointInfo) (localOnly : Bool)
    (c : Claim) : Prop where
  svc : c.svc = item.1
  eps : c.eps = item.2
  localOnly_eq : c.localOnly = localOnly

theorem internalClaims_of (h : c ∈ internalClaims item) :
    ClaimOf item item.1.internalTrafficLocal c := by
  obtain ⟨vip, -, rfl⟩ := List.mem_map.mp h
  exact ⟨rfl, rfl, rfl⟩

theorem mem_internalClaims_key {v : IpAddr} {proto : Protocol} {p : UInt16} :
    (∃ c ∈ internalClaims item, c.key = (v, proto, p)) ↔
      proto = item.1.protocol ∧ item.1.port = p ∧ v ∈ item.1.clusterIps := by
  simp only [internalClaims, List.mem_map]
  constructor
  · rintro ⟨c, ⟨vip, hvip, rfl⟩, hkey⟩
    cases hkey
    exact ⟨rfl, rfl, hvip⟩
  · rintro ⟨rfl, rfl, hv⟩
    exact ⟨_, ⟨v, hv, rfl⟩, rfl⟩

theorem mem_validVips {allowed : List IpNet} {vips : List IpAddr} {v : IpAddr} :
    v ∈ validVips cfg allowed vips ↔
      v ∈ vips ∧ validateExternalIp v allowed cfg.ranges.cluster cfg.ranges.strict = true :=
  List.mem_filter

theorem dests_local_isEmpty (svc : ServiceInfo) (eps : List EndpointInfo) :
    (dests svc eps true).isEmpty = false ↔ ∃ e ∈ eps, e.ready = true ∧ e.isLocal = true := by
  unfold dests
  rw [List.isEmpty_eq_false_iff_exists_mem]
  simp

theorem mem_nodePortClaims : c ∈ nodePortClaims cfg item ↔
    ∃ np, item.1.nodePort = some np ∧ Desired.nodePortInRange cfg np = true ∧
      (item.1.externalTrafficLocal = true →
        ∃ e ∈ item.2, e.ready = true ∧ e.isLocal = true) ∧
      ∃ nip ∈ cfg.nodeIps, c = ⟨item.1, item.2, nip, np, item.1.externalTrafficLocal⟩ := by
  unfold nodePortClaims
  cases hnp : item.1.nodePort with
  | none => simp
  | some np =>
    have hgate : (Desired.nodePortInRange cfg np &&
        !(item.1.externalTrafficLocal && (dests item.1 item.2 true).isEmpty)) = true ↔
        Desired.nodePortInRange cfg np = true ∧ (item.1.externalTrafficLocal = true →
          ∃ e ∈ item.2, e.ready = true ∧ e.isLocal = true) := by
      rw [Bool.and_eq_true, ← dests_local_isEmpty item.1 item.2]
      cases item.1.externalTrafficLocal <;> simp
    dsimp only
    rw [List.mem_ite_nil_right, hgate, List.mem_map]
    constructor
    · rintro ⟨⟨hr, hl⟩, nip, hnip, rfl⟩
      exact ⟨np, rfl, hr, hl, nip, hnip, rfl⟩
    · rintro ⟨_, ⟨⟩, hr, hl, nip, hnip, rfl⟩
      exact ⟨⟨hr, hl⟩, nip, hnip, rfl⟩

theorem mem_externalClaims : c ∈ externalClaims cfg item ↔
    (∃ v, (v ∈ validVips cfg cfg.ranges.external item.1.externalIps ∨
        v ∈ validVips cfg cfg.ranges.loadbalancer item.1.loadBalancerIps) ∧
          externalVip item v = c) ∨
      c ∈ nodePortClaims cfg item := by
  simp only [externalClaims, List.mem_append, List.mem_map, or_and_right, exists_or]

theorem externalClaims_of (h : c ∈ externalClaims cfg item) :
    ClaimOf item item.1.externalTrafficLocal c := by
  rcases mem_externalClaims.mp h with ⟨v, -, rfl⟩ | h
  · exact ⟨rfl, rfl, rfl⟩
  · obtain ⟨np, -, -, -, nip, -, rfl⟩ := mem_nodePortClaims.mp h
    exact ⟨rfl, rfl, rfl⟩

theorem mem_externalClaims_key {v : IpAddr} {proto : Protocol} {p : UInt16} :
    (∃ c ∈ externalClaims cfg item, c.key = (v, proto, p)) ↔ proto = item.1.protocol ∧
      ((item.1.port = p ∧
        ((v ∈ item.1.externalIps ∧
            validateExternalIp v cfg.ranges.external cfg.ranges.cluster cfg.ranges.strict = true) ∨
          (v ∈ item.1.loadBalancerIps ∧
            validateExternalIp v cfg.ranges.loadbalancer cfg.ranges.cluster cfg.ranges.strict =
              true))) ∨
      (item.1.nodePort = some p ∧ Desired.nodePortInRange cfg p = true ∧ v ∈ cfg.nodeIps ∧
        (item.1.externalTrafficLocal = true →
          ∃ e ∈ item.2, e.ready = true ∧ e.isLocal = true))) := by
  simp only [mem_externalClaims, mem_validVips]
  constructor
  · rintro ⟨c, ⟨vip, hvip, rfl⟩ | hc, hkey⟩
    · cases hkey
      exact ⟨rfl, Or.inl ⟨rfl, hvip⟩⟩
    · obtain ⟨np, hnp, hr, hl, nip, hnip, rfl⟩ := mem_nodePortClaims.mp hc
      cases hkey
      exact ⟨rfl, Or.inr ⟨hnp, hr, hnip, hl⟩⟩
  · rintro ⟨rfl, ⟨rfl, hv⟩ | ⟨hnp, hr, hv, hl⟩⟩
    · exact ⟨_, Or.inl ⟨v, hv, rfl⟩, rfl⟩
    · exact ⟨_, Or.inr (mem_nodePortClaims.mpr ⟨p, hnp, hr, hl, v, hv, rfl⟩), rfl⟩

end Keys

/-- The services and the owners of a desired state. -/
def Desired.tables (D : Desired) : ServiceTable × Std.TreeMap String (String × String) :=
  (D.services, D.owner)

def insertClaim (t : ServiceTable × Std.TreeMap String (String × String)) (c : Claim) :
    ServiceTable × Std.TreeMap String (String × String) :=
  (t.1.insert (svcKey c.service) c.entry, t.2.insert (svcKey c.service) c.owner)

section Tables

variable {cfg : Config} (item : ServiceInfo × List EndpointInfo)

theorem tables_internal (D : Desired) :
    (item.1.clusterIps.foldl
      (fun D vip => Desired.addVip item.1 item.2 D vip item.1.internalTrafficLocal) D).tables =
      (internalClaims item).foldl insertClaim D.tables := by
  unfold internalClaims
  induction item.1.clusterIps generalizing D with
  | nil => rfl
  | cons vip vips ih => exact ih _

theorem tables_external (hdsr : takesDsr cfg item.1 = false) (allowed : List IpNet)
    (vips : List IpAddr) (acc : Desired × List IpAddr) :
    (vips.foldl (Desired.addExternal cfg item.1 item.2 allowed) acc).1.tables =
      ((validVips cfg allowed vips).map (externalVip item)).foldl insertClaim acc.1.tables := by
  induction vips generalizing acc with
  | nil => rfl
  | cons vip vips ih =>
    rw [List.foldl_cons, ih]
    unfold takesDsr at hdsr
    unfold validVips Desired.addExternal
    rw [List.filter_cons]
    split
    · simp only [hdsr, Bool.false_eq_true, if_false]
      rfl
    · rfl

theorem tables_dsr (hdsr : takesDsr cfg item.1 = true) (allowed : List IpNet) (vips : List IpAddr)
    (acc : Desired × List IpAddr) :
    (vips.foldl (Desired.addExternal cfg item.1 item.2 allowed) acc).1.tables = acc.1.tables := by
  induction vips generalizing acc with
  | nil => rfl
  | cons vip vips ih =>
    rw [List.foldl_cons, ih]
    unfold takesDsr at hdsr
    unfold Desired.addExternal
    rw [if_pos hdsr]
    split <;> rfl

theorem tables_nodePort (D : Desired) :
    (Desired.addNodePort cfg item.1 item.2 D).tables =
      (nodePortClaims cfg item).foldl insertClaim D.tables := by
  unfold Desired.addNodePort nodePortClaims
  cases hnp : item.1.nodePort with
  | none => rfl
  | some np =>
    dsimp only
    cases hr : Desired.nodePortInRange cfg np with
    | false => simp
    | true =>
      cases hl : item.1.externalTrafficLocal with
      | false =>
        simp only [Bool.not_true, Bool.false_eq_true, if_false, Bool.false_and, Bool.not_false,
          Bool.and_self, if_true]
        induction cfg.nodeIps generalizing D with
        | nil => rfl
        | cons nip nips ih => exact ih _
      | true =>
        cases he : (dests item.1 item.2 true).isEmpty with
        | true => simp
        | false =>
          simp only [Bool.not_true, Bool.false_eq_true, if_false, Bool.and_false, Bool.not_false,
            Bool.and_self, if_true]
          induction cfg.nodeIps generalizing D with
          | nil => rfl
          | cons nip nips ih => exact ih _

theorem tables_add (D : Desired) :
    (Desired.add cfg D item).tables = (ipvsClaims cfg item).foldl insertClaim D.tables := by
  unfold Desired.add
  dsimp only
  rw [tables_nodePort]
  generalize hacc : item.1.loadBalancerIps.foldl
    (Desired.addExternal cfg item.1 item.2 cfg.ranges.loadbalancer)
    (item.1.externalIps.foldl (Desired.addExternal cfg item.1 item.2 cfg.ranges.external)
      (item.1.clusterIps.foldl
        (fun D vip => Desired.addVip item.1 item.2 D vip item.1.internalTrafficLocal)
        { D with wantSloppyTcp := D.wantSloppyTcp || serviceWantsSloppyTcp item.1 }, [])) = acc
  have hjob : (if acc.2.isEmpty then acc.1
      else { acc.1 with dsrJobs := acc.1.dsrJobs ++ [{
              vips := acc.2, protocol := item.1.protocol, port := item.1.port, endpoints := item.2,
              scheduler := item.1.scheduler, persistent := persistentOf item.1 }] }).tables =
      acc.1.tables := by
    split <;> rfl
  rw [hjob]
  unfold ipvsClaims itemClaims externalClaims
  cases hdsr : takesDsr cfg item.1 with
  | true =>
    rw [if_pos rfl, List.foldl_append, ← hacc, tables_dsr item hdsr, tables_dsr item hdsr,
      tables_internal]
    rfl
  | false =>
    rw [if_neg (by decide), List.foldl_append, List.foldl_append, List.foldl_append, ← hacc,
      tables_external item hdsr, tables_external item hdsr, tables_internal]
    rfl

end Tables

theorem ipvs_tables (cfg : Config) (snapshot : Snapshot) :
    (desired cfg snapshot).tables =
      (snapshot.flatMap (ipvsClaims cfg)).foldl insertClaim (∅, ∅) := by
  have hrun : ∀ (items : Snapshot) (D : Desired), (items.foldl (Desired.add cfg) D).tables =
      (items.flatMap (ipvsClaims cfg)).foldl insertClaim D.tables := by
    intro items
    induction items with
    | nil => exact fun D => rfl
    | cons item items ih =>
      intro D
      rw [List.foldl_cons, ih, tables_add item, List.flatMap_cons, List.foldl_append]
  exact hrun snapshot {}

theorem desired_tables {cfg : Config} (hdsr : cfg.dsrMangle = []) (snapshot : Snapshot) :
    (desired cfg snapshot).tables =
      (snapshot.flatMap (itemClaims cfg)).foldl insertClaim (∅, ∅) := by
  rw [ipvs_tables, ipvsClaims_eq hdsr]

/-! ## The last claim of a key -/

/-- No later claim has the key of `c`. -/
def IsLast (cs : List Claim) (c : Claim) : Prop :=
  ∃ pre post, cs = pre ++ c :: post ∧ ∀ c' ∈ post, c'.key ≠ c.key

theorem getElem?_foldl_insert {C V : Type} (key : C → String) (val : C → V) (cs : List C)
    (m : Std.TreeMap String V) (k : String) :
    (cs.foldl (fun m c => m.insert (key c) (val c)) m)[k]? =
      ((cs.reverse.find? (key · == k)).map val).or m[k]? := by
  induction cs using List.reverseRecOn with
  | nil => rfl
  | append_singleton cs c ih =>
    rw [List.foldl_append, List.foldl_cons, List.foldl_nil, Std.TreeMap.getElem?_insert, ih,
      List.reverse_append, List.reverse_singleton, List.singleton_append]
    by_cases hk : key c = k
    · rw [List.find?_cons_of_pos (by simp [hk])]
      simp [hk]
    · rw [List.find?_cons_of_neg (by simp [hk])]
      simp [hk]

theorem foldl_insertClaim (cs : List Claim)
    (t : ServiceTable × Std.TreeMap String (String × String)) :
    cs.foldl insertClaim t =
      (cs.foldl (fun m c => m.insert (svcKey c.service) c.entry) t.1,
        cs.foldl (fun m c => m.insert (svcKey c.service) c.owner) t.2) := by
  induction cs generalizing t with
  | nil => rfl
  | cons c cs ih => exact ih _

/-- The last claim under a key text is the last claim of its key. -/
theorem find_claim_iff {cs : List Claim} {k : String} {c : Claim} :
    cs.reverse.find? (svcKey ·.service == k) = some c ↔ svcKey c.service = k ∧ IsLast cs c := by
  rw [List.find?_eq_some_iff_append]
  simp only [beq_iff_eq, Bool.not_eq_true', beq_eq_false_iff_ne]
  refine and_congr_right fun hk => ?_
  subst hk
  constructor
  · rintro ⟨as, bs, hcs, has⟩
    refine ⟨bs.reverse, as.reverse, ?_, fun c' hc' hkey => ?_⟩
    · rw [← List.reverse_reverse cs, hcs]
      simp
    · exact has c' (List.mem_reverse.mp hc') (Claim.svcKey_eq.mpr hkey)
  · rintro ⟨pre, post, rfl, hpost⟩
    refine ⟨post.reverse, pre.reverse, by simp, fun c' hc' hkey => ?_⟩
    exact hpost c' (List.mem_reverse.mp hc') (Claim.svcKey_eq.mp hkey)

theorem services_iff {cfg : Config} {snapshot : Snapshot} {k : String} {e : Entry} :
    (desired cfg snapshot).services[k]? = some e ↔
      ∃ c, IsLast (snapshot.flatMap (ipvsClaims cfg)) c ∧ svcKey c.service = k ∧ c.entry = e := by
  have htables := ipvs_tables cfg snapshot
  rw [foldl_insertClaim] at htables
  have hservices : (desired cfg snapshot).services = _ := congrArg Prod.fst htables
  rw [hservices]
  simp only [getElem?_foldl_insert, Std.TreeMap.getElem?_emptyc, Option.or_none,
    Option.map_eq_some_iff]
  constructor
  · rintro ⟨c, hc, rfl⟩
    obtain ⟨hk, hlast⟩ := find_claim_iff.mp hc
    exact ⟨c, hlast, hk, rfl⟩
  · rintro ⟨c, hlast, hk, rfl⟩
    exact ⟨c, find_claim_iff.mpr ⟨hk, hlast⟩, rfl⟩

/-- The table holds `e` for the owner. -/
def Desired.Programs (D : Desired) (owner : String × String) (e : Entry) : Prop :=
  ∃ k : String, D.services[k]? = some e ∧ D.owner[k]? = some owner

theorem programmed_iff {cfg : Config} (hdsr : cfg.dsrMangle = []) {snapshot : Snapshot}
    {owner : String × String} {e : Entry} :
    (desired cfg snapshot).Programs owner e ↔
      ∃ c, IsLast (snapshot.flatMap (itemClaims cfg)) c ∧ c.owner = owner ∧ c.entry = e := by
  have htables := desired_tables hdsr snapshot
  rw [foldl_insertClaim] at htables
  have hservices : (desired cfg snapshot).services = _ := congrArg Prod.fst htables
  have howner : (desired cfg snapshot).owner = _ := congrArg Prod.snd htables
  unfold Desired.Programs
  rw [hservices, howner]
  simp only [getElem?_foldl_insert, Std.TreeMap.getElem?_emptyc, Option.or_none,
    Option.map_eq_some_iff]
  constructor
  · rintro ⟨k, ⟨c, hc, rfl⟩, c', hc', rfl⟩
    -- One lookup found both.
    obtain rfl : c = c' := Option.some.inj (hc.symm.trans hc')
    exact ⟨c, (find_claim_iff.mp hc).2, rfl, rfl⟩
  · rintro ⟨c, hlast, rfl, rfl⟩
    have hc := find_claim_iff.mpr ⟨rfl, hlast⟩
    exact ⟨svcKey c.service, ⟨c, hc, rfl⟩, c, hc, rfl⟩

theorem isLast_append {cs cs' : List Claim} {c : Claim} :
    IsLast (cs ++ cs') c ↔ IsLast cs' c ∨ (IsLast cs c ∧ ∀ c' ∈ cs', c'.key ≠ c.key) := by
  constructor
  · rintro ⟨pre, post, hcs, hpost⟩
    rcases List.append_eq_append_iff.mp hcs with ⟨as, rfl, hs⟩ | ⟨as, rfl, hs⟩
    · exact Or.inl ⟨as, post, hs, hpost⟩
    · cases as with
      | nil => exact Or.inl ⟨[], post, hs.symm, hpost⟩
      | cons a as =>
        obtain ⟨rfl, rfl⟩ := List.cons.inj hs
        exact Or.inr ⟨⟨pre, as, rfl, fun c' hc' => hpost c' (List.mem_append_left _ hc')⟩,
          fun c' hc' => hpost c' (List.mem_append_right _ hc')⟩
  · rintro (⟨pre, post, rfl, hpost⟩ | ⟨⟨pre, post, rfl, hpost⟩, hcs'⟩)
    · exact ⟨cs ++ pre, post, by simp, hpost⟩
    · refine ⟨pre, post ++ cs', by simp, fun c' hc' => ?_⟩
      rcases List.mem_append.mp hc' with hc' | hc'
      · exact hpost c' hc'
      · exact hcs' c' hc'

/-- The last claim over a list of items is the last claim of the last item that has one. -/
theorem isLast_flatMap {α : Type} {xs : List α} {f : α → List Claim} {c : Claim} :
    IsLast (xs.flatMap f) c ↔ ∃ pre x post, xs = pre ++ x :: post ∧ IsLast (f x) c ∧
      ∀ y ∈ post, ∀ c' ∈ f y, c'.key ≠ c.key := by
  induction xs with
  | nil =>
    constructor
    · rintro ⟨pre, post, h, -⟩
      simp at h
    · rintro ⟨pre, x, post, h, -⟩
      simp at h
  | cons x xs ih =>
    rw [List.flatMap_cons, isLast_append, ih]
    constructor
    · rintro (⟨pre, y, post, rfl, hlast, hpost⟩ | ⟨hlast, hrest⟩)
      · exact ⟨x :: pre, y, post, rfl, hlast, hpost⟩
      · exact ⟨[], x, xs, rfl, hlast, fun y hy c' hc' =>
          hrest c' (List.mem_flatMap.mpr ⟨y, hy, hc'⟩)⟩
    · rintro ⟨pre, y, post, hxs, hlast, hpost⟩
      cases pre with
      | nil =>
        obtain ⟨rfl, rfl⟩ := List.cons.inj hxs
        refine Or.inr ⟨hlast, fun c' hc' => ?_⟩
        obtain ⟨y, hy, hc'⟩ := List.mem_flatMap.mp hc'
        exact hpost y hy c' hc'
      | cons x' pre =>
        obtain ⟨rfl, rfl⟩ := List.cons.inj hxs
        exact Or.inl ⟨pre, y, post, rfl, hlast, hpost⟩

/-- A list with a claim of the key has a last one. -/
theorem exists_isLast {cs : List Claim} {c : Claim} (h : c ∈ cs) :
    ∃ c', IsLast cs c' ∧ c'.key = c.key := by
  cases hf : cs.reverse.find? (svcKey ·.service == svcKey c.service) with
  | none =>
    have hnone := List.find?_eq_none.mp hf c (List.mem_reverse.mpr h)
    simp at hnone
  | some c' =>
    obtain ⟨hk, hlast⟩ := find_claim_iff.mp hf
    exact ⟨c', hlast, Claim.svcKey_eq.mp hk⟩

theorem IsLast.mem {cs : List Claim} {c : Claim} (h : IsLast cs c) : c ∈ cs := by
  obtain ⟨pre, post, rfl, -⟩ := h
  simp

end KubeRouter.Proxy
