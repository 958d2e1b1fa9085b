/-
  The calls of the service proxy and the kernel state they change (`IpvsOps` and its
  `MockIpvs` in `proxy/src/ipvs.rs`, `NetlinkOps` and its `MockNetlink` in
  `netlink-sys/src/lib.rs`, `MangleOps` in `proxy/src/tcpmss.rs`).

  `upsert` is what the mocks do with a call that succeeds: adding a service or a destination
  replaces what stood there, deleting a service takes its destinations along, deleting what is
  absent is no error. `update_destination` falls back on `add_destination`.

  The tables are read cell by cell: the service under a key (`Kernel.services`), the
  destination under a key at a backend (`Kernel.dest`), an address on a link
  (`Kernel.hasAddr`). For each of the three, `upsert` writes a value or leaves the cell alone
  (`writes_service`, `writes_dest`, `writes_addr`).

  Proved:
  * `upsert_unique`: no call gives a service two destinations with one backend; hence
    `mem_dests_iff`, the cells say which destinations a service has.
-/
import Mathlib.Data.Finset.Basic
import Mathlib.Data.List.Pairwise
import KubeRouter.Lib.Program
import KubeRouter.Proxy.Model

namespace KubeRouter.Proxy

/-- Dummy interface VIPs are bound to. -/
def dummyIf : String := "kube-dummy-if"

def prefixLen : IpAddr → Nat
  | .V4 _ => 32
  | .V6 _ => 128

/-- A call to the kernel or to one of the stages that follow the IPVS sync. -/
inductive Call where
  | ensureDummyLink (name : String)
  | addrAdd (link : String) (addr : IpAddr) (len : Nat)
  | addrDel (link : String) (addr : IpAddr) (len : Nat)
  | addService (svc : IpvsService)
  | editService (svc : IpvsService)
  | delService (svc : IpvsService)
  | addDestination (svc : IpvsService) (dst : IpvsDestination)
  | updateDestination (svc : IpvsService) (dst : IpvsDestination)
  | delDestination (svc : IpvsService) (dst : IpvsDestination)
  | destConnStats (svc : IpvsService) (dst : IpvsDestination)
  | flushConntrackUdp (addr : IpAddr) (port : UInt16)
  | serviceStats
  | addFwmarkService (fwmark : UInt32) (scheduler : Scheduler) (persistent : Option UInt32)
  | addFwmarkDestination (fwmark : UInt32) (dst : IpvsDestination)
  /-- `append_unique` of the mangle handler for IPv6 (`true`) or IPv4. -/
  | mangleAppend (ipv6 : Bool) (chain : String) (args : List String)
  | syncHairpin
  | syncMasquerade
  | syncNodeportHealthchecks
  | syncFirewall
deriving DecidableEq, Repr

namespace Call

/-- A write to a virtual service. -/
def isServiceWrite : Call → Bool
  | addService _ | editService _ | delService _ => true
  | _ => false

/-- A write to a destination of a virtual service. -/
def isDestWrite : Call → Bool
  | addDestination _ _ | updateDestination _ _ | delDestination _ _ => true
  | _ => false

def isAddrWrite : Call → Bool
  | addrAdd _ _ _ | addrDel _ _ _ => true
  | _ => false

/-- A call that leaves services, destinations and addresses alone. -/
def Inert (c : Call) : Prop :=
  c.isServiceWrite = false ∧ c.isDestWrite = false ∧ c.isAddrWrite = false

end Call

structure Kernel where
  dummyLinks : Finset String := ∅
  addrs : Finset (String × IpAddr × Nat) := ∅
  services : Std.TreeMap String IpvsService := ∅
  destinations : Std.TreeMap String (List IpvsDestination) := ∅
  conntrackFlushes : List (IpAddr × UInt16) := []
  fwmarkServices : List UInt32 := []
  fwmarkDests : List (UInt32 × IpvsDestination) := []
  mangle : List (Bool × String × List String) := []

namespace Kernel

/-- `MockIpvs::destinations`. -/
def dests (K : Kernel) (k : String) : List IpvsDestination := (K.destinations[k]?).getD []

/-- The destination of service `k` at the backend `(a, p)`. -/
def dest (K : Kernel) (k : String) (a : IpAddr) (p : UInt16) : Option IpvsDestination :=
  (K.dests k).find? fun d => d.addr == a && d.port == p

def hasAddr (K : Kernel) (link : String) (a : IpAddr) (n : Nat) : Bool :=
  decide ((link, a, n) ∈ K.addrs)

/-- `retain` the other backends, then `push`. -/
def putDest (K : Kernel) (svc : IpvsService) (dst : IpvsDestination) : Kernel :=
  { K with destinations :=
      K.destinations.insert (svcKey svc) ((K.dests (svcKey svc)).filter (!·.same dst) ++ [dst]) }

def dropDest (K : Kernel) (svc : IpvsService) (dst : IpvsDestination) : Kernel :=
  match K.destinations[svcKey svc]? with
  | some v => { K with destinations := K.destinations.insert (svcKey svc) (v.filter (!·.same dst)) }
  | none => K

/-- A call that succeeds. -/
def upsert (K : Kernel) : Call → Kernel
  | .ensureDummyLink name => { K with dummyLinks := insert name K.dummyLinks }
  | .addrAdd link a n => { K with addrs := insert (link, a, n) K.addrs }
  | .addrDel link a n => { K with addrs := K.addrs.erase (link, a, n) }
  | .addService svc | .editService svc =>
    { K with services := K.services.insert (svcKey svc) svc }
  | .delService svc =>
    { K with services := K.services.erase (svcKey svc),
             destinations := K.destinations.erase (svcKey svc) }
  | .addDestination svc dst | .updateDestination svc dst => K.putDest svc dst
  | .delDestination svc dst => K.dropDest svc dst
  | .flushConntrackUdp a p => { K with conntrackFlushes := K.conntrackFlushes ++ [(a, p)] }
  | .addFwmarkService fwmark _ _ => { K with fwmarkServices := K.fwmarkServices ++ [fwmark] }
  | .addFwmarkDestination fwmark dst => { K with fwmarkDests := K.fwmarkDests ++ [(fwmark, dst)] }
  | .mangleAppend ipv6 chain args =>
    if (ipv6, chain, args) ∈ K.mangle then K
    else { K with mangle := K.mangle ++ [(ipv6, chain, args)] }
  | .destConnStats _ _ | .serviceStats | .syncHairpin | .syncMasquerade
  | .syncNodeportHealthchecks | .syncFirewall => K

/-! ## Cells -/

/-- The value a call stores as service `k`; `some none` deletes it. -/
def serviceWrite (k : String) : Call → Option (Option IpvsService)
  | .addService svc | .editService svc => if svcKey svc = k then some (some svc) else none
  | .delService svc => if svcKey svc = k then some none else none
  | _ => none

/-- The value a call stores at the backend `(a, p)` of service `k`. -/
def destWrite (k : String) (a : IpAddr) (p : UInt16) : Call → Option (Option IpvsDestination)
  | .addDestination svc dst | .updateDestination svc dst =>
    if svcKey svc = k ∧ dst.addr = a ∧ dst.port = p then some (some dst) else none
  | .delDestination svc dst =>
    if svcKey svc = k ∧ dst.addr = a ∧ dst.port = p then some none else none
  | .delService svc => if svcKey svc = k then some none else none
  | _ => none

def addrWrite (link : String) (a : IpAddr) (n : Nat) : Call → Option Bool
  | .addrAdd l b m => if (l, b, m) = (link, a, n) then some true else none
  | .addrDel l b m => if (l, b, m) = (link, a, n) then some false else none
  | _ => none

theorem writes_service (k : String) :
    Program.Writes upsert (fun K => K.services[k]?) (serviceWrite k) := by
  intro K c
  have hput : ∀ svc, (K.services.insert (svcKey svc) svc)[k]? =
      (if svcKey svc = k then some (some svc) else none).getD K.services[k]? := by
    intro svc
    rw [Std.TreeMap.getElem?_insert]
    by_cases h : svcKey svc = k <;> simp [h]
  cases c with
  | addService svc => exact hput svc
  | editService svc => exact hput svc
  | delService svc =>
    show (K.services.erase (svcKey svc))[k]? = _
    rw [Std.TreeMap.getElem?_erase]
    by_cases h : svcKey svc = k <;> simp [serviceWrite, h]
  | delDestination svc dst =>
    simp only [upsert, dropDest, serviceWrite, Option.getD_none]
    split <;> rfl
  | mangleAppend v6 chain args =>
    simp only [upsert, serviceWrite, Option.getD_none]
    split <;> rfl
  | _ => rfl

theorem writes_addr (link : String) (a : IpAddr) (n : Nat) :
    Program.Writes upsert (fun K => K.hasAddr link a n) (addrWrite link a n) := by
  intro K c
  cases c with
  | addrAdd l b m =>
    by_cases h : (l, b, m) = (link, a, n)
    · simp [upsert, hasAddr, addrWrite, h]
    · have h' : (link, a, n) ≠ (l, b, m) := fun e => h e.symm
      simp [upsert, hasAddr, addrWrite, h, h']
  | addrDel l b m =>
    by_cases h : (l, b, m) = (link, a, n)
    · simp [upsert, hasAddr, addrWrite, h]
    · have h' : (link, a, n) ≠ (l, b, m) := fun e => h e.symm
      simp [upsert, hasAddr, addrWrite, h, h']
  | delDestination svc dst =>
    simp only [upsert, dropDest, addrWrite, Option.getD_none]
    split <;> rfl
  | mangleAppend v6 chain args =>
    simp only [upsert, addrWrite, Option.getD_none]
    split <;> rfl
  | _ => rfl

theorem dests_putDest (K : Kernel) (svc : IpvsService) (dst : IpvsDestination) (k : String) :
    (K.putDest svc dst).dests k =
      if svcKey svc = k then (K.dests k).filter (!·.same dst) ++ [dst] else K.dests k := by
  unfold putDest dests
  rw [Std.TreeMap.getElem?_insert]
  by_cases h : svcKey svc = k
  · simp [h]
  · simp [h]

theorem dests_dropDest (K : Kernel) (svc : IpvsService) (dst : IpvsDestination) (k : String) :
    (K.dropDest svc dst).dests k =
      if svcKey svc = k then (K.dests k).filter (!·.same dst) else K.dests k := by
  unfold dropDest dests
  split
  · next v hv =>
    rw [Std.TreeMap.getElem?_insert]
    by_cases h : svcKey svc = k
    · subst h
      simp [hv]
    · simp [h]
  · next hv =>
    by_cases h : svcKey svc = k
    · subst h
      simp [hv]
    · simp [h]

theorem dests_delService (K : Kernel) (svc : IpvsService) (k : String) :
    (K.upsert (.delService svc)).dests k = if svcKey svc = k then [] else K.dests k := by
  show ((K.destinations.erase (svcKey svc))[k]?).getD [] = _
  rw [Std.TreeMap.getElem?_erase]
  by_cases h : svcKey svc = k
  · simp [h]
  · simp [h, dests]

/-- Retaining the backends other than `dst` clears exactly the cell of `dst`. -/
theorem find?_filter_same (l : List IpvsDestination) (dst : IpvsDestination) (a : IpAddr)
    (p : UInt16) :
    (l.filter (!·.same dst)).find? (fun d => d.addr == a && d.port == p) =
      if dst.addr = a ∧ dst.port = p then none
      else l.find? (fun d => d.addr == a && d.port == p) := by
  rw [List.find?_filter]
  split
  · next h =>
    obtain ⟨rfl, rfl⟩ := h
    rw [List.find?_eq_none]
    intro d _
    cases hs : d.same dst with
    | true => simp
    | false => simpa [IpvsDestination.same] using hs
  · next h =>
    congr 1
    funext d
    by_cases hd : d.addr = a ∧ d.port = p
    · obtain ⟨rfl, rfl⟩ := hd
      have hs : d.same dst = false := by
        rw [Bool.eq_false_iff, Ne, IpvsDestination.same_iff]
        exact fun e => h ⟨e.1.symm, e.2.symm⟩
      simp [hs]
    · have : (d.addr == a && d.port == p) = false := by simpa using hd
      simp [this]

theorem writes_dest (k : String) (a : IpAddr) (p : UInt16) :
    Program.Writes upsert (fun K => K.dest k a p) (destWrite k a p) := by
  intro K c
  have hput : ∀ svc dst, (K.putDest svc dst).dest k a p =
      (if svcKey svc = k ∧ dst.addr = a ∧ dst.port = p then some (some dst) else none).getD
        (K.dest k a p) := by
    intro svc dst
    unfold dest
    rw [dests_putDest]
    by_cases hk : svcKey svc = k
    · rw [if_pos hk, List.find?_append, find?_filter_same]
      by_cases hd : dst.addr = a ∧ dst.port = p
      · simp [hk, hd]
      · have hd' : (dst.addr == a && dst.port == p) = false := by simpa using hd
        simp [hk, hd, hd']
    · simp [hk]
  cases c with
  | addDestination svc dst => exact hput svc dst
  | updateDestination svc dst => exact hput svc dst
  | delDestination svc dst =>
    show ((K.dropDest svc dst).dests k).find? _ = _
    rw [dests_dropDest]
    by_cases hk : svcKey svc = k
    · rw [if_pos hk, find?_filter_same]
      by_cases hd : dst.addr = a ∧ dst.port = p <;> simp [destWrite, hk, hd, dest]
    · simp [destWrite, hk, dest]
  | delService svc =>
    show ((K.upsert (.delService svc)).dests k).find? _ = _
    rw [dests_delService]
    by_cases hk : svcKey svc = k <;> simp [destWrite, hk, dest]
  | mangleAppend v6 chain args =>
    simp only [upsert, destWrite, Option.getD_none]
    split <;> rfl
  | _ => rfl

theorem inert_writes {c : Call} (hc : c.Inert) (k : String) (a : IpAddr) (p : UInt16)
    (link : String) (n : Nat) :
    serviceWrite k c = none ∧ destWrite k a p c = none ∧ addrWrite link a n c = none := by
  obtain ⟨hsvc, hdest, haddr⟩ := hc
  cases c with
  | addService | editService | delService => cases hsvc
  | addDestination | updateDestination | delDestination => cases hdest
  | addrAdd | addrDel => cases haddr
  | _ => exact ⟨rfl, rfl, rfl⟩

/-! ## Distinct backends -/

instance : Std.Symm fun d e : IpvsDestination => d.same e = false where
  symm d e h := by rw [IpvsDestination.same_comm]; exact h

/-- No service has two destinations with one backend. -/
def Unique (K : Kernel) : Prop :=
  ∀ k, (K.dests k).Pairwise fun d e => d.same e = false

theorem unique_empty : ({} : Kernel).Unique := by
  intro k
  simp [dests]

theorem upsert_unique {K : Kernel} (h : K.Unique) (c : Call) : (K.upsert c).Unique := by
  have hput : ∀ svc dst, (K.putDest svc dst).Unique := by
    intro svc dst k
    rw [dests_putDest]
    split
    · rw [List.pairwise_append]
      refine ⟨(h k).filter _, List.pairwise_singleton _ _, ?_⟩
      intro d hd e he
      obtain ⟨_, hsame⟩ := List.mem_filter.mp hd
      rw [List.mem_singleton.mp he]
      simpa using hsame
    · exact h k
  cases c with
  | addDestination svc dst => exact hput svc dst
  | updateDestination svc dst => exact hput svc dst
  | delDestination svc dst =>
    intro k
    show ((K.dropDest svc dst).dests k).Pairwise _
    rw [dests_dropDest]
    split
    · exact (h k).filter _
    · exact h k
  | delService svc =>
    intro k
    rw [dests_delService]
    split
    · exact List.Pairwise.nil
    · exact h k
  | mangleAppend v6 chain args =>
    simp only [upsert]
    split <;> exact h
  | _ => exact h

theorem foldl_unique {K : Kernel} (h : K.Unique) (calls : List Call) :
    (calls.foldl upsert K).Unique := by
  induction calls generalizing K with
  | nil => exact h
  | cons c calls ih => exact ih (upsert_unique h c)

theorem mem_dests_iff {K : Kernel} (h : K.Unique) (k : String) (d : IpvsDestination) :
    d ∈ K.dests k ↔ K.dest k d.addr d.port = some d := by
  constructor
  · intro hd
    have hex : ∃ e, K.dest k d.addr d.port = some e := by
      rw [← Option.isSome_iff_exists, dest, List.find?_isSome]
      exact ⟨d, hd, by simp⟩
    obtain ⟨e, he⟩ := hex
    have hsame : e.addr = d.addr ∧ e.port = d.port := by simpa using List.find?_some he
    have hmem : e ∈ K.dests k := List.mem_of_find?_eq_some he
    -- two destinations with one backend are the same one
    have heq : e = d := by
      by_contra hne
      have hdiff : e.same d = false := (h k).forall hmem hd hne
      rw [IpvsDestination.same_iff.mpr hsame] at hdiff
      exact absurd hdiff (by simp)
    rw [← heq] at he ⊢
    exact he
  · intro hd
    exact List.mem_of_find?_eq_some hd

theorem dest_eq_some_iff {K : Kernel} (h : K.Unique) {k : String} {a : IpAddr} {p : UInt16}
    {d : IpvsDestination} : K.dest k a p = some d ↔ d ∈ K.dests k ∧ d.addr = a ∧ d.port = p := by
  constructor
  · intro hd
    obtain ⟨rfl, rfl⟩ : d.addr = a ∧ d.port = p := by simpa using List.find?_some hd
    exact ⟨(mem_dests_iff h k d).mpr hd, rfl, rfl⟩
  · intro ⟨hd, ha, hp⟩
    rw [← ha, ← hp]
    exact (mem_dests_iff h k d).mp hd

end Kernel

end KubeRouter.Proxy
