/-
  The FWMARK registry of DSR services over any history of assignments and removals
  (`FwMarkRegistry` in `proxy/src/dsr.rs`).

  `assign` is open addressing: the mark of an identity is the first one of its salted hashes
  that is free or its own already. `lookup_by_service` takes the lowest mark of an identity,
  `lookup_by_fwmark` cuts the stored key at its dashes. The texts of addresses have no dash, so
  the key of an identity can be cut into its parts again.

  Proved:
  * `registry_bijective_iff`: over every history, the registry is a bijection in every state if
    and only if every removed mark is visited by no other held identity's probe sequence in
    front of its own mark.
  * `second_mark_after_remove`: two services with one hash, the first of which is removed; the
    second one then gets a second mark.
  * `marks_nonzero_iff`: over every history, no mark handed out is zero if and only if every
    assigned identity finds a slot in front of its first hash that is zero.
  * `zero_mark`: a service whose hash is zero.
-/
import Std.Data.String.ToNat
import KubeRouter.Common.Text
import KubeRouter.Lib.Probing
import KubeRouter.Lib.System
import KubeRouter.Proxy.Sync

namespace KubeRouter.Proxy

open Probing

/-! ## Lookups -/

/-- The arguments that name a service. -/
structure Identity where
  ip : String
  proto : Protocol
  port : UInt16
deriving DecidableEq, Repr

def Identity.key (id : Identity) : String := serviceKey id.ip id.proto id.port

namespace FwMarkRegistry

def lookupByService (reg : FwMarkRegistry) (id : Identity) : Option UInt32 :=
  (reg.toList.find? fun entry => entry.2 == id.key).map (·.1)

def lookupByFwmark (reg : FwMarkRegistry) (fwmark : UInt32) :
    Option (String × String × UInt16) := do
  let key ← reg[fwmark]?
  match key.toList.splitOn '-' with
  | [ip, proto, port] => do
    let port ← Text.parseU16 port
    return (String.ofList ip, String.ofList proto, port)
  | _ => none

def remove (reg : FwMarkRegistry) (fwmark : UInt32) : FwMarkRegistry := reg.erase fwmark

end FwMarkRegistry

/-! ## Keys -/

/-- Digits, letters of a hexadecimal number, dots and colons. -/
def isAddressChar (c : Char) : Bool :=
  c.isDigit || ('a' ≤ c && c ≤ 'f') || ('A' ≤ c && c ≤ 'F') || c == '.' || c == ':'

/-- The characters of an address text. -/
def AddressText (text : String) : Prop := ∀ c ∈ text.toList, isAddressChar c = true

theorem addressText_append {s t : String} (hs : AddressText s) (ht : AddressText t) :
    AddressText (s ++ t) := by
  intro c hc
  rw [String.toList_append] at hc
  obtain hc | hc := List.mem_append.mp hc
  · exact hs c hc
  · exact ht c hc

theorem addressText_intercalate {sep : String} (hsep : AddressText sep) (l : List String)
    (hl : ∀ s ∈ l, AddressText s) : AddressText (sep.intercalate l) := by
  induction l with
  | nil =>
    rw [String.intercalate_nil]
    intro c hc
    exact absurd hc List.not_mem_nil
  | cons s l ih =>
    have htail := ih fun t ht => hl t (List.mem_cons_of_mem s ht)
    have hs := hl s List.mem_cons_self
    cases l with
    | nil =>
      rw [String.intercalate_singleton]
      exact hs
    | cons t l =>
      rw [String.intercalate_cons_cons]
      exact addressText_append (addressText_append hs hsep) htail

theorem isAddressChar_digitChar (n : Nat) : isAddressChar (Nat.digitChar (n % 16)) = true := by
  have h : ∀ d < 16, isAddressChar (Nat.digitChar d) = true := by decide
  exact h (n % 16) (Nat.mod_lt n (by decide))

theorem addressText_hex (n : Nat) : AddressText (String.ofList (Nat.toDigits 16 n)) := by
  -- the digits in front of the accumulator
  have hcore : ∀ fuel n ds, (∀ c ∈ ds, isAddressChar c = true) →
      ∀ c ∈ Nat.toDigitsCore 16 fuel n ds, isAddressChar c = true := by
    intro fuel
    induction fuel with
    | zero =>
      intro n ds hds
      exact hds
    | succ fuel ih =>
      intro n ds hds
      have hcons : ∀ c ∈ Nat.digitChar (n % 16) :: ds, isAddressChar c = true :=
        List.forall_mem_cons.mpr ⟨isAddressChar_digitChar n, hds⟩
      unfold Nat.toDigitsCore
      dsimp only
      split
      · exact hcons
      · exact ih (n / 16) _ hcons
  intro c hc
  rw [String.toList_ofList] at hc
  exact hcore _ n [] (fun _ h => absurd h List.not_mem_nil) c hc

theorem addressText_nat (n : Nat) : AddressText (toString n) := by
  intro c hc
  have hdigit : c.isDigit = true :=
    Nat.isDigit_of_mem_toDigits (by decide) (by decide) (Nat.toList_repr ▸ hc)
  simp [isAddressChar, hdigit]

theorem addressText_v4Text (a : BitVec 32) : AddressText (IpAddr.v4Text a) := by
  unfold IpAddr.v4Text
  refine addressText_intercalate (by simp [AddressText, isAddressChar]) _ fun s hs => ?_
  obtain ⟨i, _, rfl⟩ := List.mem_map.mp hs
  exact addressText_nat _

theorem addressText_hexJoin (segs : List Nat) : AddressText (IpAddr.hexJoin segs) := by
  unfold IpAddr.hexJoin
  refine addressText_intercalate (by simp [AddressText, isAddressChar]) _ fun s hs => ?_
  obtain ⟨n, _, rfl⟩ := List.mem_map.mp hs
  exact addressText_hex n

/-- The text of an address is an address text. -/
theorem addressText_toText (ip : IpAddr) : AddressText ip.toText := by
  cases ip with
  | V4 a => exact addressText_v4Text a
  | V6 a =>
    show AddressText (IpAddr.v6Text a)
    unfold IpAddr.v6Text
    dsimp only
    split
    · exact addressText_append (by simp [AddressText, isAddressChar]) (addressText_v4Text _)
    · split
      · exact addressText_append (addressText_append (addressText_hexJoin _)
          (by simp [AddressText, isAddressChar])) (addressText_hexJoin _)
      · exact addressText_hexJoin _

/-- The parts of a key. -/
def Identity.parts (id : Identity) : List (List Char) :=
  [id.ip.toList, (protoName id.proto).toList, (toString id.port.toNat).toList]

theorem toList_key (id : Identity) : id.key.toList = ['-'].intercalate id.parts := by
  simp [Identity.key, serviceKey, Identity.parts, List.intercalate]

theorem digits_of_port (port : UInt16) :
    (toString port.toNat).toList = Nat.toDigits 10 port.toNat := Nat.toList_repr

theorem parts_no_dash {id : Identity} (h : AddressText id.ip) : ∀ l ∈ id.parts, '-' ∉ l := by
  intro l hl hdash
  simp only [Identity.parts, List.mem_cons, List.not_mem_nil, or_false] at hl
  obtain rfl | rfl | rfl := hl
  · exact absurd (h '-' hdash) (by decide)
  · revert hdash
    cases id.proto <;> decide
  · rw [digits_of_port] at hdash
    exact absurd (Nat.isDigit_of_mem_toDigits (by decide) (by decide) hdash) (by decide)

theorem splitOn_key {id : Identity} (h : AddressText id.ip) :
    id.key.toList.splitOn '-' = id.parts := by
  rw [toList_key]
  exact List.splitOn_intercalate '-' (parts_no_dash h) (by simp [Identity.parts])

theorem protoName_injective : Function.Injective protoName := by
  intro p q
  cases p <;> cases q <;> decide

/-- The key of an identity tells its parts. -/
theorem key_injective {id id' : Identity} (h : AddressText id.ip) (h' : AddressText id'.ip)
    (hkey : id.key = id'.key) : id = id' := by
  have hparts : id.parts = id'.parts := by
    rw [← splitOn_key h, ← splitOn_key h', hkey]
  simp only [Identity.parts, List.cons.injEq, and_true] at hparts
  obtain ⟨hip, hproto, hport⟩ := hparts
  have hip : id.ip = id'.ip := String.toList_inj.mp hip
  have hproto : id.proto = id'.proto := protoName_injective (String.toList_inj.mp hproto)
  have hport : id.port = id'.port :=
    UInt16.toNat_inj.mp (Nat.repr_injective (String.toList_inj.mp hport))
  cases id
  cases id'
  simp_all

/-! ## Assignments as slots -/

namespace FwMarkRegistry

/-- The registry as a table of slots. -/
def slots (reg : FwMarkRegistry) (m : UInt32) : Option String := reg[m]?

theorem slots_insert (reg : FwMarkRegistry) (m : UInt32) (key : String) :
    slots (reg.insert m key) = Function.update (slots reg) m (some key) :=
  funext fun x => Program.get_insert reg m x key

theorem slots_remove (reg : FwMarkRegistry) (m : UInt32) :
    slots (remove reg m) = Function.update (slots reg) m none :=
  funext fun x => Program.get_erase reg m x

/-- The text of `FwMarkExhausted`. -/
def exhausted (key : String) : String :=
  "could not obtain a unique FWMark for " ++ key ++ " after " ++ toString maxUniqueFwmarkInc ++
    " tries"

theorem assignFrom_eq_search (reg : FwMarkRegistry) (key : String) (tries i : Nat) :
    assignFrom reg key tries i = match search generateFwmark (slots reg) key tries i with
      | some m => .ok m
      | none => .error (exhausted key) := by
  induction tries generalizing i with
  | zero => rfl
  | succ tries ih =>
    unfold assignFrom search blocked slots
    dsimp only
    cases hslot : reg[generateFwmark key i]? with
    | none => rfl
    | some found =>
      by_cases heq : found = key
      · simp [heq]
      · have hsearch := ih (i + 1)
        simp only [bne_iff_ne, ne_eq, heq, not_false_eq_true, if_true, decide_true]
        exact hsearch

/-- The slot `assign` takes for a key. -/
def slotFor (reg : FwMarkRegistry) (key : String) : Option UInt32 :=
  search generateFwmark (slots reg) key maxUniqueFwmarkInc 0

theorem assign_eq (reg : FwMarkRegistry) (id : Identity) :
    reg.assign id.ip id.proto id.port = match slotFor reg id.key with
      | some m => .ok (m, reg.insert m id.key)
      | none => .error (exhausted id.key) := by
  unfold FwMarkRegistry.assign slotFor
  dsimp only
  rw [show serviceKey id.ip id.proto id.port = id.key from rfl, assignFrom_eq_search]
  cases search generateFwmark (slots reg) id.key maxUniqueFwmarkInc 0 with
  | none => rfl
  | some m => rfl

/-- Every key comes from an identity with an address text. -/
def Named (reg : FwMarkRegistry) : Prop :=
  ∀ m key, slots reg m = some key → ∃ id : Identity, AddressText id.ip ∧ key = id.key

theorem lookupByFwmark_eq {reg : FwMarkRegistry} {m : UInt32} {id : Identity}
    (h : AddressText id.ip) (hm : slots reg m = some id.key) :
    reg.lookupByFwmark m = some (id.ip, protoName id.proto, id.port) := by
  unfold lookupByFwmark
  rw [show reg[m]? = some id.key from hm]
  simp only [Option.bind_eq_bind, Option.bind_some]
  rw [splitOn_key h]
  show ((Text.parseU16 (toString id.port.toNat).toList).bind fun port =>
    some (String.ofList id.ip.toList, String.ofList (protoName id.proto).toList, port)) = _
  rw [digits_of_port, Text.parseU16_toDigits]
  simp

theorem lookupByFwmark_none {reg : FwMarkRegistry} {m : UInt32} (hm : slots reg m = none) :
    reg.lookupByFwmark m = none := by
  unfold lookupByFwmark
  rw [show reg[m]? = none from hm]
  rfl

/-- A mark reported for a service holds its key. -/
theorem slots_of_lookupByService {reg : FwMarkRegistry} {id : Identity} {m : UInt32}
    (h : reg.lookupByService id = some m) : slots reg m = some id.key := by
  obtain ⟨⟨m', key⟩, hfind, rfl⟩ := Option.map_eq_some_iff.mp h
  have hmem := Std.TreeMap.mem_toList_iff_getElem?_eq_some.mp (List.mem_of_find?_eq_some hfind)
  have hkey : key = id.key := by simpa using List.find?_some hfind
  exact hkey ▸ hmem

theorem lookupByService_isSome {reg : FwMarkRegistry} {id : Identity} {m : UInt32}
    (h : slots reg m = some id.key) : (reg.lookupByService id).isSome = true := by
  unfold lookupByService
  rw [Option.isSome_map, List.find?_isSome]
  exact ⟨(m, id.key), Std.TreeMap.mem_toList_iff_getElem?_eq_some.mpr h, by simp⟩

/-! ## Bijection -/

/-- What is asked of a registry. -/
structure Bijective (reg : FwMarkRegistry) : Prop where
  /-- Distinct identities hold distinct marks. -/
  distinct : ∀ (id id' : Identity) m, AddressText id.ip → AddressText id'.ip →
    slots reg m = some id.key → slots reg m = some id'.key → id = id'
  /-- An identity holds at most one mark. -/
  single : ∀ (id : Identity) m m', AddressText id.ip → slots reg m = some id.key →
    slots reg m' = some id.key → m = m'
  /-- Assigning an identity that holds a mark returns it and leaves the map unchanged. -/
  stable : ∀ (id : Identity) m, AddressText id.ip → slots reg m = some id.key →
    ∃ reg', reg.assign id.ip id.proto id.port = .ok (m, reg') ∧ slots reg' = slots reg
  /-- The lookups are inverse to each other. -/
  inverse : ∀ (id : Identity) m, AddressText id.ip → (reg.lookupByService id = some m ↔
    reg.lookupByFwmark m = some (id.ip, protoName id.proto, id.port))
  /-- A removed mark is reported by neither lookup. -/
  removed : ∀ m, (remove reg m).lookupByFwmark m = none ∧
    ∀ id, (remove reg m).lookupByService id ≠ some m
  /-- `assign` returns a mark or the error for exhaustion. -/
  returns : ∀ id : Identity, (∃ m reg', reg.assign id.ip id.proto id.port = .ok (m, reg')) ∨
    reg.assign id.ip id.proto id.port = .error (exhausted id.key)

/-- Every held key is found in its own slot. -/
abbrev Anchored (reg : FwMarkRegistry) : Prop :=
  Rooted generateFwmark maxUniqueFwmarkInc (slots reg)

theorem assign_slot {reg : FwMarkRegistry} {id : Identity} {m : UInt32} {r : FwMarkRegistry}
    (h : reg.assign id.ip id.proto id.port = .ok (m, r)) :
    slotFor reg id.key = some m ∧ r = reg.insert m id.key := by
  rw [assign_eq] at h
  split at h
  · next m' hslot =>
    cases h
    exact ⟨hslot, rfl⟩
  · cases h

theorem bijective_iff {reg : FwMarkRegistry} (hnamed : Named reg) :
    Bijective reg ↔ Anchored reg := by
  constructor
  · intro h m key hm
    obtain ⟨id, hid, rfl⟩ := hnamed m key hm
    obtain ⟨reg', hassign, _⟩ := h.stable id m hid hm
    exact (assign_slot hassign).1
  · intro hroot
    refine ⟨?_, ?_, ?_, ?_, ?_, ?_⟩
    · intro id id' m hid hid' hm hm'
      rw [hm] at hm'
      exact key_injective hid hid' (Option.some.inj hm')
    · intro id m m' _ hm hm'
      exact hroot.unique hm hm'
    · intro id m _ hm
      refine ⟨reg.insert m id.key, ?_, ?_⟩
      · rw [assign_eq, show slotFor reg id.key = some m from hroot m id.key hm]
      · rw [slots_insert, ← hm, Function.update_eq_self]
    · intro id m hid
      constructor
      · intro h
        exact lookupByFwmark_eq hid (slots_of_lookupByService h)
      · intro h
        cases hm : slots reg m with
        | none =>
          rw [lookupByFwmark_none hm] at h
          cases h
        | some key =>
          obtain ⟨id', hid', rfl⟩ := hnamed m key hm
          rw [lookupByFwmark_eq hid' hm] at h
          have hsame : id' = id := by
            simp only [Option.some.injEq, Prod.mk.injEq] at h
            obtain ⟨hip, hproto, hport⟩ := h
            have hproto := protoName_injective hproto
            cases id
            cases id'
            simp_all
          subst hsame
          obtain ⟨m', hm'⟩ := Option.isSome_iff_exists.mp (lookupByService_isSome hm)
          rw [hm', hroot.unique (slots_of_lookupByService hm') hm]
    · intro m
      have hnone : slots (remove reg m) m = none := by
        rw [slots_remove, Function.update_self]
      refine ⟨lookupByFwmark_none hnone, fun id h => ?_⟩
      have hsome := slots_of_lookupByService h
      rw [hnone] at hsome
      cases hsome
    · intro id
      rw [assign_eq]
      cases slotFor reg id.key with
      | none => exact Or.inr rfl
      | some m => exact Or.inl ⟨m, _, rfl⟩

/-! ## Histories -/

end FwMarkRegistry

inductive RegistryOp where
  | assign (id : Identity)
  | remove (fwmark : UInt32)
deriving DecidableEq, Repr

/-- An identity is given by an address text. -/
def RegistryOp.Valid : RegistryOp → Prop
  | .assign id => AddressText id.ip
  | .remove _ => True

namespace FwMarkRegistry

/-- A call on the registry; an `assign` that fails leaves it as it is. -/
def step (reg : FwMarkRegistry) : RegistryOp → Option FwMarkRegistry
  | .assign id =>
    match reg.assign id.ip id.proto id.port with
    | .ok (_, reg') => some reg'
    | .error _ => some reg
  | .remove fwmark => some (remove reg fwmark)

/-- A removed mark is not on the way of any other held identity to its own mark. -/
def SafeRemove (reg : FwMarkRegistry) : RegistryOp → Prop
  | .assign _ => True
  | .remove fwmark => Unvisited generateFwmark maxUniqueFwmarkInc (slots reg) fwmark

theorem slots_assign (reg : FwMarkRegistry) (id : Identity) :
    step reg (.assign id) = some reg ∨ ∃ m, slotFor reg id.key = some m ∧
      step reg (.assign id) = some (reg.insert m id.key) := by
  simp only [step]
  cases h : reg.assign id.ip id.proto id.port with
  | error e => exact Or.inl rfl
  | ok res =>
    obtain ⟨hslot, hreg⟩ := assign_slot (m := res.1) (r := res.2) h
    exact Or.inr ⟨res.1, hslot, congrArg some hreg⟩

theorem named_step {reg reg' : FwMarkRegistry} {op : RegistryOp} (h : Named reg)
    (hop : op.Valid) (hstep : step reg op = some reg') : Named reg' := by
  cases op with
  | assign id =>
    obtain hsame | ⟨m, _, hnew⟩ := slots_assign reg id
    · rw [hsame] at hstep
      cases hstep
      exact h
    · rw [hnew] at hstep
      cases hstep
      intro x key hx
      rw [slots_insert] at hx
      by_cases hxm : x = m
      · rw [hxm, Function.update_self] at hx
        cases hx
        exact ⟨id, hop, rfl⟩
      · rw [Function.update_of_ne hxm] at hx
        exact h x key hx
  | remove fwmark =>
    cases hstep
    intro x key hx
    rw [slots_remove] at hx
    by_cases hxm : x = fwmark
    · rw [hxm, Function.update_self] at hx
      cases hx
    · rw [Function.update_of_ne hxm] at hx
      exact h x key hx

/-- A step keeps an anchored registry anchored exactly when it is safe. -/
theorem anchored_step_iff {reg reg' : FwMarkRegistry} {op : RegistryOp} (h : Anchored reg)
    (hstep : step reg op = some reg') : Anchored reg' ↔ SafeRemove reg op := by
  cases op with
  | assign id =>
    refine iff_of_true ?_ trivial
    obtain hsame | ⟨m, hslot, hnew⟩ := slots_assign reg id
    · rw [hsame] at hstep
      cases hstep
      exact h
    · rw [hnew] at hstep
      cases hstep
      unfold Anchored
      rw [slots_insert]
      exact Rooted.insert h hslot
  | remove fwmark =>
    cases hstep
    unfold Anchored
    rw [slots_remove]
    exact Rooted.remove_iff h fwmark

theorem step_isSome (reg : FwMarkRegistry) (op : RegistryOp) : ∃ reg', step reg op = some reg' := by
  cases op with
  | assign id =>
    obtain h | ⟨m, _, h⟩ := slots_assign reg id
    · exact ⟨_, h⟩
    · exact ⟨_, h⟩
  | remove fwmark => exact ⟨_, rfl⟩

theorem anchored_empty : Anchored (∅ : FwMarkRegistry) := by
  intro m key h
  simp [slots] at h

theorem named_empty : Named (∅ : FwMarkRegistry) := by
  intro m key h
  simp [slots] at h

/-- From an anchored registry, all states of a history are bijections exactly when all its
removals are safe. -/
theorem bijective_run_iff {reg : FwMarkRegistry} (hnamed : Named reg) (h : Anchored reg)
    (ops : List RegistryOp) (hops : ∀ op ∈ ops, op.Valid) :
    (∀ before reg', before <+: ops → System.run step reg before = some reg' → Bijective reg') ↔
      System.Meets step SafeRemove reg ops := by
  induction ops generalizing reg with
  | nil =>
    refine iff_of_true ?_ ?_
    · intro before reg' hpre hrun
      rw [List.prefix_nil.mp hpre] at hrun
      cases hrun
      exact (bijective_iff hnamed).mpr h
    · intro before op t hpre
      simp at hpre
  | cons op ops ih =>
    obtain ⟨next, hnext⟩ := step_isSome reg op
    have hnamed' := named_step hnamed (hops op List.mem_cons_self) hnext
    have hanchor := anchored_step_iff h hnext
    have htail := fun hn => ih hnamed' hn fun o ho => hops o (List.mem_cons_of_mem op ho)
    rw [System.meets_cons]
    constructor
    · intro hall
      have hfirst : Anchored next := by
        refine (bijective_iff hnamed').mp (hall [op] next ?_ ?_)
        · exact List.cons_prefix_cons.mpr ⟨rfl, List.nil_prefix⟩
        · show (step reg op).bind _ = _
          rw [hnext]
          rfl
      refine ⟨hanchor.mp hfirst, fun t ht => ?_⟩
      rw [hnext] at ht
      cases ht
      refine (htail hfirst).mp fun before reg' hpre hrun => ?_
      refine hall (op :: before) reg' (List.cons_prefix_cons.mpr ⟨rfl, hpre⟩) ?_
      show (step reg op).bind _ = _
      rw [hnext]
      exact hrun
    · intro ⟨hsafe, hrest⟩ before reg' hpre hrun
      cases before with
      | nil =>
        cases hrun
        exact (bijective_iff hnamed).mpr h
      | cons o before =>
        obtain ⟨rfl, htailpre⟩ := List.cons_prefix_cons.mp hpre
        obtain ⟨t, ht, hrun⟩ := Option.bind_eq_some_iff.mp hrun
        rw [hnext] at ht
        cases ht
        exact (htail (hanchor.mpr hsafe)).mpr (hrest next hnext) before reg' htailpre hrun

end FwMarkRegistry

/-- Over every history of assignments and removals, the registry is a bijection in every state
reached if and only if every removed mark is visited by no other held identity in front of its
own mark. -/
theorem registry_bijective_iff (ops : List RegistryOp)
    (hops : ∀ op ∈ ops, op.Valid) :
    (∀ before reg, before <+: ops →
      System.run FwMarkRegistry.step ∅ before = some reg → FwMarkRegistry.Bijective reg) ↔
      System.Meets FwMarkRegistry.step FwMarkRegistry.SafeRemove ∅ ops :=
  FwMarkRegistry.bijective_run_iff FwMarkRegistry.named_empty FwMarkRegistry.anchored_empty ops hops

/-! ## Two services with one hash -/

section Sample

def firstService : Identity := ⟨(IpAddr.ofOctets 10 96 3 19).toText, .Tcp, 80⟩

/-- Hashes like `firstService`. -/
def secondService : Identity := ⟨(IpAddr.ofOctets 10 96 0 36).toText, .Tcp, 80⟩

/-- Both services, then the first one goes. -/
def collision : List RegistryOp := [.assign firstService, .assign secondService, .remove 2527]

/-- One service comes, goes and comes back. -/
def comeAndGo : List RegistryOp := [.assign firstService, .remove 2527, .assign firstService]

theorem collision_valid : ∀ op ∈ collision, op.Valid :=
  List.forall_mem_cons.mpr ⟨addressText_toText _, List.forall_mem_cons.mpr
    ⟨addressText_toText _, List.forall_mem_singleton.mpr trivial⟩⟩

/-- The registry of `firstService` alone. -/
theorem run_firstService :
    (System.run FwMarkRegistry.step ∅ [.assign firstService]).map (·.toList) =
      some [(2527, firstService.key)] := by
  decide +kernel

end Sample

/-- A service that comes, goes and comes back, alone in the registry. -/
theorem comeAndGo_bijective : (∀ op ∈ comeAndGo, op.Valid) ∧ ∀ before reg, before <+: comeAndGo →
    System.run FwMarkRegistry.step ∅ before = some reg → FwMarkRegistry.Bijective reg := by
  have hvalid : ∀ op ∈ comeAndGo, op.Valid :=
    List.forall_mem_cons.mpr ⟨addressText_toText _, List.forall_mem_cons.mpr ⟨trivial,
      List.forall_mem_singleton.mpr (addressText_toText _)⟩⟩
  refine ⟨hvalid, (registry_bijective_iff comeAndGo hvalid).mpr ?_⟩
  refine System.meets_cons.mpr ⟨trivial, fun reg hreg => ?_⟩
  refine System.meets_cons.mpr ⟨?_, fun reg' _ => System.meets_cons.mpr ⟨trivial, ?_⟩⟩
  · have hlist := run_firstService
    rw [show System.run FwMarkRegistry.step ∅ [.assign firstService] = some reg from by
      show (FwMarkRegistry.step ∅ (.assign firstService)).bind _ = _
      rw [hreg]
      rfl] at hlist
    have hlist : reg.toList = [(2527, firstService.key)] := Option.some.inj hlist
    intro m k hm hne
    have hmem := Std.TreeMap.mem_toList_iff_getElem?_eq_some.mpr hm
    rw [hlist] at hmem
    exact absurd (congrArg Prod.fst (List.mem_singleton.mp hmem)) hne
  · intro _ _ before op t hpre
    simp at hpre

theorem second_mark_after_remove :
    ¬∀ ops : List RegistryOp, (∀ op ∈ ops, op.Valid) →
      ∀ before reg, before <+: ops → System.run FwMarkRegistry.step ∅ before = some reg →
        FwMarkRegistry.Bijective reg := by
  intro h
  have hend : (System.run FwMarkRegistry.step ∅ collision).map (fun reg =>
      (reg.slots 7749, (reg.assign secondService.ip .Tcp 80).toOption.map (·.1))) =
      some (some secondService.key, some 2527) := by
    decide +kernel
  obtain ⟨reg, hrun, hboth⟩ := Option.map_eq_some_iff.mp hend
  obtain ⟨hheld, hassign⟩ := Prod.mk.inj hboth
  obtain ⟨reg', hsame, _⟩ :=
      (h collision collision_valid collision reg (List.prefix_refl _) hrun).stable
    secondService 7749 (addressText_toText _) hheld
  rw [show reg.assign secondService.ip .Tcp 80 = .ok (7749, reg') from hsame] at hassign
  have hmark : (7749 : UInt32) = 2527 := Option.some.inj hassign
  exact absurd hmark (by decide)

/-! ## The mark zero -/

namespace FwMarkRegistry

/-- A mark that is handed out is one the kernel can tell from none. -/
def HandsOutMark (reg : FwMarkRegistry) : RegistryOp → Prop
  | .assign id => ∀ m reg', reg.assign id.ip id.proto id.port = .ok (m, reg') → 1 ≤ m ∧ m ≤ 0x3FFF
  | .remove _ => True

/-- In front of every salted hash of the identity that is zero there is one whose slot is free or
its own. -/
def PassesZero (reg : FwMarkRegistry) : RegistryOp → Prop
  | .assign id => ∀ j < maxUniqueFwmarkInc, generateFwmark id.key j = 0 →
      ∃ i < j, blocked (slots reg) id.key (generateFwmark id.key i) = false
  | .remove _ => True

theorem generateFwmark_le (key : String) (i : Nat) : generateFwmark key i ≤ 0x3FFF :=
  UInt32.and_le_right

theorem handsOutMark_of_passesZero {reg : FwMarkRegistry} {op : RegistryOp}
    (h : PassesZero reg op) : HandsOutMark reg op := by
  cases op with
  | remove fwmark => trivial
  | assign id =>
    intro m reg' hassign
    obtain ⟨j, -, hj, rfl, -, hbefore⟩ := (search_eq_some_iff _ 0).mp (assign_slot hassign).1
    refine ⟨?_, generateFwmark_le id.key j⟩
    by_contra hzero
    have hzero : generateFwmark id.key j = 0 := by
      apply UInt32.toNat_inj.mp
      rw [UInt32.le_iff_toNat_le] at hzero
      simp at hzero ⊢
      omega
    obtain ⟨i, hi, hfree⟩ := h j (by omega) hzero
    rw [hbefore i (Nat.zero_le i) hi] at hfree
    cases hfree

/-- While the slot of the mark zero is free, an identity that comes to it is given it. -/
theorem passesZero_of_handsOutMark {reg : FwMarkRegistry} {op : RegistryOp}
    (hfree : slots reg 0 = none) (h : HandsOutMark reg op) : PassesZero reg op := by
  cases op with
  | remove fwmark => trivial
  | assign id =>
    intro j hj hzero
    by_contra hnone
    have hslot : slotFor reg id.key = some 0 := by
      refine (search_eq_some_iff _ 0).mpr ⟨j, Nat.zero_le j, by omega, hzero, ?_, fun i _ hi => ?_⟩
      · unfold blocked
        rw [hfree]
      · by_contra hblocked
        exact hnone ⟨i, hi, by simpa using hblocked⟩
    have hassign := assign_eq reg id
    rw [hslot] at hassign
    exact absurd (h 0 _ hassign).1 (by decide)

/-- A step that hands out no zero leaves its slot free. -/
theorem slot_zero_free_step {reg reg' : FwMarkRegistry} {op : RegistryOp}
    (hfree : slots reg 0 = none) (h : HandsOutMark reg op) (hstep : step reg op = some reg') :
    slots reg' 0 = none := by
  cases op with
  | assign id =>
    obtain hsame | ⟨m, hslot, hnew⟩ := slots_assign reg id
    · rw [hsame] at hstep
      cases hstep
      exact hfree
    · rw [hnew] at hstep
      cases hstep
      have hassign := assign_eq reg id
      rw [hslot] at hassign
      have hpos := (h m _ hassign).1
      have hne : (0 : UInt32) ≠ m := by
        rintro rfl
        exact absurd hpos (by decide)
      rw [slots_insert, Function.update_of_ne hne]
      exact hfree
  | remove fwmark =>
    cases hstep
    rw [slots_remove]
    by_cases heq : 0 = fwmark
    · rw [heq, Function.update_self]
    · rw [Function.update_of_ne heq]
      exact hfree

end FwMarkRegistry

/-- Over every history of assignments and removals, every mark handed out lies between 1 and 0x3FFF
if and only if every identity passes by the mark zero. -/
theorem marks_nonzero_iff (ops : List RegistryOp) :
    System.Meets FwMarkRegistry.step FwMarkRegistry.HandsOutMark ∅ ops ↔
      System.Meets FwMarkRegistry.step FwMarkRegistry.PassesZero ∅ ops := by
  constructor
  · intro h before op reg hpre hrun
    have hbefore : System.Meets FwMarkRegistry.step FwMarkRegistry.HandsOutMark ∅ before := by
      intro front o t hfront ht
      exact h front o t (hfront.trans ((List.prefix_append before [op]).trans hpre)) ht
    have hfree : FwMarkRegistry.slots reg 0 = none :=
      System.run_invariant (I := fun reg => FwMarkRegistry.slots reg 0 = none)
        (fun _ _ _ hfree hmark hstep => FwMarkRegistry.slot_zero_free_step hfree hmark hstep)
        (by simp [FwMarkRegistry.slots]) hbefore hrun
    exact FwMarkRegistry.passesZero_of_handsOutMark hfree (h before op reg hpre hrun)
  · intro h before op reg hpre hrun
    exact FwMarkRegistry.handsOutMark_of_passesZero (h before op reg hpre hrun)

/-- Its hash is zero in the low fourteen bits. -/
def zeroService : Identity := ⟨(IpAddr.ofOctets 10 96 12 63).toText, .Tcp, 80⟩

theorem zero_mark :
    ¬∀ ops, System.Meets FwMarkRegistry.step FwMarkRegistry.HandsOutMark ∅ ops := by
  intro h
  have hmark : (FwMarkRegistry.assign ∅ zeroService.ip .Tcp 80).toOption.map (·.1) = some 0 := by
    decide +kernel
  cases hassign : FwMarkRegistry.assign ∅ zeroService.ip .Tcp 80 with
  | error e =>
    rw [hassign] at hmark
    cases hmark
  | ok res =>
    rw [hassign] at hmark
    have hzero : res.1 = 0 := Option.some.inj hmark
    have hpos := (h [.assign zeroService] [] (.assign zeroService) ∅ List.prefix_rfl rfl
      res.1 res.2 hassign).1
    rw [hzero] at hpos
    exact absurd hpos (by decide)

end KubeRouter.Proxy
