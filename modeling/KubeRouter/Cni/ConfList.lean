/-
  The CNI configuration list (`cni/src/lib.rs`): its records, seeding the bridge plugin with the pod
  CIDRs of the node, and the list that the agent writes.

  A document stands for the text that `serde_json` reads and prints, and a number in it for the text
  of that number. What is read for it and what is printed for that are parameters, `read` and
  `print`; `num` is the number that a text stands for. Where a document has several faults, an
  unreadable number is reported before the others, and those in the order of the fields of a record.

  Proved:
  * `ConfList.toDoc_value`: what is written is what was read, but for null where a field may be
    missing.
  * `seed_conflist_frame_iff`: seeding keeps what it does not own when every number it leaves is
    read back as printed, and only then.
  * `seed_kuberouterConflist`: seeding the agent's own list with other CIDRs.
-/
import KubeRouter.Common.Line
import KubeRouter.Lib.JsonNumbers

namespace KubeRouter.Cni

open Json

inductive CniError where
  | Parse (reason : DecodeError)
  | NoBridgePlugin
deriving DecidableEq, Repr

variable {L N Q : Type}

/-! ## Records -/

structure Range (N : Type) where
  subnet : String
  extra : Rest N ["subnet"]

structure Ipam (N : Type) where
  ipamType : Option String
  ranges : Option (List (List (Range N)))
  extra : Rest N ["type", "ranges"]

structure Plugin (N : Type) where
  pluginType : String
  ipam : Option (Ipam N)
  extra : Rest N ["type", "ipam"]

structure ConfList (N : Type) where
  plugins : List (Plugin N)
  extra : Rest N ["plugins"]

namespace Range

def ofDoc (doc : Doc N) : Except DecodeError (Range N) := do
  let fields ← doc.asFields
  let subnet ← required Doc.asString "subnet" fields
  return { subnet, extra := .ofFields _ fields }

def toDoc (r : Range N) : Doc N := record [("subnet", some (.string r.subnet))] r.extra

end Range

namespace Ipam

def ofDoc (doc : Doc N) : Except DecodeError (Ipam N) := do
  let fields ← doc.asFields
  let ipamType ← optional Doc.asString "type" fields
  let ranges ← optional (Doc.listOf (Doc.listOf Range.ofDoc)) "ranges" fields
  return { ipamType, ranges, extra := .ofFields _ fields }

def rangesDoc (ranges : List (List (Range N))) : Doc N :=
  .array (ranges.map fun set => .array (set.map Range.toDoc))

def toDoc (ipam : Ipam N) : Doc N :=
  record [("type", ipam.ipamType.map .string), ("ranges", ipam.ranges.map rangesDoc)] ipam.extra

end Ipam

namespace Plugin

def ofDoc (doc : Doc N) : Except DecodeError (Plugin N) := do
  let fields ← doc.asFields
  let pluginType ← required Doc.asString "type" fields
  let ipam ← optional Ipam.ofDoc "ipam" fields
  return { pluginType, ipam, extra := .ofFields _ fields }

def toDoc (p : Plugin N) : Doc N :=
  record [("type", some (.string p.pluginType)), ("ipam", p.ipam.map Ipam.toDoc)] p.extra

end Plugin

namespace ConfList

def ofDoc (doc : Doc N) : Except DecodeError (ConfList N) := do
  let fields ← doc.asFields
  let plugins ← required (Doc.listOf Plugin.ofDoc) "plugins" fields
  return { plugins, extra := .ofFields _ fields }

def toDoc (c : ConfList N) : Doc N :=
  record [("plugins", some (.array (c.plugins.map Plugin.toDoc)))] c.extra

def parse (read : L → Option N) (doc : Doc L) : Except CniError (ConfList N) :=
  match doc.mapOption read with
  | none => .error (.Parse .numberOutOfRange)
  | some doc => (ofDoc doc).mapError .Parse

def toJson (print : N → L) (c : ConfList N) : Doc L := c.toDoc.map print

end ConfList

/-! ## Seeding -/

/-- One range set with one subnet for every CIDR. -/
def rangesOf (podCidrs : List IpNet) : List (List (Range N)) :=
  podCidrs.map fun c => [{ subnet := c.toText, extra := .empty }]

/-- The ipam of a plugin that has none. -/
def Ipam.hostLocal : Ipam N :=
  { ipamType := some "host-local", ranges := none, extra := .empty }

def Ipam.seed (podCidrs : List IpNet) (ipam : Ipam N) : Ipam N :=
  { ipam with
    ipamType := some (ipam.ipamType.getD "host-local")
    ranges := some (rangesOf podCidrs) }

def Plugin.isBridge (p : Plugin N) : Bool := p.pluginType == "bridge"

def Plugin.seed (podCidrs : List IpNet) (bridge : Plugin N) : Plugin N :=
  { bridge with ipam := some ((bridge.ipam.getD .hostLocal).seed podCidrs) }

/-- The first bridge plugin is seeded. -/
def ConfList.seedPodCidrs (podCidrs : List IpNet) (c : ConfList N) : Except CniError (ConfList N) :=
  if c.plugins.any Plugin.isBridge then
    .ok { c with plugins := Collect.modifyFirst Plugin.isBridge (Plugin.seed podCidrs) c.plugins }
  else .error .NoBridgePlugin

def seedConflist (read : L → Option N) (print : N → L) (doc : Doc L) (podCidrs : List IpNet) :
    Except CniError (Doc L) := do
  let c ← ConfList.parse read doc
  let c ← c.seedPodCidrs podCidrs
  return c.toJson print

/-- The ipam of the agent's own list. -/
def kuberouterIpam (podCidrs : List IpNet) : Doc N :=
  .object [
    ("ranges", .array (podCidrs.map fun c => .array [.object [("subnet", .string c.toText)]])),
    ("type", .string "host-local")]

def kuberouterBridge (podCidrs : List IpNet) : Doc N :=
  .object [
    ("bridge", .string "kube-bridge"),
    ("hairpinMode", .bool true),
    ("ipam", kuberouterIpam podCidrs),
    ("isDefaultGateway", .bool true),
    ("type", .string "bridge")]

/-- The list that `write_conflist` writes, with its keys in order. -/
def kuberouterConflist (podCidrs : List IpNet) : Doc N :=
  .object [
    ("cniVersion", .string "1.0.0"),
    ("name", .string "kube-router-rs"),
    ("plugins", .array [kuberouterBridge podCidrs, .object [("type", .string "loopback")]])]

/-! ## What seeding is for -/

def readIpam (v : Value N) : Value N := (v.update "ranges" present).update "type" present

def readPlugin (v : Value N) : Value N := v.update "ipam" fun ipam => (present ipam).map readIpam

/-- The value of a document, without null where a field of the records may be missing. -/
def readConf (v : Value N) : Value N :=
  v.update "plugins" (Option.map (Value.onItems (List.map readPlugin)))

def rangesValue (podCidrs : List IpNet) : Value N :=
  .array (podCidrs.map fun c =>
    .array [.object (Function.update (fun _ => none) "subnet" (some (.string c.toText)))])

/-- The ranges are those of the CIDRs, and the type is `host-local` where there is none. -/
def seedIpam (podCidrs : List IpNet) (ipam : Option (Value N)) : Value N :=
  ((ipam.getD (.object fun _ => none)).update "ranges" fun _ => some (rangesValue podCidrs)).update
    "type" fun t => some (t.getD (.string "host-local"))

def seedPlugin (podCidrs : List IpNet) (v : Value N) : Value N :=
  v.update "ipam" fun ipam => some (seedIpam podCidrs ipam)

def isBridge (v : Value N) : Bool :=
  match v.get? "type" with
  | some (.string t) => t == "bridge"
  | _ => false

/-- The first bridge plugin is seeded, and nothing else is changed. -/
def seedPlugins (podCidrs : List IpNet) (plugins : List (Value N)) : List (Value N) :=
  Collect.modifyFirst isBridge (seedPlugin podCidrs) plugins

def seedConf (podCidrs : List IpNet) (v : Value N) : Value N :=
  v.update "plugins" (Option.map (Value.onItems (seedPlugins podCidrs)))

/-- The plugin without its ranges. -/
def dropRanges (v : Value N) : Value N :=
  v.update "ipam" (Option.map (Value.update "ranges" fun _ => none))

/-- The value without the ranges of its first bridge plugin. -/
def outsideRanges (v : Value N) : Value N :=
  v.update "plugins" (Option.map (Value.onItems (Collect.modifyFirst isBridge dropRanges)))

/-- Some plugin is of type bridge. -/
def HasBridge (v : Value N) : Prop :=
  ∃ plugins, v.get? "plugins" = some (.array plugins) ∧ ∃ p ∈ plugins, isBridge p = true

/-! ## The values of the records -/

theorem Range.value_toDoc (r : Range N) : r.toDoc.value =
    .object (Function.update (fieldValue r.extra.fields) "subnet" (some (.string r.subnet))) := by
  rw [Range.toDoc, value_record r.extra (by decide) rfl]
  rfl

theorem Ipam.value_toDoc (ipam : Ipam N) : ipam.toDoc.value =
    .object (Function.update (Function.update (fieldValue ipam.extra.fields)
      "ranges" ((ipam.ranges.map Ipam.rangesDoc).map Doc.value))
      "type" ((ipam.ipamType.map .string).map Doc.value)) := by
  rw [Ipam.toDoc, value_record ipam.extra (by decide) rfl]
  rfl

theorem Plugin.value_toDoc (p : Plugin N) : p.toDoc.value =
    .object (Function.update (Function.update (fieldValue p.extra.fields)
      "ipam" ((p.ipam.map Ipam.toDoc).map Doc.value))
      "type" (some (.string p.pluginType))) := by
  rw [Plugin.toDoc, value_record p.extra (by decide) rfl]
  rfl

theorem ConfList.value_toDoc (c : ConfList N) : c.toDoc.value =
    .object (Function.update (fieldValue c.extra.fields)
      "plugins" (some (.array (c.plugins.map fun p => p.toDoc.value)))) := by
  rw [ConfList.toDoc, value_record c.extra (by decide) rfl, List.foldr_cons, List.foldr_nil,
    Option.map_some, value_array, List.map_map]
  rfl

/-! ## What was read is written -/

theorem Range.toDoc_value {doc : Doc N} {r : Range N} (h : Range.ofDoc doc = .ok r) :
    r.toDoc.value = doc.value := by
  obtain ⟨fields, hfields, h⟩ := Collect.bind_eq_ok_iff.mp h
  obtain ⟨subnet, hsubnet, h⟩ := Collect.bind_eq_ok_iff.mp h
  cases h
  cases asFields_eq_ok_iff.mp hfields
  obtain ⟨doc, hvalue, hdoc⟩ := required_eq_ok hsubnet
  cases asString_eq_ok_iff.mp hdoc
  rw [Range.toDoc, value_record_ofFields ["subnet"] fields (by decide) rfl, Doc.value]
  show Value.object (Function.update (fieldValue fields) "subnet"
    (some (Doc.string subnet).value)) = _
  rw [← hvalue, Function.update_eq_self]

theorem Ipam.rangesDoc_value {doc : Doc N} {ranges : List (List (Range N))}
    (h : doc.listOf (Doc.listOf Range.ofDoc) = .ok ranges) :
    (Ipam.rangesDoc ranges).value = doc.value := by
  have hset : ∀ (doc : Doc N) (set : List (Range N)), doc.listOf Range.ofDoc = .ok set →
      (Doc.array (set.map Range.toDoc)).value = doc.value := by
    intro doc set hset
    rw [listOf_value Range.toDoc (fun v => v) (fun _ _ hr => Range.toDoc_value hr) hset,
      Value.onItems_map_id]
  rw [Ipam.rangesDoc, listOf_value _ (fun v => v) hset h, Value.onItems_map_id]

theorem Ipam.toDoc_value {doc : Doc N} {ipam : Ipam N} (h : Ipam.ofDoc doc = .ok ipam) :
    ipam.toDoc.value = readIpam doc.value := by
  obtain ⟨fields, hfields, h⟩ := Collect.bind_eq_ok_iff.mp h
  obtain ⟨ipamType, htype, h⟩ := Collect.bind_eq_ok_iff.mp h
  obtain ⟨ranges, hranges, h⟩ := Collect.bind_eq_ok_iff.mp h
  cases h
  cases asFields_eq_ok_iff.mp hfields
  have htype := optional_value Doc.string (fun v => v)
    (fun doc s hs => by rw [asString_eq_ok_iff.mp hs]) htype
  have hranges := optional_value Ipam.rangesDoc (fun v => v)
    (fun _ _ hr => Ipam.rangesDoc_value hr) hranges
  rw [Option.map_id'] at htype hranges
  rw [Ipam.toDoc, value_record_ofFields ["type", "ranges"] fields (by decide) rfl, readIpam,
    Doc.value, Value.update_object, Value.update_object, Function.update_of_ne (by decide), ← htype,
    ← hranges, List.foldr_cons, List.foldr_cons, List.foldr_nil, Option.map_map, Option.map_map]
  rfl

theorem Plugin.toDoc_value {doc : Doc N} {p : Plugin N} (h : Plugin.ofDoc doc = .ok p) :
    p.toDoc.value = readPlugin doc.value := by
  obtain ⟨fields, hfields, h⟩ := Collect.bind_eq_ok_iff.mp h
  obtain ⟨pluginType, htype, h⟩ := Collect.bind_eq_ok_iff.mp h
  obtain ⟨ipam, hipam, h⟩ := Collect.bind_eq_ok_iff.mp h
  cases h
  cases asFields_eq_ok_iff.mp hfields
  obtain ⟨doc, hvalue, hdoc⟩ := required_eq_ok htype
  cases asString_eq_ok_iff.mp hdoc
  have hipam := optional_value Ipam.toDoc readIpam (fun _ _ hi => Ipam.toDoc_value hi) hipam
  rw [Plugin.toDoc, value_record_ofFields ["type", "ipam"] fields (by decide) rfl, readPlugin,
    Doc.value, Value.update_object, ← hipam]
  show Value.object (Function.update (Function.update (fieldValue fields) "ipam"
    ((ipam.map Ipam.toDoc).map Doc.value)) "type" (some (Doc.string pluginType).value)) = _
  rw [← hvalue, Function.update_comm (by decide), Function.update_eq_self, Option.map_map]
  rfl

theorem ConfList.toDoc_value {doc : Doc N} {c : ConfList N} (h : ConfList.ofDoc doc = .ok c) :
    c.toDoc.value = readConf doc.value := by
  obtain ⟨fields, hfields, h⟩ := Collect.bind_eq_ok_iff.mp h
  obtain ⟨plugins, hplugins, h⟩ := Collect.bind_eq_ok_iff.mp h
  cases h
  cases asFields_eq_ok_iff.mp hfields
  obtain ⟨doc, hvalue, hdoc⟩ := required_eq_ok hplugins
  have hitems := listOf_value Plugin.toDoc readPlugin (fun _ _ hp => Plugin.toDoc_value hp) hdoc
  rw [ConfList.toDoc, value_record_ofFields ["plugins"] fields (by decide) rfl, readConf, Doc.value,
    Value.update_object, hvalue, Option.map_some, ← hitems]
  rfl

/-! ## What is written is read -/

theorem Range.exists_ofDoc (r : Range N) : ∃ r', Range.ofDoc r.toDoc = .ok r' := by
  have hsubnet := fieldOf_record [("subnet", some (.string r.subnet))] r.extra "subnet" (by decide)
    (by decide) rfl
  refine ⟨_, Collect.bind_eq_ok_iff.mpr ⟨_, rfl, Collect.bind_eq_ok_iff.mpr ⟨r.subnet, ?_, rfl⟩⟩⟩
  rw [required_of_fieldOf hsubnet]
  rfl

theorem Ipam.exists_rangesDoc (ranges : List (List (Range N))) :
    ∃ ranges', (Ipam.rangesDoc ranges).listOf (Doc.listOf Range.ofDoc) = .ok ranges' :=
  exists_listOf (fun set => exists_listOf Range.exists_ofDoc set) ranges

theorem Ipam.exists_ofDoc (ipam : Ipam N) : ∃ ipam', Ipam.ofDoc ipam.toDoc = .ok ipam' := by
  have htype := fieldOf_record
    [("type", ipam.ipamType.map .string), ("ranges", ipam.ranges.map rangesDoc)] ipam.extra "type"
    (by decide) (by decide) rfl
  have hranges := fieldOf_record
    [("type", ipam.ipamType.map .string), ("ranges", ipam.ranges.map rangesDoc)] ipam.extra "ranges"
    (by decide) (by decide) rfl
  obtain ⟨ipamType, htype⟩ := exists_optional Doc.asString htype (by
    intro doc hdoc
    obtain ⟨t, -, rfl⟩ := Option.map_eq_some_iff.mp hdoc
    exact ⟨t, rfl⟩)
  obtain ⟨ranges, hranges⟩ := exists_optional (Doc.listOf (Doc.listOf Range.ofDoc)) hranges (by
    intro doc hdoc
    obtain ⟨ranges, -, rfl⟩ := Option.map_eq_some_iff.mp hdoc
    exact Ipam.exists_rangesDoc ranges)
  exact ⟨_, Collect.bind_eq_ok_iff.mpr ⟨_, rfl, Collect.bind_eq_ok_iff.mpr ⟨ipamType, htype,
    Collect.bind_eq_ok_iff.mpr ⟨ranges, hranges, rfl⟩⟩⟩⟩

theorem Plugin.exists_ofDoc (p : Plugin N) : ∃ p', Plugin.ofDoc p.toDoc = .ok p' := by
  have htype := fieldOf_record
    [("type", some (.string p.pluginType)), ("ipam", p.ipam.map Ipam.toDoc)] p.extra "type"
    (by decide) (by decide) rfl
  have hipam := fieldOf_record
    [("type", some (.string p.pluginType)), ("ipam", p.ipam.map Ipam.toDoc)] p.extra "ipam"
    (by decide) (by decide) rfl
  obtain ⟨ipam, hipam⟩ := exists_optional Ipam.ofDoc hipam (by
    intro doc hdoc
    obtain ⟨ipam, -, rfl⟩ := Option.map_eq_some_iff.mp hdoc
    exact Ipam.exists_ofDoc ipam)
  refine ⟨_, Collect.bind_eq_ok_iff.mpr ⟨_, rfl, Collect.bind_eq_ok_iff.mpr ⟨p.pluginType, ?_,
    Collect.bind_eq_ok_iff.mpr ⟨ipam, hipam, rfl⟩⟩⟩⟩
  rw [required_of_fieldOf htype]
  rfl

theorem ConfList.exists_ofDoc (c : ConfList N) : ∃ c', ConfList.ofDoc c.toDoc = .ok c' := by
  have hfield := fieldOf_record [("plugins", some (.array (c.plugins.map Plugin.toDoc)))] c.extra
    "plugins" (by decide) (by decide) rfl
  obtain ⟨plugins, hplugins⟩ := exists_listOf Plugin.exists_ofDoc c.plugins
  exact ⟨_, Collect.bind_eq_ok_iff.mpr ⟨_, rfl, Collect.bind_eq_ok_iff.mpr
    ⟨plugins, (required_of_fieldOf hfield).trans hplugins, rfl⟩⟩⟩

/-! ## The bridge -/

theorem isBridge_toDoc (p : Plugin N) : isBridge p.toDoc.value = p.isBridge := by
  unfold isBridge Plugin.isBridge
  rw [Plugin.value_toDoc, Value.get?_object, Function.update_self]

theorem isBridge_update_ipam (v : Value N) (f : Option (Value N) → Option (Value N)) :
    isBridge (v.update "ipam" f) = isBridge v := by
  unfold isBridge
  cases v with
  | object field =>
    rw [Value.update_object, Value.get?_object, Value.get?_object,
      Function.update_of_ne (by decide)]
  | _ => rfl

theorem isBridge_seedPlugin (podCidrs : List IpNet) (v : Value N) :
    isBridge (seedPlugin podCidrs v) = isBridge v := isBridge_update_ipam v _

theorem hasBridge_toDoc_iff (c : ConfList N) :
    HasBridge c.toDoc.value ↔ c.plugins.any Plugin.isBridge = true := by
  unfold HasBridge
  rw [ConfList.value_toDoc, Value.get?_object, Function.update_self, List.any_eq_true]
  constructor
  · rintro ⟨plugins, heq, p, hp, hbridge⟩
    cases heq
    obtain ⟨q, hq, rfl⟩ := List.mem_map.mp hp
    exact ⟨q, hq, by rw [← isBridge_toDoc, hbridge]⟩
  · rintro ⟨p, hp, hbridge⟩
    exact ⟨_, rfl, p.toDoc.value, List.mem_map_of_mem hp, by rw [isBridge_toDoc, hbridge]⟩

/-- Null is no bridge. -/
theorem hasBridge_readConf_iff (v : Value N) : HasBridge (readConf v) ↔ HasBridge v := by
  unfold HasBridge readConf
  cases v with
  | object field =>
    rw [Value.update_object, Value.get?_object, Value.get?_object, Function.update_self]
    constructor
    · rintro ⟨plugins, heq, p, hp, hbridge⟩
      obtain ⟨v, hv, heq⟩ := Option.map_eq_some_iff.mp heq
      cases v with
      | array items =>
        cases heq
        obtain ⟨q, hq, rfl⟩ := List.mem_map.mp hp
        rw [readPlugin, isBridge_update_ipam] at hbridge
        exact ⟨items, hv, q, hq, hbridge⟩
      | _ => cases heq
    · rintro ⟨plugins, heq, p, hp, hbridge⟩
      rw [heq]
      exact ⟨plugins.map readPlugin, rfl, readPlugin p, List.mem_map_of_mem hp,
        by rw [readPlugin, isBridge_update_ipam, hbridge]⟩
  | _ => rfl

/-! ## The seeded value -/

section Seed

variable (podCidrs : List IpNet)

theorem rangesDoc_rangesOf :
    (Ipam.rangesDoc (rangesOf podCidrs : List (List (Range N)))).value = rangesValue podCidrs := by
  have hset : ∀ c : IpNet, (Doc.array ([{ subnet := c.toText, extra := .empty }].map Range.toDoc) :
      Doc N).value =
      .array [.object (Function.update (fun _ => none) "subnet" (some (.string c.toText)))] := by
    intro c
    have hempty : fieldValue (Rest.empty : Rest N ["subnet"]).fields = fun _ => none :=
      funext Rest.fieldValue_empty
    rw [value_array, List.map_cons, List.map_nil, List.map_cons, List.map_nil, Range.value_toDoc,
      hempty]
  rw [Ipam.rangesDoc, rangesValue, rangesOf, value_array, List.map_map, List.map_map]
  exact congrArg Value.array (List.map_congr_left fun c _ => hset c)

theorem Ipam.value_seed (ipam : Ipam N) :
    (ipam.seed podCidrs).toDoc.value = seedIpam podCidrs (some ipam.toDoc.value) := by
  have htype : ((ipam.seed podCidrs).ipamType.map Doc.string).map Doc.value = some
      (((ipam.ipamType.map Doc.string).map Doc.value).getD (.string "host-local") : Value N) := by
    unfold Ipam.seed
    cases ipam.ipamType <;> rfl
  have hranges : ((ipam.seed podCidrs).ranges.map Ipam.rangesDoc).map Doc.value =
      some (rangesValue podCidrs) := congrArg some (rangesDoc_rangesOf podCidrs)
  rw [seedIpam, Ipam.value_toDoc, Ipam.value_toDoc, Option.getD_some, Value.update_object,
    Value.update_object, htype, hranges, Function.update_of_ne (by decide), Function.update_self,
    update_below (by decide), update_below (by decide)]
  rfl

/-- A missing ipam is seeded as an empty one. -/
theorem seedIpam_none :
    seedIpam podCidrs (some (Ipam.hostLocal : Ipam N).toDoc.value) = seedIpam podCidrs none := by
  have hempty : fieldValue (Ipam.hostLocal : Ipam N).extra.fields = fun _ => none :=
    funext Rest.fieldValue_empty
  rw [seedIpam, seedIpam, Ipam.value_toDoc, hempty, Option.getD_some, Option.getD_none,
    Value.update_object, Value.update_object, Value.update_object, Value.update_object]
  congr 1
  funext k
  simp only [Function.update_apply]
  split
  · rfl
  · split <;> rfl

theorem Plugin.value_seed (p : Plugin N) :
    (p.seed podCidrs).toDoc.value = seedPlugin podCidrs p.toDoc.value := by
  have hipam : ((p.seed podCidrs).ipam.map Ipam.toDoc).map Doc.value =
      some (seedIpam podCidrs ((p.ipam.map Ipam.toDoc).map Doc.value)) := by
    unfold Plugin.seed
    cases p.ipam with
    | none =>
      exact congrArg some ((Ipam.value_seed podCidrs .hostLocal).trans (seedIpam_none podCidrs))
    | some ipam => exact congrArg some (Ipam.value_seed podCidrs ipam)
  rw [seedPlugin, Plugin.value_toDoc, Plugin.value_toDoc, hipam, Value.update_object,
    Function.update_of_ne (by decide), Function.update_self, update_below (by decide)]
  rfl

theorem ConfList.value_seedPodCidrs {c c' : ConfList N} (h : c.seedPodCidrs podCidrs = .ok c') :
    c'.toDoc.value = seedConf podCidrs c.toDoc.value := by
  unfold ConfList.seedPodCidrs at h
  split at h
  · cases h
    have hplugins := Collect.map_modifyFirst (g := fun p : Plugin N => p.toDoc.value) isBridge_toDoc
      (Plugin.value_seed podCidrs) c.plugins
    rw [seedConf, ConfList.value_toDoc, ConfList.value_toDoc, hplugins, Value.update_object,
      Function.update_self, Function.update_idem]
    rfl
  · cases h

theorem ConfList.seedPodCidrs_of_bridge {c : ConfList N} (h : HasBridge c.toDoc.value) :
    ∃ c', c.seedPodCidrs podCidrs = .ok c' := by
  unfold ConfList.seedPodCidrs
  rw [if_pos ((hasBridge_toDoc_iff c).mp h)]
  exact ⟨_, rfl⟩

theorem hasBridge_seedConf_iff (v : Value N) : HasBridge (seedConf podCidrs v) ↔ HasBridge v := by
  have hany : ∀ items : List (Value N), (∃ p ∈ seedPlugins podCidrs items, isBridge p = true) ↔
      ∃ p ∈ items, isBridge p = true := by
    intro items
    rw [← List.any_eq_true, ← List.any_eq_true, seedPlugins,
      Collect.any_modifyFirst (isBridge_seedPlugin podCidrs)]
  unfold HasBridge seedConf
  cases v with
  | object field =>
    rw [Value.update_object, Value.get?_object, Value.get?_object, Function.update_self]
    constructor
    · rintro ⟨plugins, heq, hbridge⟩
      obtain ⟨v, hv, heq⟩ := Option.map_eq_some_iff.mp heq
      cases v with
      | array items =>
        cases heq
        exact ⟨items, hv, (hany items).mp hbridge⟩
      | _ => cases heq
    · rintro ⟨plugins, heq, hbridge⟩
      rw [heq]
      exact ⟨seedPlugins podCidrs plugins, rfl, (hany plugins).mpr hbridge⟩
  | _ => rfl

end Seed

/-! ## Seeding twice -/

theorem seedIpam_seedIpam (podCidrs podCidrs' : List IpNet) (ipam : Option (Value N)) :
    seedIpam podCidrs' (some (seedIpam podCidrs ipam)) = seedIpam podCidrs' ipam := by
  unfold seedIpam
  cases ipam.getD (.object fun _ => none) with
  | object field =>
    simp only [Option.getD_some, Value.update_object]
    congr 1
    funext k
    simp only [Function.update_apply]
    split
    · rfl
    · split <;> rfl
  | _ => rfl

theorem seedConf_seedConf (podCidrs podCidrs' : List IpNet) (v : Value N) :
    seedConf podCidrs' (seedConf podCidrs v) = seedConf podCidrs' v := by
  have hplugin : ∀ p : Value N, seedPlugin podCidrs' (seedPlugin podCidrs p) =
      seedPlugin podCidrs' p := by
    intro p
    unfold seedPlugin
    rw [Value.update_update]
    simp only [seedIpam_seedIpam]
  unfold seedConf
  rw [Value.update_update]
  congr 1
  funext plugins
  cases plugins with
  | none => rfl
  | some v =>
    cases v with
    | array items =>
      simp only [Option.map_some, Value.onItems_array, seedPlugins,
        Collect.modifyFirst_modifyFirst (isBridge_seedPlugin podCidrs) hplugin]
    | _ => rfl

theorem Ipam.readIpam_toDoc (ipam : Ipam N) : readIpam ipam.toDoc.value = ipam.toDoc.value := by
  have htype : present ((ipam.ipamType.map Doc.string).map (Doc.value : Doc N → Value N)) = _ :=
    present_map_value (by simp) ipam.ipamType
  have hranges : present ((ipam.ranges.map Ipam.rangesDoc).map Doc.value) = _ :=
    present_map_value (by simp [Ipam.rangesDoc]) ipam.ranges
  rw [readIpam, Ipam.value_toDoc, Value.update_object, Value.update_object,
    Function.update_of_ne (by decide), Function.update_self, hranges,
    Function.update_of_ne (by decide), Function.update_self, htype, update_below (by decide),
    update_below (by decide)]

theorem Plugin.readPlugin_toDoc (p : Plugin N) : readPlugin p.toDoc.value = p.toDoc.value := by
  have hipam : present ((p.ipam.map Ipam.toDoc).map Doc.value) = _ :=
    present_map_value (by simp [Ipam.toDoc, record]) p.ipam
  have hread : ((p.ipam.map Ipam.toDoc).map Doc.value).map readIpam =
      (p.ipam.map Ipam.toDoc).map Doc.value := by
    cases p.ipam with
    | none => rfl
    | some ipam => exact congrArg some ipam.readIpam_toDoc
  rw [readPlugin, Plugin.value_toDoc, Value.update_object, Function.update_of_ne (by decide),
    Function.update_self, hipam, hread, update_below (by decide)]

/-- What a list is written as has no null that is read as nothing. -/
theorem ConfList.readConf_toDoc (c : ConfList N) : readConf c.toDoc.value = c.toDoc.value := by
  have hplugins : (c.plugins.map fun p => p.toDoc.value).map readPlugin =
      c.plugins.map fun p => p.toDoc.value := by
    rw [List.map_map]
    exact List.map_congr_left fun p _ => p.readPlugin_toDoc
  rw [readConf, ConfList.value_toDoc, Value.update_object, Function.update_self,
    Function.update_idem, Option.map_some, Value.onItems_array, hplugins]

/-! ## Numbers -/

theorem Range.toDoc_distinct (r : Range N) : r.toDoc.Distinct :=
  distinct_record r.extra (by decide) rfl (by simp [Doc.Distinct])

theorem Ipam.rangesDoc_distinct (ranges : List (List (Range N))) :
    (Ipam.rangesDoc ranges).Distinct := by
  rw [Ipam.rangesDoc, Doc.Distinct, distinctItems_iff, List.forall_mem_map]
  intro set _
  rw [Doc.Distinct, distinctItems_iff, List.forall_mem_map]
  exact fun r _ => r.toDoc_distinct

theorem Ipam.toDoc_distinct (ipam : Ipam N) : ipam.toDoc.Distinct := by
  refine distinct_record ipam.extra (by decide) rfl ?_
  simp only [List.forall_mem_cons, Option.map_eq_some_iff]
  refine ⟨?_, ?_, by simp⟩
  · rintro doc ⟨t, -, rfl⟩
    trivial
  · rintro doc ⟨ranges, -, rfl⟩
    exact rangesDoc_distinct ranges

theorem Plugin.toDoc_distinct (p : Plugin N) : p.toDoc.Distinct := by
  refine distinct_record p.extra (by decide) rfl ?_
  simp only [List.forall_mem_cons, Option.map_eq_some_iff]
  refine ⟨by simp [Doc.Distinct], ?_, by simp⟩
  rintro doc ⟨ipam, -, rfl⟩
  exact ipam.toDoc_distinct

theorem ConfList.toDoc_distinct (c : ConfList N) : c.toDoc.Distinct := by
  refine distinct_record c.extra (by decide) rfl ?_
  simp only [List.forall_mem_singleton, Option.some.injEq, forall_eq']
  rw [Doc.Distinct, distinctItems_iff, List.forall_mem_map]
  exact fun p _ => p.toDoc_distinct

section Numbers

variable {M : Type} (f : N → M)

theorem Range.sameOn_ofDoc : SameOn f Range.ofDoc Range.ofDoc :=
  SameOn.ofFields fun fields => (SameOn.asString.required "subnet" fields).bind fun _ _ =>
    Collect.sameOk_ok _ _

theorem Ipam.sameOn_ofDoc : SameOn f Ipam.ofDoc Ipam.ofDoc :=
  SameOn.ofFields fun fields => (SameOn.asString.optional "type" fields).bind fun _ _ =>
    ((Range.sameOn_ofDoc f).listOf.listOf.optional "ranges" fields).bind fun _ _ =>
      Collect.sameOk_ok _ _

theorem Plugin.sameOn_ofDoc : SameOn f Plugin.ofDoc Plugin.ofDoc :=
  SameOn.ofFields fun fields => (SameOn.asString.required "type" fields).bind fun _ _ =>
    ((Ipam.sameOn_ofDoc f).optional "ipam" fields).bind fun _ _ => Collect.sameOk_ok _ _

theorem ConfList.sameOn_ofDoc : SameOn f ConfList.ofDoc ConfList.ofDoc :=
  SameOn.ofFields fun fields => ((Plugin.sameOn_ofDoc f).listOf.required "plugins" fields).bind
    fun _ _ => Collect.sameOk_ok _ _

theorem readIpam_map (v : Value N) : (readIpam v).map f = readIpam (v.map f) := by
  unfold readIpam
  rw [Value.map_update f (present_map f), Value.map_update f (present_map f)]

theorem readPlugin_map (v : Value N) : (readPlugin v).map f = readPlugin (v.map f) := by
  refine Value.map_update f (fun ipam => ?_) v
  rw [← present_map, Option.map_map, Option.map_map]
  exact congrArg (fun g => (present ipam).map g) (funext (readIpam_map f))

theorem readConf_map (v : Value N) : (readConf v).map f = readConf (v.map f) := by
  refine Value.map_update f (fun plugins => ?_) v
  rw [Option.map_map, Option.map_map]
  refine congrArg (fun g => plugins.map g) (funext (Value.map_onItems f fun items => ?_))
  rw [List.map_map, List.map_map]
  exact congrArg (fun g => items.map g) (funext (readPlugin_map f))

theorem rangesValue_map (podCidrs : List IpNet) :
    (rangesValue podCidrs : Value N).map f = rangesValue podCidrs := by
  rw [rangesValue, rangesValue, Value.map, mapValues_eq_map, List.map_map]
  refine congrArg Value.array (List.map_congr_left fun c _ => ?_)
  rw [Function.comp_apply, Value.map, mapValues, mapValues, Value.map]
  refine congrArg (fun field => Value.array [Value.object field]) (funext fun k => ?_)
  by_cases hk : k = "subnet"
  · subst hk
    rfl
  · rw [Function.update_of_ne hk, Function.update_of_ne hk]
    rfl

theorem seedIpam_map (podCidrs : List IpNet) (ipam : Option (Value N)) :
    (seedIpam podCidrs ipam).map f = seedIpam podCidrs (ipam.map (Value.map f)) := by
  have hipam : (ipam.getD (.object fun _ => none)).map f =
      (ipam.map (Value.map f)).getD (.object fun _ => none) := by
    cases ipam <;> rfl
  have htype : ∀ v : Value N,
      (v.update "type" fun t => some (t.getD (.string "host-local"))).map f =
      (v.map f).update "type" fun t => some (t.getD (.string "host-local")) := by
    refine Value.map_update f fun t => ?_
    cases t <;> rfl
  have hranges : ∀ v : Value N, (v.update "ranges" fun _ => some (rangesValue podCidrs)).map f =
      (v.map f).update "ranges" fun _ => some (rangesValue podCidrs) :=
    Value.map_update f fun _ => congrArg some (rangesValue_map f podCidrs)
  unfold seedIpam
  rw [← hipam, htype, hranges]

theorem seedPlugin_map (podCidrs : List IpNet) (v : Value N) :
    (seedPlugin podCidrs v).map f = seedPlugin podCidrs (v.map f) := by
  refine Value.map_update f (fun ipam => ?_) v
  rw [Option.map_some, seedIpam_map]

theorem isBridge_map (v : Value N) : isBridge (v.map f) = isBridge v := by
  unfold isBridge
  cases v with
  | object field =>
    rw [Value.map, Value.get?_object, Value.get?_object, mapField_eq_map]
    cases field "type" with
    | none => rfl
    | some t => cases t <;> rfl
  | _ => rfl

theorem seedConf_map (podCidrs : List IpNet) (v : Value N) :
    (seedConf podCidrs v).map f = seedConf podCidrs (v.map f) := by
  refine Value.map_update f (fun plugins => ?_) v
  rw [Option.map_map, Option.map_map]
  refine congrArg (fun g => plugins.map g) (funext (Value.map_onItems f fun items => ?_))
  unfold seedPlugins
  exact Collect.map_modifyFirst (isBridge_map f) (seedPlugin_map f podCidrs) items

theorem hasBridge_map_iff (v : Value N) : HasBridge (v.map f) ↔ HasBridge v := by
  unfold HasBridge
  cases v with
  | object field =>
    rw [Value.map, Value.get?_object, Value.get?_object, mapField_eq_map]
    constructor
    · rintro ⟨plugins, heq, p, hp, hbridge⟩
      obtain ⟨v, hv, heq⟩ := Option.map_eq_some_iff.mp heq
      cases v with
      | array items =>
        rw [Value.map, mapValues_eq_map] at heq
        cases heq
        obtain ⟨q, hq, rfl⟩ := List.mem_map.mp hp
        exact ⟨items, hv, q, hq, (isBridge_map f q).symm.trans hbridge⟩
      | _ => cases heq
    · rintro ⟨plugins, heq, p, hp, hbridge⟩
      refine ⟨plugins.map (Value.map f), ?_, p.map f, List.mem_map_of_mem hp, ?_⟩
      · rw [heq, Option.map_some, Value.map, mapValues_eq_map]
      · rw [isBridge_map, hbridge]
  | _ => simp [Value.map, Value.get?]

end Numbers

/-- What is said of all numbers of a seeded list does not depend on the CIDRs. -/
theorem all_seedConf {p : N → Prop} {podCidrs : List IpNet} {v : Value N}
    (h : (seedConf podCidrs v).All p) (podCidrs' : List IpNet) : (seedConf podCidrs' v).All p := by
  rw [Value.all_iff_map_eq, seedConf_map, seedConf_map] at h ⊢
  rw [← seedConf_seedConf podCidrs podCidrs' (v.map p), h, seedConf_seedConf]

theorem rangesValue_all (p : N → Prop) (podCidrs : List IpNet) :
    (rangesValue podCidrs).All p := by
  rw [Value.all_iff_map_eq, rangesValue_map, rangesValue_map]

theorem all_seedIpam_iff (p : N → Prop) (podCidrs : List IpNet) (ipam : Option (Value N)) :
    (seedIpam podCidrs ((present ipam).map readIpam)).All p ↔
      AllField p (ipam.map (Value.update "ranges" fun _ => none)) := by
  have hnone : (seedIpam podCidrs none).All p := by
    rw [Value.all_iff_map_eq, seedIpam_map, seedIpam_map]
    rfl
  have htype : ∀ t : Option (Value N),
      AllField p (some ((present t).getD (.string "host-local"))) ↔ AllField p t := by
    intro t
    rcases t with _ | v
    · exact iff_of_true trivial trivial
    · cases v <;> rfl
  rcases ipam with _ | v
  · exact iff_of_true hnone trivial
  · cases v with
    | null => exact iff_of_true hnone trivial
    | object field =>
      refine forall_congr' fun k => ?_
      by_cases hk : k = "type"
      · subst hk
        exact htype (field "type")
      · rw [Function.update_of_ne hk]
        by_cases hk' : k = "ranges"
        · subst hk'
          exact iff_of_true (rangesValue_all p podCidrs) trivial
        · rw [Function.update_of_ne hk', Function.update_of_ne hk', Function.update_of_ne hk,
            Function.update_of_ne hk']
    | _ => rfl

theorem all_readPlugin_iff (p : N → Prop) (v : Value N) : (readPlugin v).All p ↔ v.All p := by
  refine Value.all_update_iff (fun ipam => ?_) v
  rw [← allField_present_iff ipam]
  cases present ipam with
  | none => rfl
  | some w =>
    exact (Value.all_update_iff allField_present_iff _).trans
      (Value.all_update_iff allField_present_iff w)

/-- The numbers of the seeded value are those of the document outside the ranges. -/
theorem all_seedConf_readConf_iff (p : N → Prop) (podCidrs : List IpNet) (v : Value N) :
    (seedConf podCidrs (readConf v)).All p ↔ (outsideRanges v).All p := by
  have hplugin : ∀ w : Value N, (seedPlugin podCidrs (readPlugin w)).All p ↔
      (dropRanges w).All p := by
    intro w
    rw [seedPlugin, readPlugin, Value.update_update]
    exact Value.all_update_congr (all_seedIpam_iff p podCidrs) w
  have hitems : ∀ items : List (Value N),
      AllValues p (seedPlugins podCidrs (items.map readPlugin)) ↔
        AllValues p (Collect.modifyFirst isBridge dropRanges items) := by
    intro items
    have hrest : ∀ rest : List (Value N), AllValues p (rest.map readPlugin) ↔ AllValues p rest := by
      intro rest
      rw [allValues_iff, allValues_iff, List.forall_mem_map]
      exact forall₂_congr fun w _ => all_readPlugin_iff p w
    unfold seedPlugins
    induction items with
    | nil => rfl
    | cons w items ih =>
      rw [List.map_cons, Collect.modifyFirst, Collect.modifyFirst, readPlugin, isBridge_update_ipam]
      split
      · exact and_congr (hplugin w) (hrest items)
      · exact and_congr (all_readPlugin_iff p w) ih
  unfold seedConf readConf outsideRanges
  rw [Value.update_update]
  refine Value.all_update_congr (fun plugins => ?_) v
  rcases plugins with _ | w
  · rfl
  · cases w with
    | array items => exact hitems items
    | _ => rfl

theorem all_outsideRanges {p : N → Prop} {v : Value N} (h : v.All p) : (outsideRanges v).All p := by
  rw [← all_seedConf_readConf_iff p []]
  rw [Value.all_iff_map_eq] at h ⊢
  rw [seedConf_map, seedConf_map, readConf_map, readConf_map, h]

/-! ## Seeding a document -/

section Frame

variable (read : L → Option N) (print : N → L) (num : L → Q)

/-- The number is printed as itself, and what is printed is read and printed as itself. -/
def ReadBack (l : L) : Prop :=
  ∃ n, read l = some n ∧ num (print n) = num l ∧
    ∃ m, read (print n) = some m ∧ num (print m) = num (print n)

/-- With a bridge plugin, the output is the document with its first bridge seeded; seeding it again
with the same CIDRs changes nothing, and with other CIDRs gives what they give directly. Without a
bridge plugin there is an error. Numbers are compared by what they are. -/
def SeedsFrame (doc : Doc L) (podCidrs : List IpNet) : Prop :=
  (HasBridge doc.value → ∃ out, seedConflist read print doc podCidrs = .ok out ∧
    out.value.map num = seedConf podCidrs (readConf (doc.value.map num)) ∧
    (∃ same, seedConflist read print out podCidrs = .ok same ∧
      same.value.map num = out.value.map num) ∧
    ∀ podCidrs', ∃ again direct, seedConflist read print out podCidrs' = .ok again ∧
      seedConflist read print doc podCidrs' = .ok direct ∧
      again.value.map num = direct.value.map num) ∧
  (¬HasBridge doc.value → seedConflist read print doc podCidrs = .error .NoBridgePlugin)

variable {read print num}

theorem ConfList.parse_eq_ok {doc : Doc L} {c : ConfList N} (h : ConfList.parse read doc = .ok c) :
    ∃ tree, doc.mapOption read = some tree ∧ ConfList.ofDoc tree = .ok c := by
  unfold ConfList.parse at h
  cases htree : doc.mapOption read with
  | none =>
    rw [htree] at h
    cases h
  | some tree =>
    rw [htree] at h
    refine ⟨tree, rfl, ?_⟩
    change (ConfList.ofDoc tree).mapError CniError.Parse = .ok c at h
    cases hdoc : ConfList.ofDoc tree with
    | error e =>
      rw [hdoc] at h
      cases h
    | ok c' =>
      rw [hdoc] at h
      cases h
      rfl

theorem ConfList.parse_of_ofDoc {doc : Doc L} {tree : Doc N} {c : ConfList N}
    (htree : doc.mapOption read = some tree) (h : ConfList.ofDoc tree = .ok c) :
    ConfList.parse read doc = .ok c := by
  unfold ConfList.parse
  rw [htree]
  exact congrArg (Except.mapError CniError.Parse) h

/-- The list that was read has a bridge when the document has one. -/
theorem ConfList.hasBridge_iff {doc : Doc L} {tree : Doc N} {c : ConfList N}
    (htree : doc.mapOption read = some tree) (hc : ConfList.ofDoc tree = .ok c) :
    HasBridge c.toDoc.value ↔ HasBridge doc.value := by
  rw [ConfList.toDoc_value hc, hasBridge_readConf_iff, ← hasBridge_map_iff some, ← value_map,
    map_some_of_mapOption htree, value_map, hasBridge_map_iff]

/-- What is printed for the seeded list, in the numbers that were read for those of the document. -/
theorem seedConflist_of_bridge (print : N → L) {doc : Doc L} {tree : Doc N} {c : ConfList N}
    (htree : doc.mapOption read = some tree) (hc : ConfList.ofDoc tree = .ok c)
    (podCidrs : List IpNet) (hbridge : HasBridge doc.value) :
    ∃ c' : ConfList N, seedConflist read print doc podCidrs = .ok (c'.toJson print) ∧
      c'.toDoc.value = seedConf podCidrs (readConf tree.value) ∧
      c'.toDoc.value.map some = (seedConf podCidrs (readConf doc.value)).map read := by
  obtain ⟨c', hseed⟩ := ConfList.seedPodCidrs_of_bridge podCidrs
    ((ConfList.hasBridge_iff htree hc).mpr hbridge)
  have hvalue : c'.toDoc.value = seedConf podCidrs (readConf tree.value) := by
    rw [ConfList.value_seedPodCidrs podCidrs hseed, ConfList.toDoc_value hc]
  refine ⟨c', ?_, hvalue, ?_⟩
  · unfold seedConflist
    rw [ConfList.parse_of_ofDoc htree hc]
    exact congrArg (Except.map (ConfList.toJson print)) hseed
  · rw [hvalue, seedConf_map, readConf_map, ← value_map, map_some_of_mapOption htree, value_map,
      ← readConf_map, ← seedConf_map]

theorem seedConflist_of_not_bridge (print : N → L) {doc : Doc L} {c : ConfList N}
    (hparse : ConfList.parse read doc = .ok c) (podCidrs : List IpNet)
    (hnone : ¬HasBridge doc.value) :
    seedConflist read print doc podCidrs = .error .NoBridgePlugin := by
  obtain ⟨tree, htree, hc⟩ := ConfList.parse_eq_ok hparse
  have hany : ¬c.plugins.any Plugin.isBridge = true := by
    rw [← hasBridge_toDoc_iff, ConfList.hasBridge_iff htree hc]
    exact hnone
  unfold seedConflist ConfList.seedPodCidrs
  rw [hparse]
  show (if c.plugins.any Plugin.isBridge = true then _ else Except.error CniError.NoBridgePlugin)
    >>= _ = _
  rw [if_neg hany]
  rfl

/-- What was printed, read and seeded again. -/
theorem seedConflist_toJson {c : ConfList N} {podCidrs podCidrs' : List IpNet} {v : Value N}
    (hbridge : HasBridge v) (hvalue : c.toDoc.value = seedConf podCidrs v) {tree : Doc N}
    (htree : (c.toJson print).mapOption read = some tree) :
    ∃ c' : ConfList N, seedConflist read print (c.toJson print) podCidrs' = .ok (c'.toJson print) ∧
      c'.toDoc.value.map some = (seedConf podCidrs' v).map fun n => read (print n) := by
  obtain ⟨c₁, hc₁⟩ : ∃ c₁, ConfList.ofDoc tree = .ok c₁ := by
    refine (ConfList.sameOn_ofDoc some tree).mpr ?_
    rw [map_some_of_mapOption htree, ConfList.toJson, Doc.map_map]
    exact (ConfList.sameOn_ofDoc _ c.toDoc).mp (ConfList.exists_ofDoc c)
  have hprinted : (c.toJson print).value = (seedConf podCidrs v).map print := by
    rw [ConfList.toJson, value_map, hvalue]
  have hbridge' : HasBridge (c.toJson print).value := by
    rw [hprinted, hasBridge_map_iff, hasBridge_seedConf_iff]
    exact hbridge
  obtain ⟨c', hseed, -, hsome⟩ := seedConflist_of_bridge print htree hc₁ podCidrs' hbridge'
  refine ⟨c', hseed, ?_⟩
  have hread : readConf (seedConf podCidrs v) = seedConf podCidrs v := by
    rw [← hvalue, ConfList.readConf_toDoc]
  rw [hsome, hprinted, ← readConf_map, hread, ← seedConf_map, seedConf_seedConf, Value.map_map]

/-- The output is the seeded document when every number that is left is printed as itself. -/
theorem map_toJson_eq_iff {doc : Doc L} {podCidrs : List IpNet} {c : ConfList N}
    (hsome : c.toDoc.value.map some = (seedConf podCidrs (readConf doc.value)).map read) :
    (c.toJson print).value.map num = seedConf podCidrs (readConf (doc.value.map num)) ↔
      (seedConf podCidrs (readConf doc.value)).All fun l =>
        ∃ n, read l = some n ∧ num (print n) = num l := by
  rw [ConfList.toJson, value_map, Value.map_map, ← readConf_map, ← seedConf_map]
  exact Value.map_eq_map_iff_of_map_some hsome _ num

/-- The seeded list is seeded again as it is when every number that is printed for it is read as
itself. -/
theorem map_again_eq_iff {c c' : ConfList N} {v : Value N} (hvalue : c.toDoc.value = v)
    (hsome : c'.toDoc.value.map some = v.map fun n => read (print n)) :
    (c'.toJson print).value.map num = (c.toJson print).value.map num ↔
      v.All fun n => ∃ m, read (print n) = some m ∧ num (print m) = num (print n) := by
  rw [ConfList.toJson, ConfList.toJson, value_map, value_map, Value.map_map, Value.map_map, hvalue]
  exact Value.map_eq_map_iff_of_map_some hsome _ _

theorem all_readBack_iff {v : Value L} :
    v.All (ReadBack read print num) ↔
      (v.All fun l => ∃ n, read l = some n ∧ num (print n) = num l) ∧
        v.All fun l => ∃ n, read l = some n ∧
          ∃ m, read (print n) = some m ∧ num (print m) = num (print n) := by
  rw [← Value.all_and_iff]
  refine ⟨fun h => Value.all_mono h ?_, fun h => Value.all_mono h ?_⟩
  · intro l hl
    obtain ⟨n, hn, hnum, hm⟩ := hl
    exact ⟨⟨n, hn, hnum⟩, n, hn, hm⟩
  · intro l hl
    obtain ⟨⟨n, hn, hnum⟩, n', hn', hm⟩ := hl
    obtain rfl : n = n' := Option.some.inj (hn.symm.trans hn')
    exact ⟨n, hn, hnum, hm⟩

/-- Seeding changes only what it owns exactly when there is no bridge plugin or every number of the
document, but for those in the ranges of its first bridge, is read back as printed. -/
theorem seed_conflist_frame_iff (doc : Doc L) (c : ConfList N)
    (hparse : ConfList.parse read doc = .ok c) (podCidrs : List IpNet) :
    SeedsFrame read print num doc podCidrs ↔
      (HasBridge doc.value → (outsideRanges doc.value).All (ReadBack read print num)) := by
  obtain ⟨tree, htree, hc⟩ := ConfList.parse_eq_ok hparse
  have hno := seedConflist_of_not_bridge print hparse podCidrs
  rw [SeedsFrame, and_iff_left hno]
  refine forall_congr' fun hbridge => ?_
  rw [← all_seedConf_readConf_iff _ podCidrs, all_readBack_iff]
  obtain ⟨seeded, hseeded, hvalue, hsome⟩ := seedConflist_of_bridge print htree hc podCidrs hbridge
  have htreeBridge : HasBridge (readConf tree.value) := by
    rw [← ConfList.toDoc_value hc, ConfList.hasBridge_iff htree hc]
    exact hbridge
  have hall : ∀ p : N → Prop, (seedConf podCidrs (readConf tree.value)).All p ↔
      (seedConf podCidrs (readConf doc.value)).All fun l => ∃ n, read l = some n ∧ p n := by
    intro p
    rw [← hvalue]
    exact Value.all_iff_of_map_some hsome
  constructor
  · rintro ⟨out, hout, hkept, ⟨same, hsame, hunchanged⟩, -⟩
    obtain rfl : seeded.toJson print = out := Except.ok.inj (hseeded.symm.trans hout)
    obtain ⟨c₂, hparse₂⟩ : ∃ c₂, ConfList.parse read (seeded.toJson print) = .ok c₂ := by
      obtain ⟨c₂, hparse₂, -⟩ := Collect.bind_eq_ok_iff.mp hsame
      exact ⟨c₂, hparse₂⟩
    obtain ⟨tree₂, htree₂, -⟩ := ConfList.parse_eq_ok hparse₂
    obtain ⟨again, hagain, hsome₂⟩ := seedConflist_toJson htreeBridge hvalue htree₂
    obtain rfl : again.toJson print = same := Except.ok.inj (hagain.symm.trans hsame)
    exact ⟨(map_toJson_eq_iff hsome).mp hkept,
      (hall _).mp ((map_again_eq_iff hvalue hsome₂).mp hunchanged)⟩
  · rintro ⟨hprinted, hagain⟩
    have hreread := (hall _).mpr hagain
    obtain ⟨tree₂, htree₂⟩ : ∃ tree₂, (seeded.toJson print).mapOption read = some tree₂ := by
      refine exists_mapOption (map_distinct print seeded.toDoc_distinct) ?_
      rw [ConfList.toJson, value_map, hvalue, Value.all_map_iff]
      exact Value.all_mono hreread fun n ⟨m, hm, _⟩ => ⟨m, hm⟩
    obtain ⟨same, hsame, hsome₂⟩ := seedConflist_toJson htreeBridge hvalue htree₂
    refine ⟨seeded.toJson print, hseeded, (map_toJson_eq_iff hsome).mpr hprinted,
      ⟨same.toJson print, hsame, (map_again_eq_iff hvalue hsome₂).mpr hreread⟩, ?_⟩
    intro podCidrs'
    obtain ⟨again, hagain, hsome'⟩ := seedConflist_toJson htreeBridge hvalue htree₂
    obtain ⟨direct, hdirect, hdvalue, -⟩ := seedConflist_of_bridge print htree hc podCidrs' hbridge
    exact ⟨again.toJson print, direct.toJson print, hagain, hdirect,
      (map_again_eq_iff hdvalue hsome').mpr (all_seedConf hreread podCidrs')⟩

end Frame

section Sample

def samplePodCidr : IpNet := ⟨.ofOctets 10 244 0 0, 24, by decide⟩

/-- The reader of `serde_json` at the numbers of the samples: an integer that is no `u64` is read as
the nearest double. -/
def readNumber : String → Option Nat
  | "1500" => some 1500
  | "18446744073709551617" => some (2 ^ 64)
  | "1.8446744073709552e19" => some (2 ^ 64)
  | _ => none

/-- The double has the shortest text that is read as it. -/
def printNumber (n : Nat) : String :=
  if n = 1500 then "1500" else "1.8446744073709552e19"

def numberOf : String → Nat
  | "1500" => 1500
  | "18446744073709551617" => 18446744073709551617
  | "1.8446744073709552e19" => 18446744073709552000
  | _ => 0

/-- Two bridges, the first with null in its ipam and the other without one, and another plugin. -/
def sampleConf : Doc String :=
  .object [
    ("cniVersion", .string "0.3.0"),
    ("name", .string "mynet"),
    ("plugins", .array [
      .object [("type", .string "bridge"), ("bridge", .string "kube-bridge"),
        ("mtu", .number "1500"),
        ("ipam", .object [("type", .null), ("ranges", .null), ("dataDir", .string "/run/ipam")])],
      .object [("type", .string "bridge"), ("bridge", .string "br1"), ("ipam", .null)],
      .object [("type", .string "portmap"),
        ("capabilities", .object [("portMappings", .bool true)])]])]

/-- A number that is no `u64`. -/
def largeConf : Doc String :=
  .object [
    ("serial", .number "18446744073709551617"),
    ("plugins", .array [.object [("type", .string "bridge")]])]

end Sample

theorem sampleConf_seeded :
    SeedsFrame readNumber printNumber numberOf sampleConf [samplePodCidr] := by
  obtain ⟨c, hparse⟩ : ∃ c, ConfList.parse readNumber sampleConf = .ok c := ⟨_, rfl⟩
  refine (seed_conflist_frame_iff sampleConf c hparse [samplePodCidr]).mpr fun _ => ?_
  refine all_outsideRanges (all_of_numbers fun l hl => ?_)
  obtain rfl : l = "1500" := List.mem_singleton.mp hl
  exact ⟨1500, rfl, rfl, 1500, rfl, rfl⟩

/-- The number of an operator's own field is changed. -/
theorem large_number_changed :
    (∃ c, ConfList.parse readNumber largeConf = .ok c) ∧ HasBridge largeConf.value ∧
      ¬SeedsFrame readNumber printNumber numberOf largeConf [samplePodCidr] := by
  obtain ⟨tree, c, htree, hc⟩ : ∃ (tree : Doc Nat) (c : ConfList Nat),
      largeConf.mapOption readNumber = some tree ∧ ConfList.ofDoc tree = .ok c := ⟨_, _, rfl, rfl⟩
  have hbridge : HasBridge largeConf.value := ⟨_, rfl, _, List.mem_cons_self, rfl⟩
  refine ⟨⟨c, ConfList.parse_of_ofDoc htree hc⟩, hbridge, fun hframe => ?_⟩
  obtain ⟨out, hout, hkept, -⟩ := hframe.1 hbridge
  obtain ⟨seeded, hseeded, -, hsome⟩ :=
    seedConflist_of_bridge printNumber htree hc [samplePodCidr] hbridge
  obtain rfl : seeded.toJson printNumber = out := Except.ok.inj (hseeded.symm.trans hout)
  obtain ⟨n, hn, hnum⟩ : ∃ n, readNumber "18446744073709551617" = some n ∧
      numberOf (printNumber n) = numberOf "18446744073709551617" :=
    (map_toJson_eq_iff hsome).mp hkept "serial"
  obtain rfl : 2 ^ 64 = n := Option.some.inj hn
  exact absurd hnum (by decide)

/-! ## The agent's own list -/

section Own

variable (podCidrs podCidrs' : List IpNet)

theorem exists_ofDoc_kuberouterConflist :
    ∃ c, ConfList.ofDoc (kuberouterConflist podCidrs : Doc N) = .ok c := by
  obtain ⟨ranges, hranges⟩ : ∃ ranges, (Doc.array (podCidrs.map fun c =>
      .array [.object [("subnet", .string c.toText)]]) : Doc N).listOf
        (Doc.listOf Range.ofDoc) = .ok ranges := by
    refine Collect.mapM_isOk_iff.mpr fun doc hdoc => ?_
    obtain ⟨c, -, rfl⟩ := List.mem_map.mp hdoc
    exact ⟨_, rfl⟩
  obtain ⟨ipam, hipam⟩ : ∃ ipam, Ipam.ofDoc (kuberouterIpam podCidrs : Doc N) = .ok ipam :=
    ⟨_, Collect.bind_eq_ok_iff.mpr ⟨_, rfl, Collect.bind_eq_ok_iff.mpr ⟨some "host-local", rfl,
      Collect.bind_eq_ok_iff.mpr ⟨some ranges, congrArg (Functor.map some) hranges, rfl⟩⟩⟩⟩
  obtain ⟨bridge, hbridge⟩ : ∃ p, Plugin.ofDoc (kuberouterBridge podCidrs : Doc N) = .ok p :=
    ⟨_, Collect.bind_eq_ok_iff.mpr ⟨_, rfl, Collect.bind_eq_ok_iff.mpr ⟨"bridge", rfl,
      Collect.bind_eq_ok_iff.mpr ⟨some ipam, congrArg (Functor.map some) hipam, rfl⟩⟩⟩⟩
  obtain ⟨plugins, hplugins⟩ : ∃ plugins, (Doc.array [kuberouterBridge podCidrs,
      .object [("type", .string "loopback")]] : Doc N).listOf Plugin.ofDoc = .ok plugins := by
    refine Collect.mapM_isOk_iff.mpr fun doc hdoc => ?_
    obtain rfl | hdoc := List.mem_cons.mp hdoc
    · exact ⟨bridge, hbridge⟩
    · rw [List.mem_singleton.mp hdoc]
      exact ⟨_, rfl⟩
  exact ⟨_, Collect.bind_eq_ok_iff.mpr ⟨_, rfl,
    Collect.bind_eq_ok_iff.mpr ⟨plugins, hplugins, rfl⟩⟩⟩

/-- There are no numbers in it. -/
theorem map_kuberouterConflist (f : L → N) :
    (kuberouterConflist podCidrs : Doc L).map f = kuberouterConflist podCidrs := by
  simp [kuberouterConflist, kuberouterBridge, kuberouterIpam, Doc.map, mapItems, mapFields,
    mapItems_eq_map]

theorem rangesValue_eq : (Doc.array (podCidrs.map fun c =>
    .array [.object [("subnet", .string c.toText)]]) : Doc N).value = rangesValue podCidrs := by
  have hsubnet : ∀ c : IpNet, fieldValue [("subnet", (.string c.toText : Doc N))] =
      Function.update (fun _ => none) "subnet" (some (.string c.toText)) := by
    intro c
    funext k
    by_cases hk : k = "subnet"
    · subst hk
      rfl
    · rw [Function.update_of_ne hk, fieldValue_eq_none (by simpa using Ne.symm hk)]
  rw [rangesValue, value_array, List.map_map]
  refine congrArg Value.array (List.map_congr_left fun c _ => ?_)
  rw [Function.comp_apply, value_array, List.map_cons, List.map_nil, Doc.value, hsubnet]

theorem seedIpam_kuberouterIpam :
    seedIpam podCidrs' (some (readIpam (kuberouterIpam podCidrs : Doc N).value)) =
      (kuberouterIpam podCidrs').value := by
  rw [seedIpam, readIpam, Option.getD_some, kuberouterIpam, kuberouterIpam, Doc.value, Doc.value]
  simp only [Value.update_object]
  congr 1
  funext k
  by_cases htype : k = "type"
  · subst htype
    rfl
  · rw [Function.update_of_ne htype]
    by_cases hranges : k = "ranges"
    · subst hranges
      rw [Function.update_self, ← rangesValue_eq podCidrs']
      rfl
    · rw [Function.update_of_ne hranges, Function.update_of_ne htype, Function.update_of_ne hranges]
      simp [fieldValue, Ne.symm htype, Ne.symm hranges]

theorem seedPlugin_kuberouterBridge :
    seedPlugin podCidrs' (readPlugin (kuberouterBridge podCidrs : Doc N).value) =
      (kuberouterBridge podCidrs').value := by
  have hipam : ((present
      (fieldValue [("bridge", .string "kube-bridge"), ("hairpinMode", .bool true),
      ("ipam", kuberouterIpam podCidrs), ("isDefaultGateway", .bool true),
      ("type", .string "bridge")] "ipam")).map readIpam : Option (Value N)) =
      some (readIpam (kuberouterIpam podCidrs : Doc N).value) := rfl
  rw [seedPlugin, readPlugin, Value.update_update, kuberouterBridge, kuberouterBridge, Doc.value,
    Doc.value, Value.update_object, hipam, seedIpam_kuberouterIpam]
  exact congrArg Value.object (update_fieldValue [("bridge", .string "kube-bridge"),
    ("hairpinMode", .bool true)] _ _ (by simp))

theorem seedConf_kuberouterConflist :
    seedConf podCidrs' (readConf (kuberouterConflist podCidrs : Doc N).value) =
      (kuberouterConflist podCidrs').value := by
  have hloopback : readPlugin (Doc.object [("type", .string "loopback")] : Doc N).value =
      (Doc.object [("type", .string "loopback")]).value := by
    rw [readPlugin, Doc.value, Value.update_object]
    exact congrArg Value.object (Function.update_eq_self_iff.mpr rfl)
  have hplugins : seedPlugins podCidrs' ([(kuberouterBridge podCidrs : Doc N).value,
      (Doc.object [("type", .string "loopback")]).value].map readPlugin) =
      [(kuberouterBridge podCidrs').value, (Doc.object [("type", .string "loopback")]).value] := by
    have hfirst : isBridge (readPlugin (kuberouterBridge podCidrs : Doc N).value) = true := by
      rw [readPlugin, isBridge_update_ipam]
      rfl
    rw [List.map_cons, List.map_cons, List.map_nil, seedPlugins, Collect.modifyFirst, if_pos hfirst,
      seedPlugin_kuberouterBridge, hloopback]
  rw [seedConf, readConf, Value.update_update, kuberouterConflist, kuberouterConflist,
    Doc.value, Doc.value, Value.update_object]
  have hfield : (fieldValue [("cniVersion", .string "1.0.0"), ("name", .string "kube-router-rs"),
      ("plugins", .array [kuberouterBridge podCidrs, .object [("type", .string "loopback")]])]
      "plugins" : Option (Value N)) = some (.array [(kuberouterBridge podCidrs : Doc N).value,
        (Doc.object [("type", .string "loopback")]).value]) := rfl
  rw [hfield, Option.map_some, Option.map_some, Value.onItems_array, Value.onItems_array, hplugins]
  exact congrArg Value.object (update_fieldValue [("cniVersion", .string "1.0.0"),
    ("name", .string "kube-router-rs")] _ (.array [kuberouterBridge podCidrs',
      .object [("type", .string "loopback")]]) (by simp))

/-- Seeding the list of the agent gives the list it would write. -/
theorem seed_kuberouterConflist (read : L → Option N) (print : N → L) :
    ∃ out, seedConflist read print (kuberouterConflist podCidrs) podCidrs' = .ok out ∧
      out.value = (kuberouterConflist podCidrs').value := by
  have hbridge : HasBridge (kuberouterConflist podCidrs : Doc L).value :=
    ⟨_, rfl, _, List.mem_cons_self, rfl⟩
  obtain ⟨c, hc⟩ := exists_ofDoc_kuberouterConflist (N := N) podCidrs
  have htree : (kuberouterConflist podCidrs : Doc L).mapOption read =
      some (kuberouterConflist podCidrs) :=
    mapOption_of_map_some (by rw [map_kuberouterConflist, map_kuberouterConflist])
  obtain ⟨c', hseed, hvalue, -⟩ := seedConflist_of_bridge print htree hc podCidrs' hbridge
  refine ⟨c'.toJson print, hseed, ?_⟩
  rw [ConfList.toJson, value_map, hvalue, seedConf_kuberouterConflist, ← value_map,
    map_kuberouterConflist]

end Own

end KubeRouter.Cni
