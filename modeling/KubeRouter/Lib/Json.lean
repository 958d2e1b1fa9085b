/-
  JSON documents and their values.

  A document has the fields of an object as they are written, a key possibly more than once. Its
  value forgets their order: an object is a function from keys, and the last field of a key counts.
  `normal` is the form in which a document is kept, with every key once and in order. Numbers are of
  any type `N`.

  A record is read from an object by its keys; the fields with other keys are its `Rest`.

  Proved:
  * `value_normal`, `normal_distinct`: the kept form has the same value, and every key once.
  * `required_eq_ok`, `optional_eq_ok`: what a key that was read says about the value.
  * `Rest.fieldValue_ofFields`: the rest is the value without the keys of the record.
-/
import Mathlib.Logic.Function.Basic
import Std.Data.TreeMap
import KubeRouter.Lib.Collect

namespace Json

inductive Doc (N : Type) where
  | null
  | bool (b : Bool)
  | number (n : N)
  | string (s : String)
  | array (items : List (Doc N))
  | object (fields : List (String × Doc N))

inductive Value (N : Type) where
  | null
  | bool (b : Bool)
  | number (n : N)
  | string (s : String)
  | array (items : List (Value N))
  | object (field : String → Option (Value N))

variable {N : Type}

/-! ## The value of a document -/

mutual

def Doc.value : Doc N → Value N
  | .null => .null
  | .bool b => .bool b
  | .number n => .number n
  | .string s => .string s
  | .array items => .array (values items)
  | .object fields => .object (fieldValue fields)

def values : List (Doc N) → List (Value N)
  | [] => []
  | doc :: docs => doc.value :: values docs

/-- The value of the last field of a key. -/
def fieldValue : List (String × Doc N) → String → Option (Value N)
  | [], _ => none
  | (key, doc) :: fields, k => (fieldValue fields k).or (if key = k then some doc.value else none)

end

theorem values_eq_map (docs : List (Doc N)) : values docs = docs.map Doc.value := by
  induction docs with
  | nil => rfl
  | cons doc docs ih => rw [values, ih, List.map_cons]

theorem value_array (items : List (Doc N)) :
    (Doc.array items).value = .array (items.map Doc.value) := by
  rw [Doc.value, values_eq_map]

theorem fieldValue_append (fields fields' : List (String × Doc N)) (k : String) :
    fieldValue (fields ++ fields') k = (fieldValue fields' k).or (fieldValue fields k) := by
  induction fields with
  | nil => simp [fieldValue]
  | cons f fields ih =>
    obtain ⟨key, doc⟩ := f
    rw [List.cons_append, fieldValue, fieldValue, ih, Option.or_assoc]

theorem fieldValue_eq_none {fields : List (String × Doc N)} {k : String}
    (h : ∀ f ∈ fields, f.1 ≠ k) : fieldValue fields k = none := by
  induction fields with
  | nil => rfl
  | cons f fields ih =>
    obtain ⟨hf, hfields⟩ := List.forall_mem_cons.mp h
    obtain ⟨key, doc⟩ := f
    rw [fieldValue, ih hfields, if_neg hf]
    rfl

/-- Only the fields of the key count. -/
theorem fieldValue_filter (p : String × Doc N → Bool) {fields : List (String × Doc N)} {k : String}
    (hp : ∀ f ∈ fields, f.1 = k → p f = true) :
    fieldValue (fields.filter p) k = fieldValue fields k := by
  induction fields with
  | nil => rfl
  | cons f fields ih =>
    obtain ⟨hf, hfields⟩ := List.forall_mem_cons.mp hp
    obtain ⟨key, doc⟩ := f
    rw [List.filter_cons, fieldValue, ← ih hfields]
    split
    · rw [fieldValue]
    · next hout =>
      have hne : ¬key = k := fun hkey => hout (hf hkey)
      rw [if_neg hne, Option.or_none]

theorem fieldValue_of_mem {fields : List (String × Doc N)} (h : (fields.map Prod.fst).Nodup)
    {f : String × Doc N} (hf : f ∈ fields) : fieldValue fields f.1 = some f.2.value := by
  induction fields with
  | nil => cases hf
  | cons e fields ih =>
    obtain ⟨key, doc⟩ := e
    rw [List.map_cons, List.nodup_cons] at h
    rw [fieldValue]
    obtain rfl | hf := List.mem_cons.mp hf
    · have hnone : fieldValue fields key = none := by
        refine fieldValue_eq_none fun e he heq => h.1 ?_
        exact List.mem_map.mpr ⟨e, he, heq⟩
      rw [hnone, if_pos rfl]
      rfl
    · rw [ih h.2 hf]
      rfl

/-! ## Maps -/

/-- The entries of a map into which the fields are inserted one after the other. -/
def canonical {V : Type} (fields : List (String × V)) : Std.TreeMap String V :=
  fields.foldl (fun m f => m.insert f.1 f.2) ∅

theorem nodup_toList {V : Type} (m : Std.TreeMap String V) : (m.toList.map Prod.fst).Nodup := by
  rw [List.Nodup, List.pairwise_map]
  refine m.distinct_keys_toList.imp fun {a b} h heq => h ?_
  rw [heq]
  exact Std.ReflCmp.compare_self

theorem fieldValue_toList (m : Std.TreeMap String (Doc N)) (k : String) :
    fieldValue m.toList k = m[k]?.map Doc.value := by
  cases hk : m[k]? with
  | none =>
    refine fieldValue_eq_none fun f hf heq => ?_
    obtain ⟨key, doc⟩ := f
    have hget := Std.TreeMap.mem_toList_iff_getElem?_eq_some.mp hf
    rw [show key = k from heq, hk] at hget
    cases hget
  | some doc =>
    exact fieldValue_of_mem (nodup_toList m)
      (Std.TreeMap.mem_toList_iff_getElem?_eq_some.mpr hk)

/-- A map holds fields that were inserted. -/
theorem mem_of_canonical {V : Type} {fields : List (String × V)} {k : String} {v : V}
    (h : (canonical fields)[k]? = some v) : (k, v) ∈ fields := by
  have hrun : ∀ m : Std.TreeMap String V,
      (fields.foldl (fun m f => m.insert f.1 f.2) m)[k]? = some v →
        (k, v) ∈ fields ∨ m[k]? = some v := by
    clear h
    induction fields with
    | nil => exact fun m h => Or.inr h
    | cons f fields ih =>
      intro m h
      obtain ⟨key, w⟩ := f
      rcases ih _ h with hmem | hget
      · exact Or.inl (List.mem_cons_of_mem _ hmem)
      · rw [Std.TreeMap.getElem?_insert] at hget
        split at hget
        · next hkey =>
          obtain rfl : key = k := Std.LawfulEqCmp.compare_eq_iff_eq.mp hkey
          obtain rfl := Option.some.inj hget
          exact Or.inl List.mem_cons_self
        · exact Or.inr hget
  rcases hrun ∅ h with h | h
  · exact h
  · rw [Std.TreeMap.getElem?_emptyc] at h
    cases h

theorem getElem?_canonical (fields : List (String × Doc N)) (k : String) :
    (canonical fields)[k]?.map Doc.value = fieldValue fields k := by
  have hrun : ∀ m : Std.TreeMap String (Doc N),
      (fields.foldl (fun m f => m.insert f.1 f.2) m)[k]?.map Doc.value =
        (fieldValue fields k).or (m[k]?.map Doc.value) := by
    induction fields with
    | nil => exact fun m => rfl
    | cons f fields ih =>
      intro m
      obtain ⟨key, doc⟩ := f
      rw [List.foldl_cons, ih, fieldValue, Option.or_assoc, Std.TreeMap.getElem?_insert]
      by_cases hkey : key = k
      · simp [hkey]
      · simp [hkey]
  have hempty := hrun ∅
  rw [Std.TreeMap.getElem?_emptyc, Option.map_none, Option.or_none] at hempty
  exact hempty

/-! ## Normal form -/

mutual

def Doc.normal : Doc N → Doc N
  | .null => .null
  | .bool b => .bool b
  | .number n => .number n
  | .string s => .string s
  | .array items => .array (normals items)
  | .object fields => .object (canonical (normalFields fields)).toList

def normals : List (Doc N) → List (Doc N)
  | [] => []
  | doc :: docs => doc.normal :: normals docs

def normalFields : List (String × Doc N) → List (String × Doc N)
  | [] => []
  | (key, doc) :: fields => (key, doc.normal) :: normalFields fields

end

mutual

theorem value_normal : ∀ doc : Doc N, doc.normal.value = doc.value
  | .null => rfl
  | .bool _ => rfl
  | .number _ => rfl
  | .string _ => rfl
  | .array items => by rw [Doc.normal, Doc.value, Doc.value, values_normals]
  | .object fields => by
    have hfield : fieldValue (canonical (normalFields fields)).toList = fieldValue fields := by
      funext k
      rw [fieldValue_toList, getElem?_canonical, fieldValue_normalFields]
    rw [Doc.normal, Doc.value, Doc.value, hfield]

theorem values_normals : ∀ docs : List (Doc N), values (normals docs) = values docs
  | [] => rfl
  | doc :: docs => by rw [normals, values, values, value_normal doc, values_normals docs]

theorem fieldValue_normalFields : ∀ (fields : List (String × Doc N)) (k : String),
    fieldValue (normalFields fields) k = fieldValue fields k
  | [], _ => rfl
  | (key, doc) :: fields, k => by
    rw [normalFields, fieldValue, fieldValue, value_normal doc, fieldValue_normalFields fields]

end

/-! ## Distinct keys -/

mutual

/-- No object in the document has a key twice. -/
def Doc.Distinct : Doc N → Prop
  | .null => True
  | .bool _ => True
  | .number _ => True
  | .string _ => True
  | .array items => DistinctItems items
  | .object fields => (fields.map Prod.fst).Nodup ∧ DistinctFields fields

def DistinctItems : List (Doc N) → Prop
  | [] => True
  | doc :: docs => doc.Distinct ∧ DistinctItems docs

def DistinctFields : List (String × Doc N) → Prop
  | [] => True
  | (_, doc) :: fields => doc.Distinct ∧ DistinctFields fields

end

theorem distinctItems_iff {docs : List (Doc N)} :
    DistinctItems docs ↔ ∀ doc ∈ docs, doc.Distinct := by
  induction docs with
  | nil => exact iff_of_true trivial (by simp)
  | cons doc docs ih => rw [DistinctItems, ih, List.forall_mem_cons]

theorem distinctFields_iff {fields : List (String × Doc N)} :
    DistinctFields fields ↔ ∀ f ∈ fields, f.2.Distinct := by
  induction fields with
  | nil => exact iff_of_true trivial (by simp)
  | cons f fields ih =>
    obtain ⟨key, doc⟩ := f
    rw [DistinctFields, ih, List.forall_mem_cons]

mutual

theorem normal_distinct : ∀ doc : Doc N, doc.normal.Distinct
  | .null => trivial
  | .bool _ => trivial
  | .number _ => trivial
  | .string _ => trivial
  | .array items => by
    rw [Doc.normal, Doc.Distinct]
    exact normals_distinct items
  | .object fields => by
    rw [Doc.normal, Doc.Distinct]
    refine ⟨nodup_toList _, distinctFields_iff.mpr fun f hf => ?_⟩
    exact distinctFields_iff.mp (normalFields_distinct fields) f
      (mem_of_canonical (Std.TreeMap.mem_toList_iff_getElem?_eq_some.mp hf))

theorem normals_distinct : ∀ docs : List (Doc N), DistinctItems (normals docs)
  | [] => trivial
  | doc :: docs => ⟨normal_distinct doc, normals_distinct docs⟩

theorem normalFields_distinct : ∀ fields : List (String × Doc N),
    DistinctFields (normalFields fields)
  | [] => trivial
  | (_, doc) :: fields => ⟨normal_distinct doc, normalFields_distinct fields⟩

end

/-! ## Reading records -/

inductive DecodeError where
  | invalidType (expected : String)
  | missingField (key : String)
  | duplicateField (key : String)
  | numberOutOfRange
deriving DecidableEq, Repr

namespace Doc

def asString : Doc N → Except DecodeError String
  | .string s => .ok s
  | _ => .error (.invalidType "a string")

def asFields : Doc N → Except DecodeError (List (String × Doc N))
  | .object fields => .ok fields
  | _ => .error (.invalidType "a map")

def listOf {α : Type} (decode : Doc N → Except DecodeError α) : Doc N → Except DecodeError (List α)
  | .array items => items.mapM decode
  | _ => .error (.invalidType "a sequence")

end Doc

theorem asString_eq_ok_iff {doc : Doc N} {s : String} :
    doc.asString = .ok s ↔ doc = .string s := by
  cases doc <;> simp [Doc.asString]

theorem asFields_eq_ok_iff {doc : Doc N} {fields : List (String × Doc N)} :
    doc.asFields = .ok fields ↔ doc = .object fields := by
  cases doc <;> simp [Doc.asFields]

/-- The field of a key of the record, which must not be there twice. -/
def fieldOf (key : String) (fields : List (String × Doc N)) : Except DecodeError (Option (Doc N)) :=
  match fields.filter (·.1 == key) with
  | [] => .ok none
  | [f] => .ok (some f.2)
  | _ => .error (.duplicateField key)

def required {α : Type} (decode : Doc N → Except DecodeError α) (key : String)
    (fields : List (String × Doc N)) : Except DecodeError α := do
  match ← fieldOf key fields with
  | none => .error (.missingField key)
  | some doc => decode doc

/-- A key that may be missing; null is nothing. -/
def optional {α : Type} (decode : Doc N → Except DecodeError α) (key : String)
    (fields : List (String × Doc N)) : Except DecodeError (Option α) := do
  match ← fieldOf key fields with
  | none => .ok none
  | some .null => .ok none
  | some doc => some <$> decode doc

/-- The fields of an object that are not fields of the record, by key. -/
structure Rest (N : Type) (known : List String) where
  map : Std.TreeMap String (Doc N)
  unknown : ∀ k ∈ known, map[k]? = none
  distinct : ∀ (k : String) (doc : Doc N), map[k]? = some doc → doc.Distinct

theorem fieldOf_eq_ok {key : String} {fields : List (String × Doc N)} {found : Option (Doc N)}
    (h : fieldOf key fields = .ok found) : fieldValue fields key = found.map Doc.value := by
  rw [← fieldValue_filter (·.1 == key) (fun f _ hf => beq_iff_eq.mpr hf)]
  unfold fieldOf at h
  have hkey : ∀ f ∈ fields.filter (·.1 == key), f.1 = key :=
    fun f hf => beq_iff_eq.mp (List.mem_filter.mp hf).2
  generalize fields.filter (·.1 == key) = mine at h hkey
  match mine, h with
  | [], h =>
    cases h
    rfl
  | [f], h =>
    cases h
    obtain ⟨k, doc⟩ := f
    rw [fieldValue, if_pos (hkey _ List.mem_cons_self)]
    rfl

theorem fieldOf_append {key : String} {fields fields' : List (String × Doc N)}
    (h : ∀ f ∈ fields', f.1 ≠ key) : fieldOf key (fields ++ fields') = fieldOf key fields := by
  have hnil : fields'.filter (·.1 == key) = [] :=
    List.filter_eq_nil_iff.mpr fun f hf => by simpa using h f hf
  unfold fieldOf
  rw [List.filter_append, hnil, List.append_nil]

section Read

variable {α : Type} {decode : Doc N → Except DecodeError α} {key : String}
  {fields : List (String × Doc N)}

theorem required_eq_ok {a : α} (h : required decode key fields = .ok a) :
    ∃ doc, fieldValue fields key = some doc.value ∧ decode doc = .ok a := by
  unfold required at h
  cases hfield : fieldOf key fields with
  | error e =>
    rw [hfield] at h
    cases h
  | ok found =>
    rw [hfield] at h
    cases found with
    | none => cases h
    | some doc => exact ⟨doc, fieldOf_eq_ok hfield, h⟩

theorem optional_eq_ok {a : Option α} (h : optional decode key fields = .ok a) :
    (a = none ∧ (fieldValue fields key = none ∨ fieldValue fields key = some .null)) ∨
      ∃ doc b, a = some b ∧ fieldValue fields key = some doc.value ∧ doc ≠ .null ∧
        decode doc = .ok b := by
  unfold optional at h
  cases hfield : fieldOf key fields with
  | error e =>
    rw [hfield] at h
    cases h
  | ok found =>
    have hvalue := fieldOf_eq_ok hfield
    rw [hfield] at h
    cases found with
    | none =>
      cases h
      exact .inl ⟨rfl, .inl hvalue⟩
    | some doc =>
      by_cases hnull : doc = .null
      · subst hnull
        cases h
        exact .inl ⟨rfl, .inr hvalue⟩
      · have hdecode : (some <$> decode doc) = .ok a := by
          cases doc with
          | null => exact absurd rfl hnull
          | _ => exact h
        cases hb : decode doc with
        | error e =>
          rw [hb] at hdecode
          cases hdecode
        | ok b =>
          rw [hb] at hdecode
          cases hdecode
          exact .inr ⟨doc, b, rfl, hvalue, hnull, hb⟩

theorem required_of_fieldOf {doc : Doc N} (h : fieldOf key fields = .ok (some doc)) :
    required decode key fields = decode doc := by
  unfold required
  rw [h]
  rfl

theorem exists_optional (decode : Doc N → Except DecodeError α) {found : Option (Doc N)}
    (h : fieldOf key fields = .ok found)
    (hdoc : ∀ doc, found = some doc → ∃ a, decode doc = .ok a) :
    ∃ o, optional decode key fields = .ok o := by
  unfold optional
  rw [h]
  match found, hdoc with
  | none, _ => exact ⟨none, rfl⟩
  | some .null, _ => exact ⟨none, rfl⟩
  | some (.bool _), hdoc | some (.number _), hdoc | some (.string _), hdoc
  | some (.array _), hdoc | some (.object _), hdoc =>
    obtain ⟨a, ha⟩ := hdoc _ rfl
    exact ⟨some a, congrArg (Functor.map some) ha⟩

end Read

namespace Rest

variable {known : List String}

def fields (rest : Rest N known) : List (String × Doc N) := rest.map.toList

/-- The other fields, of which the last one with a key is kept. -/
def ofFields (known : List String) (fields : List (String × Doc N)) : Rest N known where
  map := canonical (normalFields (fields.filter fun f => !known.contains f.1))
  unknown := by
    intro k hk
    have hvalue := getElem?_canonical (normalFields (fields.filter fun f => !known.contains f.1)) k
    rw [fieldValue_normalFields, fieldValue_eq_none] at hvalue
    · exact Option.map_eq_none_iff.mp hvalue
    · rintro f hf rfl
      simpa [hk] using (List.mem_filter.mp hf).2
  distinct := fun k doc hdoc =>
    distinctFields_iff.mp (normalFields_distinct _) (k, doc) (mem_of_canonical hdoc)

def empty : Rest N known where
  map := ∅
  unknown := fun _ _ => Std.TreeMap.getElem?_emptyc
  distinct := by
    intro k doc h
    rw [Std.TreeMap.getElem?_emptyc] at h
    cases h

theorem key_not_known (rest : Rest N known) : ∀ f ∈ rest.fields, f.1 ∉ known := by
  rintro ⟨key, doc⟩ hf hkey
  have hget := Std.TreeMap.mem_toList_iff_getElem?_eq_some.mp hf
  rw [rest.unknown key hkey] at hget
  cases hget

/-- The rest is what the record does not have. -/
theorem fieldValue_ofFields {fields : List (String × Doc N)} {k : String} (hk : k ∉ known) :
    fieldValue (ofFields known fields).fields k = fieldValue fields k := by
  unfold Rest.fields ofFields
  rw [fieldValue_toList, getElem?_canonical, fieldValue_normalFields, fieldValue_filter]
  rintro f - rfl
  simpa using hk

@[simp] theorem fieldValue_empty (k : String) :
    fieldValue (empty : Rest N known).fields k = none := by
  unfold Rest.fields
  rw [fieldValue_toList]
  exact congrArg (Option.map Doc.value) Std.TreeMap.getElem?_emptyc

end Rest

/-! ## Writing records -/

/-- The fields of a record that are there. -/
def ownFields (own : List (String × Option (Doc N))) : List (String × Doc N) :=
  own.filterMap fun e => e.2.map fun doc => (e.1, doc)

/-- The document of a record: its own fields, then the rest. -/
def record {known : List String} (own : List (String × Option (Doc N))) (rest : Rest N known) :
    Doc N :=
  .object (ownFields own ++ rest.fields)

section Record

variable {known : List String} {own : List (String × Option (Doc N))}

theorem key_of_mem_ownFields {f : String × Doc N} (h : f ∈ ownFields own) :
    f.1 ∈ own.map Prod.fst := by
  obtain ⟨e, he, hf⟩ := List.mem_filterMap.mp h
  obtain ⟨doc, -, rfl⟩ := Option.map_eq_some_iff.mp hf
  exact List.mem_map_of_mem he

theorem fieldValue_ownFields (hown : (own.map Prod.fst).Nodup) {fields : List (String × Doc N)}
    (hfields : ∀ f ∈ fields, f.1 ∉ own.map Prod.fst) :
    fieldValue (ownFields own ++ fields) =
      own.foldr (fun e field => Function.update field e.1 (e.2.map Doc.value))
        (fieldValue fields) := by
  induction own with
  | nil => rfl
  | cons e own ih =>
    obtain ⟨key, found⟩ := e
    rw [List.map_cons, List.nodup_cons] at hown
    have htail := ih hown.2 fun f hf hmem => hfields f hf (List.mem_cons_of_mem key hmem)
    have hkey : fieldValue (ownFields own ++ fields) key = none := by
      refine fieldValue_eq_none fun f hf heq => ?_
      obtain hf | hf := List.mem_append.mp hf
      · exact hown.1 (heq ▸ key_of_mem_ownFields hf)
      · exact hfields f hf (heq ▸ List.mem_cons_self)
    rw [List.foldr_cons, ← htail]
    funext k
    cases found with
    | none =>
      have hskip : ownFields ((key, none) :: own) = ownFields own := rfl
      rw [hskip]
      by_cases hk : k = key
      · rw [hk, hkey, Function.update_self, Option.map_none]
      · rw [Function.update_of_ne hk]
    | some doc =>
      have hcons : ownFields ((key, some doc) :: own) = (key, doc) :: ownFields own := rfl
      rw [hcons, List.cons_append, fieldValue]
      by_cases hk : k = key
      · rw [hk, hkey, if_pos rfl, Function.update_self]
        rfl
      · rw [if_neg (Ne.symm hk), Option.or_none, Function.update_of_ne hk]

/-- The value of a record whose keys are those it was read by. -/
theorem value_record (rest : Rest N known) (hnodup : known.Nodup)
    (hown : own.map Prod.fst = known) :
    (record own rest).value = .object
      (own.foldr (fun e field => Function.update field e.1 (e.2.map Doc.value))
        (fieldValue rest.fields)) := by
  rw [record, Doc.value, fieldValue_ownFields (hown ▸ hnodup)]
  intro f hf
  rw [hown]
  exact rest.key_not_known f hf

theorem foldr_update_apply (own : List (String × Option (Doc N)))
    (field : String → Option (Value N)) (k : String) :
    own.foldr (fun e field => Function.update field e.1 (e.2.map Doc.value)) field k =
      ((own.lookup k).map (Option.map Doc.value)).getD (field k) := by
  induction own with
  | nil => rfl
  | cons e own ih =>
    obtain ⟨key, found⟩ := e
    rw [List.foldr_cons]
    by_cases hk : k = key
    · simp [hk]
    · have hbeq : (k == key) = false := beq_eq_false_iff_ne.mpr hk
      rw [Function.update_of_ne hk, ih, List.lookup_cons, hbeq]

/-- The value of a record whose rest was read from the fields. -/
theorem value_record_ofFields (known : List String) (fields : List (String × Doc N))
    (hnodup : known.Nodup) (hown : own.map Prod.fst = known) :
    (record own (Rest.ofFields known fields)).value = .object
      (own.foldr (fun e field => Function.update field e.1 (e.2.map Doc.value))
        (fieldValue fields)) := by
  rw [value_record _ hnodup hown]
  congr 1
  funext k
  rw [foldr_update_apply, foldr_update_apply]
  cases hk : own.lookup k with
  | some found => rfl
  | none =>
    have hout : k ∉ known := by
      rw [← hown, List.mem_map]
      rintro ⟨e, he, rfl⟩
      exact absurd rfl (bne_iff_ne.mp (List.lookup_eq_none_iff.mp hk e he))
    rw [Rest.fieldValue_ofFields hout]

/-- A record has every key once. -/
theorem distinct_record (rest : Rest N known) (hnodup : known.Nodup)
    (hown : own.map Prod.fst = known) (hdocs : ∀ e ∈ own, ∀ doc, e.2 = some doc → doc.Distinct) :
    (record own rest).Distinct := by
  rw [record, Doc.Distinct]
  constructor
  · have hkeys : ∀ own : List (String × Option (Doc N)),
        ((ownFields own).map Prod.fst).Sublist (own.map Prod.fst) := by
      intro own
      induction own with
      | nil => exact List.Sublist.slnil
      | cons e own ih =>
        obtain ⟨key, _ | doc⟩ := e
        · exact ih.cons key
        · exact ih.cons_cons key
    rw [List.map_append, List.nodup_append]
    refine ⟨(hkeys own).nodup (hown ▸ hnodup), nodup_toList rest.map, ?_⟩
    rintro k hk k' hk' rfl
    obtain ⟨f, hf, rfl⟩ := List.mem_map.mp hk'
    exact rest.key_not_known f hf (hown ▸ (hkeys own).subset hk)
  · refine distinctFields_iff.mpr fun f hf => ?_
    obtain hf | hf := List.mem_append.mp hf
    · obtain ⟨e, he, hf⟩ := List.mem_filterMap.mp hf
      obtain ⟨doc, hdoc, rfl⟩ := Option.map_eq_some_iff.mp hf
      exact hdocs e he doc hdoc
    · exact rest.distinct f.1 f.2 (Std.TreeMap.mem_toList_iff_getElem?_eq_some.mp hf)

/-- The own fields of a record are read back. -/
theorem fieldOf_record (own : List (String × Option (Doc N))) (rest : Rest N known) (key : String)
    (hnodup : known.Nodup) (hkey : key ∈ known) (hown : own.map Prod.fst = known) :
    fieldOf key (ownFields own ++ rest.fields) = .ok (own.lookup key).join := by
  rw [fieldOf_append fun f hf heq => rest.key_not_known f hf (heq ▸ hkey)]
  rw [← hown] at hnodup hkey
  clear hown
  induction own with
  | nil => cases hkey
  | cons e own ih =>
    obtain ⟨k, found⟩ := e
    rw [List.map_cons, List.nodup_cons] at hnodup
    by_cases hk : key = k
    · have hnil : (ownFields own).filter (·.1 == key) = [] := by
        refine List.filter_eq_nil_iff.mpr fun f hf hbeq => hnodup.1 ?_
        rw [← show f.1 = k from (beq_iff_eq.mp hbeq).trans hk]
        exact key_of_mem_ownFields hf
      cases found with
      | none =>
        have hskip : ownFields ((k, none) :: own) = ownFields own := rfl
        rw [hskip, fieldOf, hnil, hk, List.lookup_cons_self]
        rfl
      | some doc =>
        have hcons : ownFields ((k, some doc) :: own) = (k, doc) :: ownFields own := rfl
        rw [hcons, fieldOf, List.filter_cons_of_pos (by simp [hk]), hnil, hk, List.lookup_cons_self]
        rfl
    · have hbeq : (key == k) = false := beq_eq_false_iff_ne.mpr hk
      have htail := ih hnodup.2 ((List.mem_cons.mp hkey).resolve_left hk)
      rw [List.lookup_cons, hbeq, ← htail]
      cases found with
      | none => rfl
      | some doc =>
        have hcons : ownFields ((k, some doc) :: own) = [(k, doc)] ++ ownFields own := rfl
        rw [hcons, fieldOf, fieldOf, List.filter_append,
          List.filter_eq_nil_iff.mpr (by simpa using Ne.symm hk), List.nil_append]

end Record

/-! ## Changing values -/

/-- A change below another one. -/
theorem update_below {V : Type} {j k : String} (h : k ≠ j) (field : String → V) (a b c : V) :
    Function.update (Function.update (Function.update field k a) j b) k c =
      Function.update (Function.update field k c) j b := by
  rw [Function.update_comm h, Function.update_comm h, Function.update_idem]

/-- Replace the document of a key that is not written again. -/
theorem update_fieldValue {k : String} (before : List (String × Doc N)) (doc doc' : Doc N)
    {after : List (String × Doc N)} (h : ∀ f ∈ after, f.1 ≠ k) :
    Function.update (fieldValue (before ++ (k, doc) :: after)) k (some doc'.value) =
      fieldValue (before ++ (k, doc') :: after) := by
  funext j
  by_cases hj : j = k
  · subst hj
    rw [Function.update_self, fieldValue_append, fieldValue, fieldValue_eq_none h, if_pos rfl]
    rfl
  · rw [Function.update_of_ne hj, fieldValue_append, fieldValue_append, fieldValue, fieldValue,
      if_neg (Ne.symm hj), if_neg (Ne.symm hj)]

namespace Value

def get? : Value N → String → Option (Value N)
  | .object field, k => field k
  | _, _ => none

/-- Change one field of an object. -/
def update (k : String) (f : Option (Value N) → Option (Value N)) : Value N → Value N
  | .object field => .object (Function.update field k (f (field k)))
  | v => v

/-- Change the items of an array. -/
def onItems (f : List (Value N) → List (Value N)) : Value N → Value N
  | .array items => .array (f items)
  | v => v

@[simp] theorem get?_object (field : String → Option (Value N)) (k : String) :
    (object field).get? k = field k := rfl

@[simp] theorem update_object (field : String → Option (Value N)) (k : String)
    (f : Option (Value N) → Option (Value N)) :
    (object field).update k f = object (Function.update field k (f (field k))) := rfl

@[simp] theorem onItems_array (f : List (Value N) → List (Value N)) (items : List (Value N)) :
    (array items).onItems f = array (f items) := rfl

theorem onItems_map_id (v : Value N) : v.onItems (List.map fun item => item) = v := by
  cases v with
  | array items => simp
  | _ => rfl

theorem update_update (k : String) (f g : Option (Value N) → Option (Value N)) (v : Value N) :
    (v.update k f).update k g = v.update k fun o => g (f o) := by
  cases v with
  | object field => simp
  | _ => rfl

end Value

/-- Null is read as nothing. -/
def present : Option (Value N) → Option (Value N)
  | some .null => none
  | field => field

theorem present_value {doc : Doc N} (h : doc ≠ .null) :
    present (some doc.value) = some doc.value := by
  cases doc with
  | null => exact absurd rfl h
  | _ => rfl

theorem present_map_value {α : Type} {encode : α → Doc N} (h : ∀ a, encode a ≠ .null)
    (o : Option α) :
    present ((o.map encode).map Doc.value) = (o.map encode).map Doc.value := by
  cases o with
  | none => rfl
  | some a => exact present_value (h a)

section Lists

variable {α : Type} {decode : Doc N → Except DecodeError α}

/-- Items that are written as they were read. -/
theorem listOf_value (encode : α → Doc N) (f : Value N → Value N)
    (hitem : ∀ doc a, decode doc = .ok a → (encode a).value = f doc.value) {doc : Doc N}
    {as : List α}
    (h : doc.listOf decode = .ok as) :
    (Doc.array (as.map encode)).value = doc.value.onItems (List.map f) := by
  cases doc with
  | array items =>
    have hall := Collect.mapM_eq_ok_iff.mp h
    rw [value_array, value_array, Value.onItems_array]
    congr 1
    clear h
    induction hall with
    | nil => rfl
    | cons ha _ ih =>
      rw [List.map_cons, List.map_cons, List.map_cons, List.map_cons, hitem _ _ ha, ih]
  | _ => cases h

/-- A field that may be missing is written as it was read, unless it was null. -/
theorem optional_value (encode : α → Doc N) (f : Value N → Value N)
    (hitem : ∀ doc a, decode doc = .ok a → (encode a).value = f doc.value) {key : String}
    {fields : List (String × Doc N)} {found : Option α}
    (h : optional decode key fields = .ok found) :
    found.map (fun a => (encode a).value) = (present (fieldValue fields key)).map f := by
  obtain ⟨rfl, hnone | hnull⟩ | ⟨doc, a, rfl, hvalue, hne, hdoc⟩ := optional_eq_ok h
  · rw [hnone]
    rfl
  · rw [hnull]
    rfl
  · rw [hvalue, present_value hne, Option.map_some, Option.map_some, hitem doc a hdoc]

theorem exists_listOf {encode : α → Doc N} (hitem : ∀ a, ∃ a', decode (encode a) = .ok a')
    (as : List α) :
    ∃ as', (Doc.array (as.map encode)).listOf decode = .ok as' := by
  refine Collect.mapM_isOk_iff.mpr fun doc hdoc => ?_
  obtain ⟨a, -, rfl⟩ := List.mem_map.mp hdoc
  exact hitem a

end Lists

end Json
