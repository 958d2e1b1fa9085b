/-
  The numbers of JSON documents.

  A reader turns the texts of the numbers into numbers and may refuse one, a printer turns them back
  into texts. Both leave the tree as it is: `Doc.map` and `Value.map` change numbers only, and
  `Value.All` says something of every number that counts in a value.

  Proved:
  * `value_map`: changing the numbers of a document changes those of its value.
  * `Value.map_eq_map_iff`, `Value.map_eq_map_iff_of_map_some`: when two changes come to the same.
  * `map_some_of_mapOption`, `mapOption_of_map_some`, `exists_mapOption`: what is read, and when.
  * `SameOn.required`, `SameOn.optional`, `SameOn.ofFields`: whether a record is there does not
    depend on the numbers.
-/
import KubeRouter.Lib.Json

namespace Json

variable {N M Q : Type}

/-! ## Changing numbers -/

mutual

def Doc.map (f : N → M) : Doc N → Doc M
  | .null => .null
  | .bool b => .bool b
  | .number n => .number (f n)
  | .string s => .string s
  | .array items => .array (mapItems f items)
  | .object fields => .object (mapFields f fields)

def mapItems (f : N → M) : List (Doc N) → List (Doc M)
  | [] => []
  | doc :: docs => doc.map f :: mapItems f docs

def mapFields (f : N → M) : List (String × Doc N) → List (String × Doc M)
  | [] => []
  | (key, doc) :: fields => (key, doc.map f) :: mapFields f fields

end

mutual

/-- Change the numbers, if all of them can be. -/
def Doc.mapOption (f : N → Option M) : Doc N → Option (Doc M)
  | .null => some .null
  | .bool b => some (.bool b)
  | .number n => (f n).map .number
  | .string s => some (.string s)
  | .array items => (mapOptionItems f items).map .array
  | .object fields => (mapOptionFields f fields).map .object

def mapOptionItems (f : N → Option M) : List (Doc N) → Option (List (Doc M))
  | [] => some []
  | doc :: docs => (doc.mapOption f).bind fun doc => (mapOptionItems f docs).map (doc :: ·)

def mapOptionFields (f : N → Option M) : List (String × Doc N) → Option (List (String × Doc M))
  | [] => some []
  | (key, doc) :: fields =>
    (doc.mapOption f).bind fun doc => (mapOptionFields f fields).map ((key, doc) :: ·)

end

mutual

def Value.map (f : N → M) : Value N → Value M
  | .null => .null
  | .bool b => .bool b
  | .number n => .number (f n)
  | .string s => .string s
  | .array items => .array (mapValues f items)
  | .object field => .object fun k => mapField f (field k)

def mapValues (f : N → M) : List (Value N) → List (Value M)
  | [] => []
  | v :: vs => v.map f :: mapValues f vs

def mapField (f : N → M) : Option (Value N) → Option (Value M)
  | none => none
  | some v => some (v.map f)

end

mutual

/-- Every number of the value satisfies `p`. -/
def Value.All (p : N → Prop) : Value N → Prop
  | .null => True
  | .bool _ => True
  | .number n => p n
  | .string _ => True
  | .array items => AllValues p items
  | .object field => ∀ k, AllField p (field k)

def AllValues (p : N → Prop) : List (Value N) → Prop
  | [] => True
  | v :: vs => v.All p ∧ AllValues p vs

def AllField (p : N → Prop) : Option (Value N) → Prop
  | none => True
  | some v => v.All p

end

theorem mapItems_eq_map (f : N → M) (docs : List (Doc N)) :
    mapItems f docs = docs.map (Doc.map f) := by
  induction docs with
  | nil => rfl
  | cons doc docs ih => rw [mapItems, ih, List.map_cons]

theorem mapFields_eq_map (f : N → M) (fields : List (String × Doc N)) :
    mapFields f fields = fields.map fun e => (e.1, e.2.map f) := by
  induction fields with
  | nil => rfl
  | cons e fields ih =>
    obtain ⟨key, doc⟩ := e
    rw [mapFields, ih, List.map_cons]

theorem mapValues_eq_map (f : N → M) (vs : List (Value N)) :
    mapValues f vs = vs.map (Value.map f) := by
  induction vs with
  | nil => rfl
  | cons v vs ih => rw [mapValues, ih, List.map_cons]

theorem mapField_eq_map (f : N → M) (o : Option (Value N)) :
    mapField f o = o.map (Value.map f) := by
  cases o <;> rfl

theorem allValues_iff {p : N → Prop} {vs : List (Value N)} :
    AllValues p vs ↔ ∀ v ∈ vs, v.All p := by
  induction vs with
  | nil => exact iff_of_true trivial (by simp)
  | cons v vs ih => rw [AllValues, ih, List.forall_mem_cons]

mutual

/-- The numbers of a document, as they are written. -/
def Doc.numbers : Doc N → List N
  | .null => []
  | .bool _ => []
  | .number n => [n]
  | .string _ => []
  | .array items => itemNumbers items
  | .object fields => fieldNumbers fields

def itemNumbers : List (Doc N) → List N
  | [] => []
  | doc :: docs => doc.numbers ++ itemNumbers docs

def fieldNumbers : List (String × Doc N) → List N
  | [] => []
  | (_, doc) :: fields => doc.numbers ++ fieldNumbers fields

end

mutual

theorem all_of_numbers {p : N → Prop} : ∀ {doc : Doc N}, (∀ n ∈ doc.numbers, p n) →
    doc.value.All p
  | .null, _ => trivial
  | .bool _, _ => trivial
  | .number n, h => h n List.mem_cons_self
  | .string _, _ => trivial
  | .array _, h => allValues_of_numbers h
  | .object _, h => allField_of_numbers h

theorem allValues_of_numbers {p : N → Prop} : ∀ {docs : List (Doc N)},
    (∀ n ∈ itemNumbers docs, p n) → AllValues p (values docs)
  | [], _ => trivial
  | _ :: _, h => by
    obtain ⟨hdoc, hdocs⟩ := List.forall_mem_append.mp h
    exact ⟨all_of_numbers hdoc, allValues_of_numbers hdocs⟩

theorem allField_of_numbers {p : N → Prop} : ∀ {fields : List (String × Doc N)},
    (∀ n ∈ fieldNumbers fields, p n) → ∀ k, AllField p (fieldValue fields k)
  | [], _, _ => trivial
  | (key, _) :: fields, h, k => by
    obtain ⟨hdoc, hfields⟩ := List.forall_mem_append.mp h
    have htail := allField_of_numbers hfields k
    rw [fieldValue]
    cases hk : fieldValue fields k with
    | some v =>
      rw [hk] at htail
      exact htail
    | none =>
      rw [Option.none_or]
      split
      · exact all_of_numbers hdoc
      · trivial

end

/-! ## The value of a changed document -/

mutual

theorem value_map (f : N → M) : ∀ doc : Doc N, (doc.map f).value = doc.value.map f
  | .null => rfl
  | .bool _ => rfl
  | .number _ => rfl
  | .string _ => rfl
  | .array items => by rw [Doc.map, Doc.value, Doc.value, Value.map, values_map f items]
  | .object fields => by
    rw [Doc.map, Doc.value, Doc.value, Value.map]
    exact congrArg Value.object (funext (fieldValue_map f fields))

theorem values_map (f : N → M) : ∀ docs : List (Doc N),
    values (mapItems f docs) = mapValues f (values docs)
  | [] => rfl
  | doc :: docs => by rw [mapItems, values, values, mapValues, value_map f doc, values_map f docs]

theorem fieldValue_map (f : N → M) : ∀ (fields : List (String × Doc N)) (k : String),
    fieldValue (mapFields f fields) k = mapField f (fieldValue fields k)
  | [], _ => rfl
  | (key, doc) :: fields, k => by
    rw [mapFields, fieldValue, fieldValue, value_map f doc, fieldValue_map f fields k]
    cases fieldValue fields k with
    | some v => rfl
    | none => by_cases hk : key = k <;> simp [hk, mapField]

end

mutual

theorem Doc.map_map (f : N → M) (g : M → Q) : ∀ doc : Doc N,
    (doc.map f).map g = doc.map fun n => g (f n)
  | .null => rfl
  | .bool _ => rfl
  | .number _ => rfl
  | .string _ => rfl
  | .array items => by rw [Doc.map, Doc.map, Doc.map, mapItems_map f g items]
  | .object fields => by rw [Doc.map, Doc.map, Doc.map, mapFields_map f g fields]

theorem mapItems_map (f : N → M) (g : M → Q) : ∀ docs : List (Doc N),
    mapItems g (mapItems f docs) = mapItems (fun n => g (f n)) docs
  | [] => rfl
  | doc :: docs => by
    rw [mapItems, mapItems, mapItems, Doc.map_map f g doc, mapItems_map f g docs]

theorem mapFields_map (f : N → M) (g : M → Q) : ∀ fields : List (String × Doc N),
    mapFields g (mapFields f fields) = mapFields (fun n => g (f n)) fields
  | [] => rfl
  | (_, doc) :: fields => by
    rw [mapFields, mapFields, mapFields, Doc.map_map f g doc, mapFields_map f g fields]

end

mutual

theorem Value.map_map (f : N → M) (g : M → Q) : ∀ v : Value N,
    (v.map f).map g = v.map fun n => g (f n)
  | .null => rfl
  | .bool _ => rfl
  | .number _ => rfl
  | .string _ => rfl
  | .array items => by rw [Value.map, Value.map, Value.map, mapValues_map f g items]
  | .object field => by
    rw [Value.map, Value.map, Value.map]
    exact congrArg Value.object (funext fun k => mapField_map f g (field k))

theorem mapValues_map (f : N → M) (g : M → Q) : ∀ vs : List (Value N),
    mapValues g (mapValues f vs) = mapValues (fun n => g (f n)) vs
  | [] => rfl
  | v :: vs => by
    rw [mapValues, mapValues, mapValues, Value.map_map f g v, mapValues_map f g vs]

theorem mapField_map (f : N → M) (g : M → Q) : ∀ o : Option (Value N),
    mapField g (mapField f o) = mapField (fun n => g (f n)) o
  | none => rfl
  | some v => by rw [mapField, mapField, mapField, Value.map_map f g v]

end

mutual

/-- Two changes of a value come to the same exactly when they do for each of its numbers. -/
theorem Value.map_eq_map_iff (f g : N → M) : ∀ v : Value N,
    v.map f = v.map g ↔ v.All fun n => f n = g n
  | .null => iff_of_true rfl trivial
  | .bool _ => iff_of_true rfl trivial
  | .number n => by rw [Value.map, Value.map, Value.All, Value.number.injEq]
  | .string _ => iff_of_true rfl trivial
  | .array items => by
    rw [Value.map, Value.map, Value.All, Value.array.injEq, mapValues_eq_iff f g items]
  | .object field => by
    rw [Value.map, Value.map, Value.All, Value.object.injEq, funext_iff]
    exact forall_congr' fun k => mapField_eq_iff f g (field k)

theorem mapValues_eq_iff (f g : N → M) : ∀ vs : List (Value N),
    mapValues f vs = mapValues g vs ↔ AllValues (fun n => f n = g n) vs
  | [] => iff_of_true rfl trivial
  | v :: vs => by
    rw [mapValues, mapValues, AllValues, List.cons.injEq, Value.map_eq_map_iff f g v,
      mapValues_eq_iff f g vs]

theorem mapField_eq_iff (f g : N → M) : ∀ o : Option (Value N),
    mapField f o = mapField g o ↔ AllField (fun n => f n = g n) o
  | none => iff_of_true rfl trivial
  | some v => by rw [mapField, mapField, AllField, Option.some.injEq, Value.map_eq_map_iff f g v]

end

mutual

theorem Value.map_injective {f : N → M} (hf : Function.Injective f) : ∀ v w : Value N,
    v.map f = w.map f → v = w
  | .null, w, h => by cases w <;> simp_all [Value.map]
  | .bool _, w, h => by cases w <;> simp_all [Value.map]
  | .number _, w, h => by
    cases w with
    | number m => exact congrArg Value.number (hf (Value.number.inj h))
    | _ => simp [Value.map] at h
  | .string _, w, h => by cases w <;> simp_all [Value.map]
  | .array items, w, h => by
    cases w with
    | array items' =>
      exact congrArg Value.array (mapValues_injective hf items items' (Value.array.inj h))
    | _ => simp [Value.map] at h
  | .object field, w, h => by
    cases w with
    | object field' =>
      refine congrArg Value.object (funext fun k => ?_)
      exact mapField_injective hf (field k) (field' k) (congrFun (Value.object.inj h) k)
    | _ => simp [Value.map] at h

theorem mapValues_injective {f : N → M} (hf : Function.Injective f) : ∀ vs ws : List (Value N),
    mapValues f vs = mapValues f ws → vs = ws
  | [], ws, h => by cases ws <;> simp_all [mapValues]
  | v :: vs, ws, h => by
    cases ws with
    | nil => simp [mapValues] at h
    | cons w ws =>
      obtain ⟨hv, hvs⟩ := List.cons.inj h
      rw [Value.map_injective hf v w hv, mapValues_injective hf vs ws hvs]

theorem mapField_injective {f : N → M} (hf : Function.Injective f) : ∀ o o' : Option (Value N),
    mapField f o = mapField f o' → o = o'
  | none, o', h => by cases o' <;> simp_all [mapField]
  | some v, o', h => by
    cases o' with
    | none => simp [mapField] at h
    | some w => rw [Value.map_injective hf v w (Option.some.inj h)]

end

mutual

theorem Value.all_and_iff (p q : N → Prop) : ∀ v : Value N,
    (v.All fun n => p n ∧ q n) ↔ v.All p ∧ v.All q
  | .null => (and_self_iff).symm
  | .bool _ => (and_self_iff).symm
  | .number _ => Iff.rfl
  | .string _ => (and_self_iff).symm
  | .array items => allValues_and_iff p q items
  | .object field => (forall_congr' fun k => allField_and_iff p q (field k)).trans forall_and

theorem allValues_and_iff (p q : N → Prop) : ∀ vs : List (Value N),
    AllValues (fun n => p n ∧ q n) vs ↔ AllValues p vs ∧ AllValues q vs
  | [] => (and_self_iff).symm
  | v :: vs => by
    rw [AllValues, AllValues, AllValues, Value.all_and_iff p q v, allValues_and_iff p q vs]
    exact and_and_and_comm

theorem allField_and_iff (p q : N → Prop) : ∀ o : Option (Value N),
    AllField (fun n => p n ∧ q n) o ↔ AllField p o ∧ AllField q o
  | none => (and_self_iff).symm
  | some v => Value.all_and_iff p q v

end

namespace Value

variable {p : N → Prop}

theorem all_mono {q : N → Prop} {v : Value N} (h : v.All p) (hpq : ∀ n, p n → q n) : v.All q := by
  have hand : (fun n => p n ∧ q n) = p := funext fun n => propext (and_iff_left_of_imp (hpq n))
  rw [← hand] at h
  exact ((all_and_iff p q v).mp h).2

/-- A statement about all numbers, as a change of them. -/
theorem all_iff_map_eq (v : Value N) : v.All p ↔ v.map p = v.map fun _ => True := by
  rw [map_eq_map_iff]
  simp

theorem all_map_iff (f : N → M) {p : M → Prop} (v : Value N) :
    (v.map f).All p ↔ v.All fun n => p (f n) := by
  rw [all_iff_map_eq, map_map, map_map, all_iff_map_eq]

/-- Of a value that was read number by number, in the words of its source. -/
theorem all_iff_of_map_some {f : M → Option N} {v : Value N} {w : Value M}
    (h : v.map some = w.map f) : v.All p ↔ w.All fun m => ∃ n, f m = some n ∧ p n := by
  have hsome : v.All p ↔ (v.map some).All fun o => ∃ n, o = some n ∧ p n := by
    rw [all_map_iff]
    simp
  rw [hsome, h, all_map_iff]

/-- A value that was read number by number, and changed, against a change of its source. -/
theorem map_eq_map_iff_of_map_some {f : M → Option N} {v : Value N} {w : Value M}
    (h : v.map some = w.map f) (g : N → Q) (g' : M → Q) :
    v.map g = w.map g' ↔ w.All fun m => ∃ n, f m = some n ∧ g n = g' m := by
  have hsource : (v.map g).map some = w.map fun m => (f m).map g := by
    rw [← map_map f (Option.map g), ← h, map_map, map_map]
    rfl
  have htarget : (w.map g').map some = w.map fun m => some (g' m) := map_map g' some w
  have hinj : v.map g = w.map g' ↔ (v.map g).map some = (w.map g').map some :=
    ⟨congrArg _, map_injective (fun _ _ h => Option.some.inj h) _ _⟩
  rw [hinj, hsource, htarget, map_eq_map_iff]
  simp only [Option.map_eq_some_iff]

theorem all_update_congr {k : String} {g g' : Option (Value N) → Option (Value N)}
    (h : ∀ o, AllField p (g o) ↔ AllField p (g' o)) (v : Value N) :
    (v.update k g).All p ↔ (v.update k g').All p := by
  cases v with
  | object field =>
    refine forall_congr' fun j => ?_
    by_cases hj : j = k
    · subst hj
      rw [Function.update_self, Function.update_self, h]
    · rw [Function.update_of_ne hj, Function.update_of_ne hj]
  | _ => rfl

theorem all_update_iff {k : String} {g : Option (Value N) → Option (Value N)}
    (h : ∀ o, AllField p (g o) ↔ AllField p o) (v : Value N) : (v.update k g).All p ↔ v.All p := by
  have hcongr : (v.update k g).All p ↔ (v.update k fun o => o).All p := all_update_congr h v
  rw [hcongr]
  cases v with
  | object field => rw [update_object, Function.update_eq_self]
  | _ => rfl

theorem map_update {k : String} {g : Option (Value N) → Option (Value N)}
    {g' : Option (Value M) → Option (Value M)} (f : N → M)
    (h : ∀ o, (g o).map (map f) = g' (o.map (map f))) (v : Value N) :
    (v.update k g).map f = (v.map f).update k g' := by
  cases v with
  | object field =>
    rw [update_object, map, map, update_object]
    refine congrArg object (funext fun j => ?_)
    by_cases hj : j = k
    · subst hj
      rw [Function.update_self, Function.update_self, mapField_eq_map, mapField_eq_map, h]
    · rw [Function.update_of_ne hj, Function.update_of_ne hj]
  | _ => rfl

theorem map_onItems {g : List (Value N) → List (Value N)} {g' : List (Value M) → List (Value M)}
    (f : N → M) (h : ∀ items, (g items).map (map f) = g' (items.map (map f))) (v : Value N) :
    (v.onItems g).map f = (v.map f).onItems g' := by
  cases v with
  | array items =>
    rw [onItems_array, map, map, onItems_array, mapValues_eq_map, mapValues_eq_map, h]
  | _ => rfl

end Value

theorem allField_present_iff {p : N → Prop} (o : Option (Value N)) :
    AllField p (present o) ↔ AllField p o := by
  rcases o with _ | v
  · rfl
  · cases v <;> rfl

theorem present_map (f : N → M) (o : Option (Value N)) :
    (present o).map (Value.map f) = present (o.map (Value.map f)) := by
  rcases o with _ | v
  · rfl
  · cases v <;> rfl

/-! ## Reading numbers -/

mutual

/-- What is read is the document, number by number. -/
theorem map_some_of_mapOption {f : N → Option M} : ∀ {doc : Doc N} {doc' : Doc M},
    doc.mapOption f = some doc' → doc'.map some = doc.map f
  | .null, doc', h => by
    obtain rfl := Option.some.inj h
    rfl
  | .bool _, doc', h => by
    obtain rfl := Option.some.inj h
    rfl
  | .number n, doc', h => by
    obtain ⟨m, hm, rfl⟩ := Option.map_eq_some_iff.mp h
    exact congrArg Doc.number hm.symm
  | .string _, doc', h => by
    obtain rfl := Option.some.inj h
    rfl
  | .array items, doc', h => by
    obtain ⟨items', hitems, rfl⟩ := Option.map_eq_some_iff.mp h
    exact congrArg Doc.array (mapItems_some_of_mapOption hitems)
  | .object fields, doc', h => by
    obtain ⟨fields', hfields, rfl⟩ := Option.map_eq_some_iff.mp h
    exact congrArg Doc.object (mapFields_some_of_mapOption hfields)

theorem mapItems_some_of_mapOption {f : N → Option M} : ∀ {docs : List (Doc N)}
    {docs' : List (Doc M)}, mapOptionItems f docs = some docs' →
      mapItems some docs' = mapItems f docs
  | [], docs', h => by
    obtain rfl := Option.some.inj h
    rfl
  | doc :: docs, docs', h => by
    obtain ⟨doc', hdoc, h⟩ := Option.bind_eq_some_iff.mp h
    obtain ⟨docs', hdocs, rfl⟩ := Option.map_eq_some_iff.mp h
    rw [mapItems, mapItems, map_some_of_mapOption hdoc, mapItems_some_of_mapOption hdocs]

theorem mapFields_some_of_mapOption {f : N → Option M} : ∀ {fields : List (String × Doc N)}
    {fields' : List (String × Doc M)}, mapOptionFields f fields = some fields' →
      mapFields some fields' = mapFields f fields
  | [], fields', h => by
    obtain rfl := Option.some.inj h
    rfl
  | (key, doc) :: fields, fields', h => by
    obtain ⟨doc', hdoc, h⟩ := Option.bind_eq_some_iff.mp h
    obtain ⟨fields', hfields, rfl⟩ := Option.map_eq_some_iff.mp h
    rw [mapFields, mapFields, map_some_of_mapOption hdoc, mapFields_some_of_mapOption hfields]

end

mutual

theorem mapOption_map (f : N → M) (g : M → Option Q) : ∀ doc : Doc N,
    (doc.map f).mapOption g = doc.mapOption fun n => g (f n)
  | .null => rfl
  | .bool _ => rfl
  | .number _ => rfl
  | .string _ => rfl
  | .array items => by rw [Doc.map, Doc.mapOption, Doc.mapOption, mapOptionItems_map f g items]
  | .object fields => by rw [Doc.map, Doc.mapOption, Doc.mapOption, mapOptionFields_map f g fields]

theorem mapOptionItems_map (f : N → M) (g : M → Option Q) : ∀ docs : List (Doc N),
    mapOptionItems g (mapItems f docs) = mapOptionItems (fun n => g (f n)) docs
  | [] => rfl
  | doc :: docs => by
    rw [mapItems, mapOptionItems, mapOptionItems, mapOption_map f g doc,
      mapOptionItems_map f g docs]

theorem mapOptionFields_map (f : N → M) (g : M → Option Q) : ∀ fields : List (String × Doc N),
    mapOptionFields g (mapFields f fields) = mapOptionFields (fun n => g (f n)) fields
  | [] => rfl
  | (_, doc) :: fields => by
    rw [mapFields, mapOptionFields, mapOptionFields, mapOption_map f g doc,
      mapOptionFields_map f g fields]

end

mutual

theorem mapOption_some : ∀ doc : Doc N, doc.mapOption some = some doc
  | .null => rfl
  | .bool _ => rfl
  | .number _ => rfl
  | .string _ => rfl
  | .array items => by
    rw [Doc.mapOption, mapOptionItems_some items]
    rfl
  | .object fields => by
    rw [Doc.mapOption, mapOptionFields_some fields]
    rfl

theorem mapOptionItems_some : ∀ docs : List (Doc N), mapOptionItems some docs = some docs
  | [] => rfl
  | doc :: docs => by
    rw [mapOptionItems, mapOption_some doc, mapOptionItems_some docs]
    rfl

theorem mapOptionFields_some : ∀ fields : List (String × Doc N),
    mapOptionFields some fields = some fields
  | [] => rfl
  | (_, doc) :: fields => by
    rw [mapOptionFields, mapOption_some doc, mapOptionFields_some fields]
    rfl

end

theorem mapOption_of_map_some {f : N → Option M} {doc : Doc N} {doc' : Doc M}
    (h : doc'.map some = doc.map f) : doc.mapOption f = some doc' :=
  calc doc.mapOption f
    _ = (doc.map f).mapOption fun o => o := (mapOption_map f (fun o => o) doc).symm
    _ = doc'.mapOption some := by rw [← h, mapOption_map]
    _ = some doc' := mapOption_some doc'

mutual

/-- Without a key twice, a document is read when the numbers of its value are. -/
theorem exists_mapOption {f : N → Option M} : ∀ {doc : Doc N}, doc.Distinct →
    (doc.value.All fun n => ∃ m, f n = some m) → ∃ doc', doc.mapOption f = some doc'
  | .null, _, _ => ⟨_, rfl⟩
  | .bool _, _, _ => ⟨_, rfl⟩
  | .number n, _, h => by
    obtain ⟨m, hm⟩ := h
    exact ⟨.number m, congrArg (Option.map Doc.number) hm⟩
  | .string _, _, _ => ⟨_, rfl⟩
  | .array items, hdistinct, h => by
    obtain ⟨items', hitems⟩ := exists_mapOptionItems hdistinct h
    exact ⟨.array items', congrArg (Option.map Doc.array) hitems⟩
  | .object fields, hdistinct, h => by
    obtain ⟨fields', hfields⟩ := exists_mapOptionFields hdistinct.2 fun e he => by
      have hfield : AllField (fun n => ∃ m, f n = some m) (fieldValue fields e.1) := h e.1
      rwa [fieldValue_of_mem hdistinct.1 he] at hfield
    exact ⟨.object fields', congrArg (Option.map Doc.object) hfields⟩

theorem exists_mapOptionItems {f : N → Option M} : ∀ {docs : List (Doc N)}, DistinctItems docs →
    AllValues (fun n => ∃ m, f n = some m) (values docs) →
      ∃ docs', mapOptionItems f docs = some docs'
  | [], _, _ => ⟨[], rfl⟩
  | doc :: docs, hdistinct, h => by
    obtain ⟨doc', hdoc⟩ := exists_mapOption hdistinct.1 h.1
    obtain ⟨docs', hdocs⟩ := exists_mapOptionItems hdistinct.2 h.2
    exact ⟨doc' :: docs', by rw [mapOptionItems, hdoc, hdocs]; rfl⟩

theorem exists_mapOptionFields {f : N → Option M} : ∀ {fields : List (String × Doc N)},
    DistinctFields fields → (∀ e ∈ fields, e.2.value.All fun n => ∃ m, f n = some m) →
      ∃ fields', mapOptionFields f fields = some fields'
  | [], _, _ => ⟨[], rfl⟩
  | (key, doc) :: fields, hdistinct, h => by
    obtain ⟨hhead, htail⟩ := List.forall_mem_cons.mp h
    obtain ⟨doc', hdoc⟩ := exists_mapOption hdistinct.1 hhead
    obtain ⟨fields', hfields⟩ := exists_mapOptionFields hdistinct.2 htail
    exact ⟨(key, doc') :: fields', by rw [mapOptionFields, hdoc, hfields]; rfl⟩

end

mutual

theorem map_distinct (f : N → M) : ∀ {doc : Doc N}, doc.Distinct → (doc.map f).Distinct
  | .null, _ => trivial
  | .bool _, _ => trivial
  | .number _, _ => trivial
  | .string _, _ => trivial
  | .array _, h => mapItems_distinct f h
  | .object fields, h => by
    refine ⟨?_, mapFields_distinct f h.2⟩
    rw [mapFields_eq_map, List.map_map]
    exact h.1

theorem mapItems_distinct (f : N → M) : ∀ {docs : List (Doc N)}, DistinctItems docs →
    DistinctItems (mapItems f docs)
  | [], _ => trivial
  | _ :: _, h => ⟨map_distinct f h.1, mapItems_distinct f h.2⟩

theorem mapFields_distinct (f : N → M) : ∀ {fields : List (String × Doc N)},
    DistinctFields fields → DistinctFields (mapFields f fields)
  | [], _ => trivial
  | _ :: _, h => ⟨map_distinct f h.1, mapFields_distinct f h.2⟩

end

/-! ## Reading records -/

/-- Two decoders take the same documents, whatever `f` makes of the numbers. -/
def SameOn {α β : Type} (f : N → M) (decode : Doc N → Except DecodeError α)
    (decode' : Doc M → Except DecodeError β) : Prop :=
  ∀ doc, Collect.SameOk (decode doc) (decode' (doc.map f))

theorem fieldOf_map (f : N → M) (key : String) (fields : List (String × Doc N)) :
    fieldOf key (mapFields f fields) = (fieldOf key fields).map (Option.map (Doc.map f)) := by
  have hfilter : (mapFields f fields).filter (·.1 == key) =
      mapFields f (fields.filter (·.1 == key)) := by
    rw [mapFields_eq_map, mapFields_eq_map, List.filter_map]
    rfl
  unfold fieldOf
  rw [hfilter]
  generalize fields.filter (·.1 == key) = mine
  match mine with
  | [] => rfl
  | [_] => rfl
  | _ :: _ :: _ => rfl

namespace SameOn

variable {α β : Type} {f : N → M} {decode : Doc N → Except DecodeError α}
  {decode' : Doc M → Except DecodeError β}

theorem asString : SameOn f Doc.asString Doc.asString := by
  intro doc
  cases doc <;> simp [Collect.SameOk, Doc.asString, Doc.map]

theorem listOf (h : SameOn f decode decode') :
    SameOn f (Doc.listOf decode) (Doc.listOf decode') := by
  intro doc
  cases doc with
  | array items =>
    rw [Doc.map, Doc.listOf, Doc.listOf, Collect.SameOk, Collect.mapM_isOk_iff,
      Collect.mapM_isOk_iff, mapItems_eq_map, List.forall_mem_map]
    exact forall₂_congr fun doc _ => h doc
  | _ => simp [Collect.SameOk, Doc.listOf, Doc.map]

theorem required (h : SameOn f decode decode') (key : String) (fields : List (String × Doc N)) :
    Collect.SameOk (Json.required decode key fields)
      (Json.required decode' key (mapFields f fields)) := by
  unfold Json.required
  rw [fieldOf_map]
  cases fieldOf key fields with
  | error e => simp [Collect.SameOk, bind, Except.bind, Except.map]
  | ok found =>
    cases found with
    | none => simp [Collect.SameOk, bind, Except.bind, Except.map]
    | some doc => exact h doc

theorem optional (h : SameOn f decode decode') (key : String) (fields : List (String × Doc N)) :
    Collect.SameOk (Json.optional decode key fields)
      (Json.optional decode' key (mapFields f fields)) := by
  have hsome : ∀ doc, Collect.SameOk (some <$> decode doc) (some <$> decode' (doc.map f)) := by
    intro doc
    have hiff := h doc
    cases ha : decode doc <;> cases hb : decode' (doc.map f) <;>
      simp_all [Collect.SameOk, Functor.map, Except.map]
  unfold Json.optional
  rw [fieldOf_map]
  cases fieldOf key fields with
  | error e => simp [Collect.SameOk, bind, Except.bind, Except.map]
  | ok found =>
    cases found with
    | none => simp [Collect.SameOk, bind, Except.bind, Except.map]
    | some doc =>
      cases doc with
      | null => simp [Collect.SameOk, bind, Except.bind, Except.map, Doc.map]
      | _ => exact hsome _

/-- Records that are read from the same fields. -/
theorem ofFields {decode : List (String × Doc N) → Except DecodeError α}
    {decode' : List (String × Doc M) → Except DecodeError β}
    (h : ∀ fields, Collect.SameOk (decode fields) (decode' (mapFields f fields))) :
    SameOn f (fun doc => doc.asFields >>= decode) fun doc => doc.asFields >>= decode' := by
  intro doc
  cases doc with
  | object fields => exact h fields
  | _ => simp [Collect.SameOk, Doc.asFields, Doc.map, bind, Except.bind]

end SameOn

end Json
