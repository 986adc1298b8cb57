import RecordFilter.Filter.Json
import RecordFilter.Proofs.JsonText

/-!
# Saved filters

`Filter.ofText` reads back what `Filter.toText` writes, within the limits that it sets to a text. A
value takes part if it holds no floating-point number, since those may come back changed in the last
place, and if what it holds as JSON is an object, since all else would come back as a value of its
own kind. JSON objects come back with their keys in order (`Filter.keySorted`), as they are in every
filter that was read (`Filter.sorted_of_ofText`).
-/
namespace RecordFilter

open Json (Document)

namespace Value

mutual

/-- The value with the fields of each JSON object in the order of their keys. -/
def keySorted : Value → Value
  | null => null
  | bool b => bool b
  | int i => int i
  | float x => float x
  | text s => text s
  | list items => list (itemsKeySorted items)
  | json j => json j.keySorted

def itemsKeySorted : List Value → List Value
  | [] => []
  | v :: vs => keySorted v :: itemsKeySorted vs

end

/-- The value holds no floating-point number, and what it holds as JSON is an object. -/
inductive FloatFree : Value → Prop where
  | null : FloatFree null
  | bool (b : Bool) : FloatFree (bool b)
  | int (i : Int64) : FloatFree (int i)
  | text (s : String) : FloatFree (text s)
  | list (items : List Value) (all : ∀ v ∈ items, FloatFree v) : FloatFree (list items)
  | object (fields : List (String × Json))
      (integers : (Json.object fields).Numbers Json.Number.IsInteger) :
      FloatFree (json (.object fields))

/-- The keys of each JSON object in the value are in increasing order. -/
inductive Sorted : Value → Prop where
  | null : Sorted null
  | bool (b : Bool) : Sorted (bool b)
  | int (i : Int64) : Sorted (int i)
  | float (x : Float) : Sorted (float x)
  | text (s : String) : Sorted (text s)
  | list (items : List Value) (all : ∀ v ∈ items, Sorted v) : Sorted (list items)
  | json (j : Json) (sorted : j.Sorted) : Sorted (json j)

theorem itemsKeySorted_eq_map (items : List Value) : itemsKeySorted items = items.map keySorted := by
  induction items with
  | nil => rfl
  | cons v vs ih => rw [itemsKeySorted, ih, List.map_cons]

theorem itemsJson_eq_map (items : List Value) : itemsJson items = items.map toJson := by
  induction items with
  | nil => rfl
  | cons v vs ih => rw [itemsJson, ih, List.map_cons]

theorem ofItems_eq_map (items : List Json) : ofItems items = items.map ofJson := by
  induction items with
  | nil => rfl
  | cons j js ih => rw [ofItems, ih, List.map_cons]

theorem keySorted_eq_self {v : Value} (h : v.Sorted) : v.keySorted = v := by
  induction h with
  | null | bool | int | float | text => rfl
  | list items _ ih => rw [keySorted, itemsKeySorted_eq_map, List.map_congr_left ih, List.map_id']
  | json j sorted => rw [keySorted, Json.keySorted_eq_self sorted]

theorem isInteger_toJson (i : Int64) :
    Json.Number.IsInteger (if i < 0 then .negative i else .natural i.toInt.toNat.toUInt64) := by
  split
  · next below => exact below
  · trivial

theorem numbers_toJson {v : Value} (h : v.FloatFree) :
    v.toJson.Numbers Json.Number.IsInteger := by
  induction h with
  | null => exact .null
  | bool b => exact .bool b
  | int i => exact .number _ (isInteger_toJson i)
  | text s => exact .text s
  | list items _ ih =>
    rw [toJson, itemsJson_eq_map]
    exact .array _ (List.forall_mem_map.mpr ih)
  | object fields integers => exact integers

/-- An integer that is not negative is a natural number below the limit of the signed ones. -/
theorem natural_of_nonneg {i : Int64} (h : ¬ i < 0) :
    i.toInt.toNat.toUInt64 ≤ Int64.maxValue.toUInt64 ∧ i.toInt.toNat.toUInt64.toInt64 = i := by
  have above : 0 ≤ i.toInt := Int.not_lt.mp fun below => h (Int64.lt_iff_toInt_lt.mpr below)
  have upper : i.toInt ≤ 2 ^ 63 - 1 := i.toInt_le
  have limit : Int64.maxValue.toUInt64.toNat = 2 ^ 63 - 1 := rfl
  constructor
  · rw [UInt64.le_iff_toNat_le, Json.Number.toNat_natural above, limit]
    omega
  · calc i.toInt.toNat.toUInt64.toInt64 = Int64.ofNat i.toInt.toNat := UInt64.toInt64_ofNat'
      _ = Int64.ofInt i.toInt := by rw [← Int64.ofInt_eq_ofNat, Int.toNat_of_nonneg above]
      _ = i := Int64.ofInt_toInt i

/-- An integer comes back from the JSON number that it becomes. -/
theorem ofJson_toJson_int (i : Int64) : ofJson (toJson (int i)) = int i := by
  rw [toJson]
  split
  · rfl
  · next nonneg =>
    -- The number is written as a natural one, and read as an integer because it is small enough.
    obtain ⟨small, same⟩ := natural_of_nonneg nonneg
    rw [ofJson, if_pos small, same]

theorem ofJson_keySorted {v : Value} (h : v.FloatFree) :
    ofJson v.toJson.keySorted = v.keySorted := by
  induction h with
  | null | bool | text => rfl
  | int i => exact ofJson_toJson_int i
  | list items _ ih =>
    rw [toJson, Json.keySorted, ofJson, keySorted, itemsJson_eq_map, Json.itemsKeySorted_eq_map,
      ofItems_eq_map, itemsKeySorted_eq_map, List.map_map, List.map_map]
    exact congrArg list (List.map_congr_left ih)
  | object fields => rfl

/-- A value keeps the order of the keys in the JSON value that it is given as. -/
theorem sorted_ofJson {j : Json} (h : j.Sorted) : (ofJson j).Sorted := by
  induction h with
  | null => exact .null
  | bool b => exact .bool b
  | number n =>
    cases n with
    | natural n =>
      rw [ofJson]
      split
      · exact .int _
      · exact .float _
    | negative i => exact .int i
    | float x => exact .float x
  | text s => exact .text s
  | array items _ ih =>
    rw [ofJson, ofItems_eq_map]
    exact .list _ (List.forall_mem_map.mpr ih)
  | object fields keys all => exact .json _ (.object fields keys all)

/-- The document of a value is given the value again. -/
theorem ofDocument?_document {v : Value} (h : v.FloatFree) {room : Nat}
    (fits : v.toJson.nesting ≤ room) :
    ofDocument? room v.toJson.document = some v.keySorted := by
  have numbers := (numbers_toJson h).imp fun _ => Json.Number.IsInteger.readsBack
  rw [ofDocument?, Json.ofDocument?_document numbers fits, Option.map_some, ofJson_keySorted h]

end Value

namespace Json

namespace Document

/-- A field is found by its key if no other field has it. -/
theorem field?_of_mem {fields : List (String × Document)} (nodup : (fields.map Prod.fst).Nodup)
    {f : String × Document} (h : f ∈ fields) : field? fields f.1 = some (some f.2) := by
  have alone : fields.filter (·.1 == f.1) = [f] := by
    induction fields with
    | nil => cases h
    | cons e fields ih =>
      obtain ⟨fresh, nodup⟩ := List.nodup_cons.mp nodup
      obtain rfl | h := List.mem_cons.mp h
      · have others : fields.filter (·.1 == f.1) = [] := by
          rw [List.filter_eq_nil_iff]
          intro e he same
          exact fresh (List.mem_map.mpr ⟨e, he, eq_of_beq same⟩)
        simp [others]
      · have differ : e.1 ≠ f.1 := fun same => fresh (same ▸ List.mem_map_of_mem h)
        simp [differ, ih nodup h]
  rw [field?, alone]

theorem fields?_object (fields : List (String × Document)) :
    fields? (.object (fields.map fun f => (some f.1, f.2))) = some fields := by
  rw [fields?, mapM_eq_some_iff, List.forall₂_map_left_iff, List.forall₂_same]
  exact fun _ _ => rfl

/-- A record is read from an object with its fields and no others. -/
theorem record?_object (fields : List (String × Document)) (nodup : (fields.map Prod.fst).Nodup) :
    record? (fields.map Prod.fst) (.object (fields.map fun f => (some f.1, f.2))) =
      some (fields.map fun f => some f.2) := by
  rw [record?, fields?_object]
  · exact mapM_map_eq_some fun f hf => field?_of_mem nodup hf
  · exact fun _ h => by cases h

theorem record?_array (key : String) (items : List Json) :
    record? [key] (Json.document (.object [(key, .array items)])) =
      some [some (.array (itemsDocuments items))] :=
  record?_object [(key, .array (itemsDocuments items))] (List.pairwise_singleton _ key)

end Document

variable {α : Type} {toJson : α → Json} {items : List α}

/-- The items of an array are read back if each of them is. -/
theorem mapM_itemsDocuments {read : Document → Option α} {result : α → α}
    (h : ∀ x ∈ items, read (toJson x).document = some (result x)) :
    (itemsDocuments (items.map toJson)).mapM read = some (items.map result) := by
  rw [itemsDocuments_eq_map, List.map_map]
  exact mapM_map_eq_some h

theorem itemsNesting_map_le_iff {n : Nat} :
    itemsNesting (items.map toJson) ≤ n ↔ ∀ x ∈ items, (toJson x).nesting ≤ n := by
  rw [itemsNesting_le_iff, List.forall_mem_map]

theorem numbers_array {P : Number → Prop} (h : ∀ x ∈ items, (toJson x).Numbers P) :
    (array (items.map toJson)).Numbers P :=
  .array _ (List.forall_mem_map.mpr h)

/-- Of a record that is a list of parts, the parts nest two levels less. -/
theorem nesting_list_le_iff {key : String} {n : Nat} :
    (object [(key, array (items.map toJson))]).nesting ≤ n + 2 ↔
      ∀ x ∈ items, (toJson x).nesting ≤ n := by
  simp only [← itemsNesting_map_le_iff, nesting, fieldsNesting]
  omega

end Json

def Condition.keySorted (c : Condition) : Condition := { c with value := c.value.keySorted }

def SubGroup.keySorted (sub : SubGroup) : SubGroup := ⟨sub.conditions.map Condition.keySorted⟩

def Group.keySorted (group : Group) : Group := ⟨group.subGroups.map SubGroup.keySorted⟩

/-- The filter with the keys of its values in order. -/
def Filter.keySorted (f : Filter) : Filter := { f with groups := f.groups.map Group.keySorted }

def SubGroup.Values (P : Value → Prop) (sub : SubGroup) : Prop := ∀ c ∈ sub.conditions, P c.value

def Group.Values (P : Value → Prop) (group : Group) : Prop := ∀ sub ∈ group.subGroups, sub.Values P

/-- Whether the values of all conditions of the filter have the property. -/
def Filter.Values (P : Value → Prop) (f : Filter) : Prop := ∀ group ∈ f.groups, group.Values P

theorem Condition.keySorted_eq_self {c : Condition} (h : c.value.Sorted) : c.keySorted = c := by
  rw [Condition.keySorted, Value.keySorted_eq_self h]

theorem SubGroup.keySorted_eq_self {sub : SubGroup} (h : sub.Values Value.Sorted) :
    sub.keySorted = sub := by
  rw [SubGroup.keySorted, List.map_congr_left fun c hc => Condition.keySorted_eq_self (h c hc),
    List.map_id']

theorem Group.keySorted_eq_self {group : Group} (h : group.Values Value.Sorted) :
    group.keySorted = group := by
  rw [Group.keySorted, List.map_congr_left fun sub hsub => SubGroup.keySorted_eq_self (h sub hsub),
    List.map_id']

theorem Filter.keySorted_eq_self {f : Filter} (h : f.Values Value.Sorted) : f.keySorted = f := by
  rw [Filter.keySorted, List.map_congr_left fun group hg => Group.keySorted_eq_self (h group hg),
    List.map_id']

theorem Condition.numbers_toJson {c : Condition} (floatFree : c.value.FloatFree) :
    c.toJson.Numbers Json.Number.IsInteger :=
  .object _ (by simp [Json.Numbers.text, Value.numbers_toJson floatFree])

theorem SubGroup.numbers_toJson {sub : SubGroup} (floatFree : sub.Values Value.FloatFree) :
    sub.toJson.Numbers Json.Number.IsInteger := by
  have conditions := Json.numbers_array fun c hc => Condition.numbers_toJson (floatFree c hc)
  exact .object _ (List.forall_mem_singleton.mpr conditions)

theorem Group.numbers_toJson {group : Group} (floatFree : group.Values Value.FloatFree) :
    group.toJson.Numbers Json.Number.IsInteger := by
  have subGroups := Json.numbers_array fun sub hs => SubGroup.numbers_toJson (floatFree sub hs)
  exact .object _ (List.forall_mem_singleton.mpr subGroups)

theorem Condition.nesting_toJson_le_iff {c : Condition} {n : Nat} :
    c.toJson.nesting ≤ n + 1 ↔ c.value.toJson.nesting ≤ n := by
  simp [toJson, Json.nesting, Json.fieldsNesting]

/-- Of a condition only the value may come back as another one. -/
theorem Condition.ofDocument?_toJson (c : Condition) :
    ofDocument? c.toJson.document =
      (Value.ofDocument? (Json.maxNesting - valueLevel) c.value.toJson.document).map
        fun v => { c with value := v } := by
  have record : Document.record? ["property", "operator", "value"] c.toJson.document =
      some [some (.text (some c.property)), some (.text (some c.operator)),
        some c.value.toJson.document] :=
    Document.record?_object [("property", .text (some c.property)),
      ("operator", .text (some c.operator)), ("value", c.value.toJson.document)] (by simp)
  rw [ofDocument?, record]
  simp only [Option.bind_eq_bind, Option.bind_some, fieldOr, Document.text?]
  exact Option.map_eq_bind.symm

/-- A subgroup is read from the documents of its conditions. -/
theorem SubGroup.ofDocument?_object (conditions : List Json) :
    ofDocument? (Json.document (.object [("conditions", .array conditions)])) =
      ((Json.itemsDocuments conditions).mapM Condition.ofDocument?).map mk := by
  rw [ofDocument?, Document.record?_array]
  simp only [Option.bind_eq_bind, Option.bind_some, Document.items?]
  exact Option.map_eq_bind.symm

/-- A group is read from the documents of its subgroups. -/
theorem Group.ofDocument?_object (subGroups : List Json) :
    ofDocument? (Json.document (.object [("subGroups", .array subGroups)])) =
      ((Json.itemsDocuments subGroups).mapM SubGroup.ofDocument?).map mk := by
  rw [ofDocument?, Document.record?_array]
  simp only [Option.bind_eq_bind, Option.bind_some, Document.items?]
  exact Option.map_eq_bind.symm

theorem Condition.ofDocument?_document {c : Condition} (floatFree : c.value.FloatFree)
    (nesting : c.toJson.nesting ≤ Json.maxNesting - valueLevel + 1) :
    ofDocument? c.toJson.document = some c.keySorted := by
  have inner := nesting_toJson_le_iff.mp nesting
  rw [ofDocument?_toJson, Value.ofDocument?_document floatFree inner]
  rfl

theorem SubGroup.ofDocument?_document {sub : SubGroup} (floatFree : sub.Values Value.FloatFree)
    (nesting : sub.toJson.nesting ≤ Json.maxNesting - Condition.valueLevel + 3) :
    ofDocument? sub.toJson.document = some sub.keySorted := by
  have inner := Json.nesting_list_le_iff.mp nesting
  rw [toJson, ofDocument?_object, Json.mapM_itemsDocuments fun c hc =>
    Condition.ofDocument?_document (floatFree c hc) (inner c hc)]
  rfl

theorem Group.ofDocument?_document {group : Group} (floatFree : group.Values Value.FloatFree)
    (nesting : group.toJson.nesting ≤ Json.maxNesting - Condition.valueLevel + 5) :
    ofDocument? group.toJson.document = some group.keySorted := by
  have inner := Json.nesting_list_le_iff.mp nesting
  rw [toJson, ofDocument?_object, Json.mapM_itemsDocuments fun sub hsub =>
    SubGroup.ofDocument?_document (floatFree sub hsub) (inner sub hsub)]
  rfl

section Reading

variable {P : Value → Prop} {d : Document}
  (holds : ∀ j, j.ReadWithin (Json.maxNesting - Condition.valueLevel) → P (.ofJson j))

include holds

/-- The value of a condition is one that is read, or null where there is none. -/
theorem Condition.holds_of_ofDocument? {c : Condition} (h : ofDocument? d = some c) :
    P c.value := by
  obtain ⟨parts, -, h⟩ := Option.bind_eq_some_iff.mp h
  split at h
  · next property operator value =>
    obtain ⟨_, -, h⟩ := Option.bind_eq_some_iff.mp h
    obtain ⟨_, -, h⟩ := Option.bind_eq_some_iff.mp h
    obtain ⟨v, hv, h⟩ := Option.bind_eq_some_iff.mp h
    cases h
    cases value with
    | none =>
      cases hv
      exact holds .null (.null _)
    | some d =>
      obtain ⟨j, hj, rfl⟩ := Option.map_eq_some_iff.mp hv
      exact holds j (Json.readWithin_of_ofDocument? d hj)
  · cases h

theorem SubGroup.values_of_ofDocument? {sub : SubGroup} (h : ofDocument? d = some sub) :
    sub.Values P := by
  obtain ⟨parts, -, h⟩ := Option.bind_eq_some_iff.mp h
  split at h
  · obtain ⟨items, -, h⟩ := Option.bind_eq_some_iff.mp h
    obtain ⟨conditions, read, h⟩ := Option.bind_eq_some_iff.mp h
    cases h
    intro c hc
    obtain ⟨d, -, hd⟩ := exists_mem_of_forall₂ (mapM_eq_some_iff.mp read) hc
    exact Condition.holds_of_ofDocument? holds hd
  · cases h

theorem Group.values_of_ofDocument? {group : Group} (h : ofDocument? d = some group) :
    group.Values P := by
  obtain ⟨parts, -, h⟩ := Option.bind_eq_some_iff.mp h
  split at h
  · obtain ⟨items, -, h⟩ := Option.bind_eq_some_iff.mp h
    obtain ⟨subGroups, read, h⟩ := Option.bind_eq_some_iff.mp h
    cases h
    intro sub hsub
    obtain ⟨d, -, hd⟩ := exists_mem_of_forall₂ (mapM_eq_some_iff.mp read) hsub
    exact SubGroup.values_of_ofDocument? holds hd
  · cases h

/-- What holds of every value that is read, null among them, holds of the values of a filter. -/
theorem Filter.values_of_ofDocument? {f : Filter} (h : ofDocument? d = some f) : f.Values P := by
  obtain ⟨parts, -, h⟩ := Option.bind_eq_some_iff.mp h
  split at h
  · next recordType groups =>
    obtain ⟨_, -, h⟩ := Option.bind_eq_some_iff.mp h
    obtain ⟨gs, hgs, h⟩ := Option.bind_eq_some_iff.mp h
    cases h
    cases groups with
    | none =>
      cases hgs
      exact List.forall_mem_nil _
    | some d =>
      obtain ⟨items, -, read⟩ := Option.bind_eq_some_iff.mp hgs
      intro group hgroup
      obtain ⟨d, -, hd⟩ := exists_mem_of_forall₂ (mapM_eq_some_iff.mp read) hgroup
      exact Group.values_of_ofDocument? holds hd
  · cases h

end Reading

theorem RecordType.trim_name (rt : RecordType) : Text.trim rt.name = rt.name := by
  cases rt <;> decide

theorem RecordType.name_ne_empty (rt : RecordType) : rt.name ≠ "" := by
  cases rt <;> decide

theorem RecordType.lowerAscii_name (rt : RecordType) : Text.lowerAscii rt.name = rt.name := by
  cases rt <;> cbv

theorem RecordType.ofName?_name (rt : RecordType) : ofName? rt.name = some rt := by
  simp only [ofName?, Text.sameLetters, trim_name, lowerAscii_name]
  exact ofExactName?_name rt

theorem RecordType.ofDocument_name (rt : RecordType) :
    ofDocument (.text (some rt.name)) = .ok (some rt) := by
  simp only [ofDocument, rt.trim_name, if_neg rt.name_ne_empty, ofName, rt.ofName?_name]

namespace Filter

def recordTypeJson (f : Filter) : Json :=
  match f.recordType with
  | some rt => .text rt.name
  | none => .null

theorem toOption_ofDocument_recordTypeJson (f : Filter) :
    (RecordType.ofDocument f.recordTypeJson.document).toOption = some f.recordType := by
  rw [recordTypeJson]
  cases f.recordType with
  | some rt => exact congrArg Except.toOption rt.ofDocument_name
  | none => rfl

theorem toJson_eq (f : Filter) :
    f.toJson = .object [("recordType", f.recordTypeJson),
      ("groups", .array (f.groups.map Group.toJson))] := rfl

/-- A filter is read from the documents of its groups. -/
theorem ofDocument?_toJson (f : Filter) :
    ofDocument? f.toJson.document =
      ((Json.itemsDocuments (f.groups.map Group.toJson)).mapM Group.ofDocument?).map
        fun groups => { f with groups } := by
  have record : Document.record? ["recordType", "groups"] f.toJson.document =
      some [some f.recordTypeJson.document,
        some (.array (Json.itemsDocuments (f.groups.map Group.toJson)))] :=
    Document.record?_object [("recordType", f.recordTypeJson.document),
      ("groups", .array (Json.itemsDocuments (f.groups.map Group.toJson)))] (by simp)
  rw [ofDocument?, record]
  simp only [Option.bind_eq_bind, Option.bind_some, fieldOr, f.toOption_ofDocument_recordTypeJson,
    Document.items?]
  exact Option.map_eq_bind.symm

theorem nesting_toJson_le_iff {f : Filter} {n : Nat} :
    f.toJson.nesting ≤ n + 2 ↔ ∀ group ∈ f.groups, group.toJson.nesting ≤ n := by
  have flat : f.recordTypeJson.nesting = 0 := by
    rw [recordTypeJson]
    split <;> rfl
  simp only [← Json.itemsNesting_map_le_iff, toJson_eq, Json.nesting, Json.fieldsNesting, flat]
  omega

/-- The document of a filter is given the filter again. -/
theorem ofDocument?_document {f : Filter} (floatFree : f.Values Value.FloatFree)
    (nesting : f.toJson.nesting ≤ Json.maxNesting) :
    ofDocument? f.toJson.document = some f.keySorted := by
  -- Two of the levels around a value are those of the filter and of its list of groups.
  have inner : ∀ group ∈ f.groups,
      group.toJson.nesting ≤ Json.maxNesting - Condition.valueLevel + 5 :=
    nesting_toJson_le_iff.mp nesting
  rw [ofDocument?_toJson, Json.mapM_itemsDocuments fun group hg =>
    Group.ofDocument?_document (floatFree group hg) (inner group hg)]
  rfl

theorem numbers_toJson {f : Filter} (floatFree : f.Values Value.FloatFree) :
    f.toJson.Numbers Json.Number.IsInteger := by
  have groups := Json.numbers_array fun group hg => Group.numbers_toJson (floatFree group hg)
  have recordType : f.recordTypeJson.Numbers Json.Number.IsInteger := by
    rw [recordTypeJson]
    split
    · exact .text _
    · exact .null
  rw [toJson_eq]
  exact .object _ (by simp [recordType, groups])

theorem ofText_eq_ok_iff {t : String} {f : Filter} :
    ofText t = .ok f ↔
      t.utf8ByteSize ≤ maxBytes ∧ (Document.read? t).bind ofDocument? = some f := by
  rw [ofText]
  split
  · next large => simp [Nat.not_le.mpr large]
  · next small =>
    split
    · next g read => simp [Nat.not_lt.mp small, read]
    · next read => simp [read]

/-- The JSON objects in a filter that was read have their keys in order. -/
theorem sorted_of_ofText {t : String} {f : Filter} (h : ofText t = .ok f) :
    f.Values Value.Sorted := by
  obtain ⟨d, -, hd⟩ := Option.bind_eq_some_iff.mp (ofText_eq_ok_iff.mp h).2
  exact values_of_ofDocument? (fun j read => Value.sorted_ofJson read.sorted) hd

/-- A filter without floating-point numbers is read back from its text, within the limits of size
and nesting: with the keys of its JSON objects in order, and unchanged if they are in order. -/
theorem ofText_toText {f : Filter} (floatFree : f.Values Value.FloatFree)
    (size : f.toText.utf8ByteSize ≤ maxBytes) (nesting : f.toJson.nesting ≤ Json.maxNesting) :
    ofText f.toText = .ok f.keySorted ∧
      (f.Values Value.Sorted → ofText f.toText = .ok f) := by
  have numbers := (numbers_toJson floatFree).imp fun _ => Json.Number.IsInteger.scans
  have read : (Document.read? f.toText).bind ofDocument? = some f.keySorted := by
    rw [toText, Document.read?_render numbers, Option.bind_some,
      ofDocument?_document floatFree nesting]
  have result : ofText f.toText = .ok f.keySorted := by
    rw [ofText, if_neg (Nat.not_lt.mpr size), read]
  refine ⟨result, fun sorted => ?_⟩
  rw [result, keySorted_eq_self sorted]

/-- A filter about contacts with an empty group, an empty subgroup, a property to be escaped, and a
list that holds a list and an object. -/
def nested : Filter where
  recordType := some .contact
  groups := [⟨[]⟩, ⟨[⟨[]⟩, ⟨[⟨"na\"me\n", "in", .list [.null, .int (-5), .list [.text "\x01é"],
    .json (.object [("a", .number (.natural 1)), ("b", .array [])])]⟩]⟩]⟩]

theorem nested_floatFree : nested.Values Value.FloatFree := by
  have number : (Json.number (.natural 1)).Numbers Json.Number.IsInteger := .number _ trivial
  have array : (Json.array []).Numbers Json.Number.IsInteger := .array _ (List.forall_mem_nil _)
  have object := Value.FloatFree.object [("a", .number (.natural 1)), ("b", .array [])]
    (.object _ (by simp [number, array]))
  have list : (Value.list [.text "\x01é"]).FloatFree := .list _ (by simp [Value.FloatFree.text])
  have value := Value.FloatFree.list [.null, .int (-5), .list [.text "\x01é"],
    .json (.object [("a", .number (.natural 1)), ("b", .array [])])]
    (by simp [Value.FloatFree.null, Value.FloatFree.int, list, object])
  simp [Filter.Values, Group.Values, SubGroup.Values, nested, value]

theorem nested_sorted : nested.Values Value.Sorted := by
  have array : (Json.array []).Sorted := .array _ (List.forall_mem_nil _)
  have object : (Json.object [("a", .number (.natural 1)), ("b", .array [])]).Sorted :=
    .object _ (by decide) (by simp [Json.Sorted.number, array])
  have list : (Value.list [.text "\x01é"]).Sorted := .list _ (by simp [Value.Sorted.text])
  have value := Value.Sorted.list [.null, .int (-5), .list [.text "\x01é"],
    .json (.object [("a", .number (.natural 1)), ("b", .array [])])]
    (by simp [Value.Sorted.null, Value.Sorted.int, list, Value.Sorted.json _ object])
  simp [Filter.Values, Group.Values, SubGroup.Values, nested, value]

theorem ofText_toText_nested : ofText nested.toText = .ok nested :=
  (ofText_toText nested_floatFree (by decide +kernel) (by decide)).2 nested_sorted

end Filter

end RecordFilter
