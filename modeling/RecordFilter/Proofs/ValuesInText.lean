import RecordFilter.Filter.Edit
import RecordFilter.Proofs.Resaving

/-!
# Where values stand in the text of a filter

Each value of a filter that is read is what its own part of the text says, however the records
around it are spelled (`Filter.exists_condition_of_ofText`). Each value of a filter that is written
stands in the text as its own text, and what is in front of it and behind it does not depend on it
(`Filter.exists_toText_setValue`).
-/
namespace RecordFilter

open Json (Document)

/-- The part of a record that has the index among the names. -/
def Json.Document.part? (names : List String) (i : Nat) (d : Document) : Option Document :=
  (d.record? names).bind fun parts => parts[i]?.join

/-- An item of the array that is the part of a record. -/
def Json.Document.item? (names : List String) (i j : Nat) (d : Document) : Option Document := do
  let items ← (← d.part? names i).items?
  items[j]?

/-- What the document of a filter has as the value of the condition at a path. -/
def Filter.valueDocument? (d : Document) (p : Path) : Option Document := do
  let group ← d.item? ["recordType", "groups"] 1 p.group
  let sub ← group.item? ["subGroups"] 0 p.subGroup
  let condition ← sub.item? ["conditions"] 0 p.condition
  condition.part? ["property", "operator", "value"] 2

/-- Where the items of a part of a record are read one by one, each result is that of its item. -/
theorem Json.Document.exists_of_item? {α : Type} {read : Document → Option α} {d e list : Document}
    {names : List String} {parts : List (Option Document)} {items : List Document} {ys : List α}
    {i j : Nat} (record : d.record? names = some parts) (part : parts[i]? = some (some list))
    (array : list.items? = some items) (all : items.mapM read = some ys)
    (stands : d.item? names i j = some e) : ∃ y, ys[j]? = some y ∧ read e = some y := by
  have item : items[j]? = some e := by
    simpa [item?, part?, record, part, array] using stands
  exact exists_getElem?_of_forall₂ (mapM_eq_some_iff.mp all) item

theorem SubGroup.exists_condition {d e : Document} {sub : SubGroup} {i : Nat}
    (h : ofDocument? d = some sub) (stands : d.item? ["conditions"] 0 i = some e) :
    ∃ c, sub.conditions[i]? = some c ∧ Condition.ofDocument? e = some c := by
  obtain ⟨parts, record, h⟩ := Option.bind_eq_some_iff.mp h
  split at h
  · obtain ⟨items, array, h⟩ := Option.bind_eq_some_iff.mp h
    obtain ⟨conditions, all, h⟩ := Option.bind_eq_some_iff.mp h
    cases h
    exact Document.exists_of_item? record rfl array all stands
  · cases h

theorem Group.exists_subGroup {d e : Document} {group : Group} {i : Nat}
    (h : ofDocument? d = some group) (stands : d.item? ["subGroups"] 0 i = some e) :
    ∃ sub, group.subGroups[i]? = some sub ∧ SubGroup.ofDocument? e = some sub := by
  obtain ⟨parts, record, h⟩ := Option.bind_eq_some_iff.mp h
  split at h
  · obtain ⟨items, array, h⟩ := Option.bind_eq_some_iff.mp h
    obtain ⟨subGroups, all, h⟩ := Option.bind_eq_some_iff.mp h
    cases h
    exact Document.exists_of_item? record rfl array all stands
  · cases h

theorem Filter.exists_group {d e : Document} {f : Filter} {i : Nat}
    (h : ofDocument? d = some f) (stands : d.item? ["recordType", "groups"] 1 i = some e) :
    ∃ group, f.groups[i]? = some group ∧ Group.ofDocument? e = some group := by
  obtain ⟨parts, record, h⟩ := Option.bind_eq_some_iff.mp h
  split at h
  · next recordType groups =>
    obtain ⟨_, -, h⟩ := Option.bind_eq_some_iff.mp h
    obtain ⟨gs, read, h⟩ := Option.bind_eq_some_iff.mp h
    cases h
    cases groups with
    | none => simp [Document.item?, Document.part?, record] at stands
    | some list =>
      obtain ⟨items, array, all⟩ := Option.bind_eq_some_iff.mp read
      exact Document.exists_of_item? record rfl array all stands
  · cases h

theorem Condition.value_of_ofDocument? {d v : Document} {c : Condition}
    (h : ofDocument? d = some c) (stands : d.part? ["property", "operator", "value"] 2 = some v) :
    Value.ofDocument? (Json.maxNesting - valueLevel) v = some c.value := by
  obtain ⟨parts, record, h⟩ := Option.bind_eq_some_iff.mp h
  split at h
  · next property operator value =>
    obtain ⟨_, -, h⟩ := Option.bind_eq_some_iff.mp h
    obtain ⟨_, -, h⟩ := Option.bind_eq_some_iff.mp h
    obtain ⟨w, read, h⟩ := Option.bind_eq_some_iff.mp h
    cases h
    obtain rfl : value = some v := by simpa [Document.part?, record] using stands
    exact read
  · cases h

/-- A filter that is read has a condition at every path where the document has the value of one, and
the value of the condition is what that part of the document says. -/
theorem Filter.exists_condition_of_ofText {t : String} {f : Filter} {d v : Document} {p : Path}
    (h : ofText t = .ok f) (read : Document.read? t = some d)
    (stands : valueDocument? d p = some v) :
    ∃ c, f.condition? p = some c ∧
      Value.ofDocument? (Json.maxNesting - Condition.valueLevel) v = some c.value := by
  have whole : ofDocument? d = some f := by
    have accepted := (ofText_eq_ok_iff.mp h).2
    rwa [read, Option.bind_some] at accepted
  obtain ⟨e, hgroup, stands⟩ := Option.bind_eq_some_iff.mp stands
  obtain ⟨e', hsub, stands⟩ := Option.bind_eq_some_iff.mp stands
  obtain ⟨e'', hcondition, stands⟩ := Option.bind_eq_some_iff.mp stands
  obtain ⟨group, found, hgroup⟩ := exists_group whole hgroup
  obtain ⟨sub, foundSub, hsub⟩ := Group.exists_subGroup hgroup hsub
  obtain ⟨c, foundCondition, hcondition⟩ := SubGroup.exists_condition hsub hcondition
  have at_path : f.condition? p = some c := by
    simp [condition?, subGroup?, found, foundSub, foundCondition]
  exact ⟨c, at_path, Condition.value_of_ofDocument? hcondition stands⟩

namespace Json

/-- Whether a value stands in what is written around it as its own text, with the same characters in
front of it and behind it whatever it is. -/
def Surrounds (around : Json → Json) : Prop :=
  ∃ front back, ∀ j, (around j).chars = front ++ (j.chars ++ back)

theorem exists_intercalate (separator : Char) (before after : List (List Char)) :
    ∃ front back, ∀ part, [separator].intercalate (before ++ part :: after) =
      front ++ (part ++ back) := by
  cases before with
  | nil => exact ⟨[], _, fun part => by rw [List.nil_append, intercalate_cons, List.nil_append]⟩
  | cons first before =>
    refine ⟨first ++ (before.flatMap (separator :: ·) ++ [separator]),
      after.flatMap (separator :: ·), fun part => ?_⟩
    rw [List.cons_append, intercalate_cons, List.flatMap_append, List.flatMap_cons]
    simp only [List.append_assoc, List.cons_append, List.nil_append]

theorem surrounds_item (before after : List Json) :
    Surrounds fun j => array (before ++ j :: after) := by
  obtain ⟨front, back, h⟩ := exists_intercalate ',' (itemsChars before) (itemsChars after)
  refine ⟨'[' :: front, back ++ [']'], fun j => ?_⟩
  rw [chars, itemsChars_eq_map, List.map_append, List.map_cons, ← itemsChars_eq_map,
    ← itemsChars_eq_map, h, List.cons_append, List.append_assoc, List.append_assoc]

theorem surrounds_field (before after : List (String × Json)) (key : String) :
    Surrounds fun j => object (before ++ (key, j) :: after) := by
  obtain ⟨front, back, h⟩ := exists_intercalate ',' (fieldsChars before) (fieldsChars after)
  refine ⟨'{' :: (front ++ quotedChars key ++ [':']), back ++ ['}'], fun j => ?_⟩
  rw [chars, fieldsChars_eq_map, List.map_append, List.map_cons, ← fieldsChars_eq_map,
    ← fieldsChars_eq_map, h]
  simp only [List.append_assoc, List.cons_append, List.nil_append]

theorem Surrounds.comp {outer inner : Json → Json} (ho : Surrounds outer) (hi : Surrounds inner) :
    Surrounds fun j => outer (inner j) := by
  obtain ⟨front, back, ho⟩ := ho
  obtain ⟨front', back', hi⟩ := hi
  refine ⟨front ++ front', back' ++ back, fun j => ?_⟩
  rw [ho, hi]
  simp only [List.append_assoc]

/-- If a value stands in one item of a list as it is written, it stands in the list. -/
theorem exists_surrounds_modify {α : Type} {toJson : α → Json} {l : List α} {i : Nat} {x : α}
    (found : l[i]? = some x) {change : Value → α → α}
    (inner : ∃ around, Surrounds around ∧ ∀ v, toJson (change v x) = around v.toJson) (key : String)
    (before : List (String × Json)) : ∃ around, Surrounds around ∧ ∀ v : Value,
      object (before ++ [(key, array ((l.modify i (change v)).map toJson))]) = around v.toJson := by
  obtain ⟨around, surrounds, written⟩ := inner
  obtain ⟨h, rfl⟩ := List.getElem?_eq_some_iff.mp found
  have item := surrounds_item ((l.take i).map toJson) ((l.drop (i + 1)).map toJson)
  refine ⟨_, (surrounds_field before [] key).comp (item.comp surrounds), fun v => ?_⟩
  rw [List.modify_eq_take_cons_drop h, List.map_append, List.map_cons, written]

end Json

theorem Condition.exists_surrounds (c : Condition) :
    ∃ around, Json.Surrounds around ∧ ∀ v, ({ c with value := v } : Condition).toJson =
      around v.toJson :=
  ⟨_, Json.surrounds_field [("property", .text c.property), ("operator", .text c.operator)] []
    "value", fun _ => rfl⟩

theorem SubGroup.exists_surrounds {sub : SubGroup} {i : Nat} {c : Condition}
    (found : sub.conditions[i]? = some c) : ∃ around, Json.Surrounds around ∧ ∀ v,
      (mk (sub.conditions.modify i fun c => { c with value := v })).toJson = around v.toJson :=
  Json.exists_surrounds_modify found c.exists_surrounds "conditions" []

theorem Group.exists_surrounds {group : Group} {s i : Nat} {sub : SubGroup} {c : Condition}
    (found : group.subGroups[s]? = some sub) (foundCondition : sub.conditions[i]? = some c) :
    ∃ around, Json.Surrounds around ∧ ∀ v, (mk (group.subGroups.modify s fun sub =>
      ⟨sub.conditions.modify i fun c => { c with value := v }⟩)).toJson = around v.toJson :=
  Json.exists_surrounds_modify found (SubGroup.exists_surrounds foundCondition) "subGroups" []

theorem Filter.exists_surrounds {f : Filter} {p : Path} {c : Condition}
    (found : f.condition? p = some c) : ∃ around, Json.Surrounds around ∧ ∀ v,
      (f.modifyCondition p fun c => { c with value := v }).toJson = around v.toJson := by
  obtain ⟨sub, found, foundCondition⟩ := Option.bind_eq_some_iff.mp found
  obtain ⟨group, foundGroup, foundSub⟩ := Option.bind_eq_some_iff.mp found
  exact Json.exists_surrounds_modify foundGroup (Group.exists_surrounds foundSub foundCondition)
    "groups" [("recordType", f.recordTypeJson)]

/-- The text of a filter is the text of the value at a path between two texts that stay the same
when another value is entered there. -/
theorem Filter.exists_toText_setValue {f : Filter} {p : Path}
    (stands : (f.condition? p).isSome = true) : ∃ front back : String, ∀ v : Value,
      (f.setValue p v).map toText = .ok (front ++ v.toText ++ back) := by
  obtain ⟨c, found⟩ := Option.isSome_iff_exists.mp stands
  obtain ⟨around, ⟨front, back, chars⟩, written⟩ := exists_surrounds found
  refine ⟨String.ofList front, String.ofList back, fun v => ?_⟩
  rw [setValue, setCondition, if_pos stands, Except.map, toText, written, Value.toText]
  refine congrArg Except.ok (String.toList_injective ?_)
  simp [Json.toList_render, chars]

end RecordFilter
