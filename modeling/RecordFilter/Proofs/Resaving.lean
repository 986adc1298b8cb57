import Mathlib.Data.String.Basic
import RecordFilter.Proofs.Saving
import RecordFilter.Proofs.WrittenFloats

/-!
# Saving filters again

A filter that was read is written as a text that is read again, as long as that text is not too
large (`ofText_toText_of_ofText`). Its values nest no deeper than those that were read, which leaves
room for the levels around them, and each of their numbers is written as one in range. Without
floating-point numbers it is read again as it is (`ofText_toText_self`).

The text that is written may be larger than the one that was read, because every field is written
out. In `blanks` nothing is chosen and all may be left out, so that a text far below the limit is
written as one beyond it (`not_ofText_toText_blanks`).
-/
namespace RecordFilter

namespace Json

mutual

/-- Every number in a value has a property that all numbers have. -/
theorem numbers_of_forall {P : Number → Prop} (h : ∀ n, P n) : ∀ j : Json, j.Numbers P
  | null => .null
  | bool b => .bool b
  | number n => .number n (h n)
  | text s => .text s
  | array items => .array items (numbers_items_of_forall h items)
  | object fields => .object fields (numbers_fields_of_forall h fields)

theorem numbers_items_of_forall {P : Number → Prop} (h : ∀ n, P n) :
    ∀ items : List Json, ∀ j ∈ items, j.Numbers P
  | [] => List.forall_mem_nil _
  | j :: js => List.forall_mem_cons.mpr ⟨numbers_of_forall h j, numbers_items_of_forall h js⟩

theorem numbers_fields_of_forall {P : Number → Prop} (h : ∀ n, P n) :
    ∀ fields : List (String × Json), ∀ f ∈ fields, f.2.Numbers P
  | [] => List.forall_mem_nil _
  | (_, j) :: fields =>
    List.forall_mem_cons.mpr ⟨numbers_of_forall h j, numbers_fields_of_forall h fields⟩

end

/-- Every written value is read as its document. -/
theorem document_read?_render (j : Json) : Document.read? j.render = some j.document :=
  Document.read?_render (numbers_of_forall Number.scans j)

theorem isSome_itemsOf? {room : Nat} {items : List Json}
    (h : ∀ j ∈ items, (ofDocument? room j.document).isSome = true) :
    (itemsOf? room (itemsDocuments items)).isSome = true := by
  rw [itemsOf?_eq_mapM, itemsDocuments_eq_map, isSome_mapM_iff, List.forall_mem_map]
  exact h

theorem isSome_fieldsOf? {room : Nat} {fields : List (String × Json)}
    (h : ∀ f ∈ fields, (ofDocument? room f.2.document).isSome = true) :
    (fieldsOf? room (fieldsDocuments fields)).isSome = true := by
  rw [fieldsOf?_eq_mapM, fieldsDocuments_eq_map, isSome_mapM_iff, List.forall_mem_map]
  intro f hf
  rw [fieldOf?_document, Option.isSome_map]
  exact h f hf

/-- The document of a value is given some value if there is room for its nesting. -/
theorem isSome_ofDocument?_document {j : Json} {room : Nat} (fits : j.nesting ≤ room) :
    (ofDocument? room j.document).isSome = true := by
  have all : j.Numbers fun _ => True := numbers_of_forall (fun _ => trivial) j
  induction all generalizing room with
  | null | bool | text => rfl
  | number n => exact n.isSome_ofDocument? room
  | array items _ ih =>
    cases room with
    | zero => exact absurd fits (Nat.not_succ_le_zero _)
    | succ room =>
      have inner := itemsNesting_le_iff.mp (Nat.le_of_succ_le_succ fits)
      rw [document, ofDocument?, Option.isSome_map]
      exact isSome_itemsOf? fun j hj => ih j hj (inner j hj)
  | object fields _ ih =>
    cases room with
    | zero => exact absurd fits (Nat.not_succ_le_zero _)
    | succ room =>
      have inner := fieldsNesting_le_iff.mp (Nat.le_of_succ_le_succ fits)
      rw [document, ofDocument?, Option.isSome_map]
      exact isSome_fieldsOf? fun f hf => ih f hf (inner f hf)

end Json

open Json (Document)

namespace Value

/-- The values that a condition has room for. -/
def Fits (v : Value) : Prop :=
  v.toJson.nesting ≤ Json.maxNesting - Condition.valueLevel

theorem itemsNesting_ofItems_le {items : List Json}
    (h : ∀ j ∈ items, (ofJson j).toJson.nesting ≤ j.nesting) :
    Json.itemsNesting (itemsJson (ofItems items)) ≤ Json.itemsNesting items := by
  have deepest := Json.itemsNesting_le_iff.mp (Nat.le_refl (Json.itemsNesting items))
  rw [Json.itemsNesting_le_iff, ofItems_eq_map, itemsJson_eq_map, List.map_map, List.forall_mem_map]
  exact fun j hj => (h j hj).trans (deepest j hj)

/-- A number becomes a number again, or null where it is not finite. -/
theorem nesting_toJson_number (n : Json.Number) : (ofJson (.number n)).toJson.nesting = 0 := by
  have flat (x : Float) : (float x).toJson.nesting = 0 := by
    rw [toJson]
    split <;> rfl
  cases n with
  | natural n =>
    rw [ofJson]
    split
    · rfl
    · exact flat _
  | negative i => rfl
  | float x => exact flat x

/-- A value nests no deeper than the JSON value that it was given as. -/
theorem nesting_toJson_ofJson_le (j : Json) : (ofJson j).toJson.nesting ≤ j.nesting := by
  have all : j.Numbers fun _ => True := Json.numbers_of_forall (fun _ => trivial) j
  induction all with
  | null | bool | text => exact Nat.le_refl _
  | number n => exact (nesting_toJson_number n).le
  | array items _ ih =>
    rw [ofJson, toJson, Json.nesting, Json.nesting]
    exact Nat.succ_le_succ (itemsNesting_ofItems_le ih)
  | object => exact Nat.le_refl _

end Value

/-- The items of an array are all given values if each of them is. -/
theorem Json.isSome_mapM_itemsDocuments {α : Type} {toJson : α → Json} {items : List α}
    {read : Document → Option α} (h : ∀ x ∈ items, (read (toJson x).document).isSome = true) :
    ((itemsDocuments (items.map toJson)).mapM read).isSome = true := by
  rw [itemsDocuments_eq_map, List.map_map, isSome_mapM_iff, List.forall_mem_map]
  exact h

theorem Condition.isSome_ofDocument?_toJson {c : Condition} (fits : c.value.Fits) :
    (ofDocument? c.toJson.document).isSome = true := by
  rw [ofDocument?_toJson, Option.isSome_map, Value.ofDocument?, Option.isSome_map]
  exact Json.isSome_ofDocument?_document fits

theorem SubGroup.isSome_ofDocument?_toJson {sub : SubGroup} (fits : sub.Values Value.Fits) :
    (ofDocument? sub.toJson.document).isSome = true := by
  rw [SubGroup.toJson, ofDocument?_object, Option.isSome_map]
  exact Json.isSome_mapM_itemsDocuments fun c hc => Condition.isSome_ofDocument?_toJson (fits c hc)

theorem Group.isSome_ofDocument?_toJson {group : Group} (fits : group.Values Value.Fits) :
    (ofDocument? group.toJson.document).isSome = true := by
  rw [Group.toJson, ofDocument?_object, Option.isSome_map]
  exact Json.isSome_mapM_itemsDocuments fun sub hsub =>
    SubGroup.isSome_ofDocument?_toJson (fits sub hsub)

namespace Filter

theorem fits_of_ofDocument? {d : Document} {f : Filter} (h : ofDocument? d = some f) :
    f.Values Value.Fits :=
  values_of_ofDocument? (fun j read => (Value.nesting_toJson_ofJson_le j).trans read.nesting_le) h

theorem isSome_ofDocument?_toJson {f : Filter} (fits : f.Values Value.Fits) :
    (ofDocument? f.toJson.document).isSome = true := by
  rw [ofDocument?_toJson, Option.isSome_map]
  exact Json.isSome_mapM_itemsDocuments fun group hgroup =>
    Group.isSome_ofDocument?_toJson (fits group hgroup)

theorem nesting_toJson_le {f : Filter} (fits : f.Values Value.Fits) :
    f.toJson.nesting ≤ Json.maxNesting := by
  show f.toJson.nesting ≤ Json.maxNesting - Condition.valueLevel + 5 + 2
  rw [nesting_toJson_le_iff]
  intro group hgroup
  refine Json.nesting_list_le_iff.mpr fun sub hsub => Json.nesting_list_le_iff.mpr fun c hc => ?_
  exact Condition.nesting_toJson_le_iff.mpr (fits group hgroup sub hsub c hc)

/-- A filter without floating-point numbers that was read is read again as it is, unless its text is
larger than is allowed. -/
theorem ofText_toText_self {t : String} {f : Filter} (h : ofText t = .ok f)
    (floatFree : f.Values Value.FloatFree) (small : f.toText.utf8ByteSize ≤ maxBytes) :
    ofText f.toText = .ok f := by
  obtain ⟨d, -, hd⟩ := Option.bind_eq_some_iff.mp (ofText_eq_ok_iff.mp h).2
  have nesting := nesting_toJson_le (fits_of_ofDocument? hd)
  refine ofText_eq_ok_iff.mpr ⟨small, ?_⟩
  rw [toText, Json.document_read?_render, Option.bind_some, ofDocument?_document floatFree nesting,
    keySorted_eq_self (sorted_of_ofText h)]

end Filter

namespace Json

open String (utf8Len utf8Len_append utf8Len_cons)

theorem itemsChars_replicate (n : Nat) (j : Json) :
    itemsChars (List.replicate n j) = List.replicate n j.chars := by
  rw [itemsChars_eq_map, List.map_replicate]

theorem utf8Len_intercalate_replicate (n : Nat) (cs : List Char) :
    utf8Len ([','].intercalate (List.replicate (n + 1) cs)) =
      (utf8Len cs + 1) * n + utf8Len cs := by
  have comma : utf8Len [','] = 1 := rfl
  induction n with
  | zero => rw [List.replicate_one, List.intercalate_singleton, Nat.mul_zero, Nat.zero_add]
  | succ n ih =>
    rw [List.replicate_succ, List.replicate_succ, List.intercalate_cons_cons, ← List.replicate_succ,
      utf8Len_append, utf8Len_append, ih, comma]
    ring

/-- The size of an array of equal items. -/
theorem utf8Len_chars_replicate (n : Nat) (j : Json) :
    utf8Len (array (List.replicate (n + 1) j)).chars =
      (utf8Len j.chars + 1) * n + utf8Len j.chars + 2 := by
  rw [chars, itemsChars_replicate, utf8Len_cons, utf8Len_append, utf8Len_intercalate_replicate]
  rfl

theorem utf8Len_chars_single (j : Json) : utf8Len (array [j]).chars = utf8Len j.chars + 2 := by
  have size := utf8Len_chars_replicate 0 j
  rw [Nat.mul_zero, Nat.zero_add, Nat.zero_add] at size
  exact size

/-- The size of an object with one field. -/
theorem utf8Len_chars_singleton (key : String) (j : Json) :
    utf8Len (object [(key, j)]).chars = utf8Len (quotedChars key) + utf8Len j.chars + 3 := by
  have sizes : '{'.utf8Size = 1 ∧ ':'.utf8Size = 1 ∧ utf8Len ['}'] = 1 := ⟨rfl, rfl, rfl⟩
  rw [chars, fieldsChars, fieldsChars, List.intercalate_singleton]
  simp only [utf8Len_cons, utf8Len_append, sizes]
  ring

/-- The size of an object with more than one field. -/
theorem utf8Len_chars_cons (key : String) (j : Json) (f : String × Json)
    (fields : List (String × Json)) :
    utf8Len (object ((key, j) :: f :: fields)).chars =
      utf8Len (quotedChars key) + utf8Len j.chars + 2 + utf8Len (object (f :: fields)).chars := by
  have sizes : ':'.utf8Size = 1 ∧ utf8Len [','] = 1 := ⟨rfl, rfl⟩
  rw [chars, fieldsChars, fieldsChars, List.intercalate_cons_cons, chars, fieldsChars]
  simp only [utf8Len_cons, utf8Len_append, sizes]
  ring

theorem utf8ByteSize_render (j : Json) : j.render.utf8ByteSize = utf8Len j.chars := by
  rw [← String.utf8Len_toList, toList_render]

end Json

namespace Filter

open String (utf8Len)

/-- A filter with `n` conditions in one subgroup, in none of which anything is chosen. -/
def blanks (n : Nat) : Filter := ⟨none, [⟨[⟨List.replicate n .blank⟩]⟩]⟩

/-- `blanks n` without anything that may be left out: every condition is an array without items. -/
def terse (n : Nat) : Json :=
  .object [("groups", .array [.object [("subGroups", .array [
    .object [("conditions", .array (List.replicate n (.array [])))]])]])]

theorem ofDocument?_groups (groups : List Json) :
    ofDocument? (Json.document (.object [("groups", .array groups)])) =
      ((Json.itemsDocuments groups).mapM Group.ofDocument?).map fun gs => ⟨none, gs⟩ := by
  have record : Document.record? ["recordType", "groups"]
      (Json.document (.object [("groups", .array groups)])) =
        some [none, some (.array (Json.itemsDocuments groups))] := by
    simp [Document.record?, Document.fields?, Document.field?, Json.document, Json.fieldsDocuments]
  rw [ofDocument?, record]
  simp only [Option.bind_eq_bind, Option.bind_some, fieldOr, Document.items?]
  exact Option.map_eq_bind.symm

theorem mapM_blank (n : Nat) :
    (Json.itemsDocuments (List.replicate n (.array []))).mapM Condition.ofDocument? =
      some (List.replicate n .blank) := by
  rw [Json.itemsDocuments_eq_map, List.map_replicate, mapM_eq_some_iff, List.forall₂_iff_get]
  refine ⟨by rw [List.length_replicate, List.length_replicate], fun i _ _ => ?_⟩
  rw [List.get_eq_getElem, List.getElem_replicate, List.get_eq_getElem, List.getElem_replicate]
  rfl

theorem ofDocument?_terse (n : Nat) : ofDocument? (terse n).document = some (blanks n) := by
  have subGroup := SubGroup.ofDocument?_object (List.replicate n (.array []))
  rw [mapM_blank] at subGroup
  have group := Group.ofDocument?_object
    [.object [("conditions", .array (List.replicate n (.array [])))]]
  rw [Json.itemsDocuments, List.mapM_cons, subGroup] at group
  rw [terse, ofDocument?_groups, Json.itemsDocuments, List.mapM_cons, group]
  rfl

theorem utf8Len_keys : utf8Len (Json.quotedChars "groups") = 8 ∧
    utf8Len (Json.quotedChars "subGroups") = 11 ∧ utf8Len (Json.quotedChars "conditions") = 12 ∧
    utf8Len (Json.quotedChars "recordType") = 12 := by
  decide

theorem utf8ByteSize_terse (n : Nat) : (terse (n + 1)).render.utf8ByteSize = 3 * n + 48 := by
  have item : utf8Len (Json.chars (.array [])) = 2 := rfl
  rw [Json.utf8ByteSize_render, terse]
  simp only [Json.utf8Len_chars_singleton, Json.utf8Len_chars_single,
    Json.utf8Len_chars_replicate, utf8Len_keys, item]
  ring

theorem utf8ByteSize_toText_blanks (n : Nat) :
    (blanks (n + 1)).toText.utf8ByteSize = 43 * n + 106 := by
  have item : utf8Len Condition.blank.toJson.chars = 42 := by decide
  have absent : utf8Len (Json.chars .null) = 4 := by decide
  rw [toText, Json.utf8ByteSize_render, toJson]
  simp only [blanks, List.map_cons, List.map_nil, Group.toJson, SubGroup.toJson, List.map_replicate,
    Json.utf8Len_chars_cons, Json.utf8Len_chars_singleton, Json.utf8Len_chars_single,
    Json.utf8Len_chars_replicate, utf8Len_keys, item, absent]
  ring

/-- A filter of blank conditions is read from the text without anything that may be left out. -/
theorem ofText_terse {n : Nat} (fits : 3 * n + 48 ≤ maxBytes) :
    ofText (terse (n + 1)).render = .ok (blanks (n + 1)) := by
  rw [ofText_eq_ok_iff, utf8ByteSize_terse, Json.document_read?_render, Option.bind_some]
  exact ⟨fits, ofDocument?_terse (n + 1)⟩

/-- A filter that was read is written as a text that is read again, unless that text is larger than
is allowed. It is then refused for its size. -/
theorem ofText_toText_of_ofText {t : String} {f : Filter} (h : ofText t = .ok f) :
    (f.toText.utf8ByteSize ≤ maxBytes → ∃ g, ofText f.toText = .ok g) ∧
      (maxBytes < f.toText.utf8ByteSize →
        ofText f.toText = .error (.tooLarge f.toText.utf8ByteSize maxBytes)) := by
  constructor
  · intro small
    obtain ⟨-, read⟩ := ofText_eq_ok_iff.mp h
    obtain ⟨d, -, hd⟩ := Option.bind_eq_some_iff.mp read
    obtain ⟨g, hg⟩ := Option.isSome_iff_exists.mp
      (isSome_ofDocument?_toJson (fits_of_ofDocument? hd))
    refine ⟨g, ofText_eq_ok_iff.mpr ⟨small, ?_⟩⟩
    rw [toText, Json.document_read?_render, Option.bind_some, hg]
  · intro large
    rw [ofText, if_pos large]

/-- The text of 1522 blank conditions is just small enough, and that of one more is too large. -/
theorem ofText_toText_of_ofText_blanks :
    ofText (terse 1522).render = .ok (blanks 1522) ∧ (∃ g, ofText (blanks 1522).toText = .ok g) ∧
      ofText (terse 1523).render = .ok (blanks 1523) ∧
      ofText (blanks 1523).toText = .error (.tooLarge 65552 maxBytes) := by
  have below := ofText_terse (n := 1521) (by decide)
  have above := ofText_terse (n := 1522) (by decide)
  refine ⟨below, (ofText_toText_of_ofText below).1 ?_, above, ?_⟩
  · rw [utf8ByteSize_toText_blanks]
    decide
  · have refused := (ofText_toText_of_ofText above).2
    rw [utf8ByteSize_toText_blanks] at refused
    exact refused (by decide)

/-- What was read once need not be read again: a text of 4614 bytes is read as 1523 blank
conditions, and these are written as a text beyond the limit. -/
theorem not_ofText_toText_blanks :
    ofText (terse 1523).render = .ok (blanks 1523) ∧
      ¬ ∃ g, ofText (blanks 1523).toText = .ok g := by
  refine ⟨ofText_terse (n := 1522) (by decide), ?_⟩
  rintro ⟨g, read⟩
  have small := (ofText_eq_ok_iff.mp read).1
  rw [utf8ByteSize_toText_blanks] at small
  exact absurd small (by decide)

end Filter

end RecordFilter
