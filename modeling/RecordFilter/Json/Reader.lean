import RecordFilter.Json.Document
import RecordFilter.Json.Number

/-!
# Reading JSON values

`Json.ofDocument?` gives a document its value. Arrays and objects may nest `maxNesting` deep,
numbers must be in range, and every quoted text must have a content.
-/
namespace RecordFilter

namespace Json

/-- The deepest nesting of arrays and objects that is given a value. -/
def maxNesting : Nat := 127

mutual

/-- The value of a document in which `room` more levels may be opened. -/
def ofDocument? (room : Nat) : Document → Option Json
  | .null => some null
  | .bool b => some (bool b)
  | .number n => (Number.ofNumeral? n).map number
  | .text content => content.map text
  | .array items => match room with
    | 0 => none
    | room + 1 => (itemsOf? room items).map array
  | .object fields => match room with
    | 0 => none
    | room + 1 => (fieldsOf? room fields).map ofFields

def itemsOf? (room : Nat) : List Document → Option (List Json)
  | [] => some []
  | d :: ds => do
      let j ← ofDocument? room d
      let js ← itemsOf? room ds
      return j :: js

/-- The fields of an object, in the order of the document. -/
def fieldsOf? (room : Nat) : List (Option String × Document) → Option (List (String × Json))
  | [] => some []
  | (key, d) :: fields => do
      let key ← key
      let j ← ofDocument? room d
      let rest ← fieldsOf? room fields
      return (key, j) :: rest

end

def read? (s : String) : Option Json :=
  (Document.read? s).bind (ofDocument? maxNesting)

end Json

namespace Json.Document

def text? : Document → Option String
  | .text content => content
  | _ => none

def natural? : Document → Option Nat
  | .number n => match Number.ofNumeral? n with
    | some (.natural n) => some n.toNat
    | _ => none
  | _ => none

def items? : Document → Option (List Document)
  | .array items => some items
  | _ => none

/-- The fields of an object all of whose keys are texts. -/
def fields? : Document → Option (List (String × Document))
  | .object fields => fields.mapM fun (key, d) => key.map fun key => (key, d)
  | _ => none

/-- The name of an alternative without content: a text, or an object with that one key and null. -/
def name? : Document → Option String
  | .text content => content
  | .object [(key, .null)] => key
  | _ => none

/-- The value of the field `name`, which may not occur twice. -/
def field? (fields : List (String × Document)) (name : String) : Option (Option Document) :=
  match fields.filter (·.1 == name) with
  | [] => some none
  | [(_, d)] => some (some d)
  | _ => none

/-- The values of the fields `names` of a record, which is an object that may have other fields
too, or an array of the values in order that may end early. -/
def record? (names : List String) : Document → Option (List (Option Document))
  | .array items =>
      if items.length ≤ names.length then
        some (items.map some ++ List.replicate (names.length - items.length) none)
      else none
  | d => do
      let fields ← d.fields?
      names.mapM (field? fields)

/-- The values of the fields `names` of a record that has no other fields. -/
def closedRecord? (names : List String) (d : Document) : Option (List (Option Document)) :=
  match d.fields? with
  | some fields => if fields.all (names.contains ·.1) then d.record? names else none
  | none => d.record? names

end Json.Document
end RecordFilter
