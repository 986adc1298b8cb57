import RecordFilter.Filter.Basic
import RecordFilter.Schema.RecordTypeJson

/-!
# Filters as JSON

`Filter.toText` writes every field. `Filter.ofText` also reads texts that leave out fields with a
default, that have further fields, or that spell records as arrays; it refuses texts of more than
`Filter.maxBytes` bytes before it looks at them.
-/
namespace RecordFilter

open Json (Document)

/-- The error of a text that is no filter. -/
inductive ParseError where
  | tooLarge (size limit : Nat)
  | malformed
  deriving DecidableEq, Repr

def ParseError.diagnostic : ParseError → Diagnostic
  | tooLarge size limit => {
      code := "tessera::parse::too_large"
      message := "filter JSON is " ++ size.repr ++ " bytes, the limit is " ++ limit.repr }
  | malformed => {
      code := "tessera::parse::json"
      message := "invalid filter JSON" }

def Path.toJson (p : Path) : Json :=
  .object [
    ("group", .number (.natural p.group.toUInt64)),
    ("subGroup", .number (.natural p.subGroup.toUInt64)),
    ("condition", .number (.natural p.condition.toUInt64))]

def Path.ofDocument? (d : Document) : Option Path := do
  match ← d.record? ["group", "subGroup", "condition"] with
  | [some g, some s, some c] => return ⟨← g.natural?, ← s.natural?, ← c.natural?⟩
  | _ => none

def Path.ofText? (s : String) : Option Path :=
  (Document.read? s).bind Path.ofDocument?

def Condition.toJson (c : Condition) : Json :=
  .object [("property", .text c.property), ("operator", .text c.operator),
    ("value", c.value.toJson)]

def SubGroup.toJson (sub : SubGroup) : Json :=
  .object [("conditions", .array (sub.conditions.map Condition.toJson))]

def Group.toJson (group : Group) : Json :=
  .object [("subGroups", .array (group.subGroups.map SubGroup.toJson))]

/-- The levels of arrays and objects around the value of a condition. -/
def Condition.valueLevel : Nat := 7

/-- A field of a record: its value where it is present, else a default. -/
def fieldOr {α : Type} (d : Option Document) (read : Document → Option α) (default : α) :
    Option α :=
  match d with
  | some d => read d
  | none => some default

def Condition.ofDocument? (d : Document) : Option Condition := do
  match ← d.record? ["property", "operator", "value"] with
  | [property, operator, value] =>
      let property ← fieldOr property Document.text? ""
      let operator ← fieldOr operator Document.text? ""
      let value ← fieldOr value (Value.ofDocument? (Json.maxNesting - valueLevel)) .null
      return ⟨property, operator, value⟩
  | _ => none

def SubGroup.ofDocument? (d : Document) : Option SubGroup := do
  match ← d.record? ["conditions"] with
  | [some conditions] => return ⟨← (← conditions.items?).mapM Condition.ofDocument?⟩
  | _ => none

def Group.ofDocument? (d : Document) : Option Group := do
  match ← d.record? ["subGroups"] with
  | [some subGroups] => return ⟨← (← subGroups.items?).mapM SubGroup.ofDocument?⟩
  | _ => none

namespace Filter

/-- The largest text in bytes that is read. -/
def maxBytes : Nat := 64 * 1024

def toJson (f : Filter) : Json :=
  .object [
    ("recordType", match f.recordType with
      | some rt => .text rt.name
      | none => .null),
    ("groups", .array (f.groups.map Group.toJson))]

def toText (f : Filter) : String := f.toJson.render

def ofDocument? (d : Document) : Option Filter := do
  match ← d.record? ["recordType", "groups"] with
  | [recordType, groups] =>
      let recordType ← fieldOr recordType (fun d => (RecordType.ofDocument d).toOption) none
      let groups ← fieldOr groups (fun d => do (← d.items?).mapM Group.ofDocument?) []
      return ⟨recordType, groups⟩
  | _ => none

/-- The filter that a JSON text is. -/
def ofText (s : String) : Except ParseError Filter :=
  if maxBytes < s.utf8ByteSize then .error (.tooLarge s.utf8ByteSize maxBytes)
  else match (Document.read? s).bind ofDocument? with
    | some f => .ok f
    | none => .error .malformed

end Filter
end RecordFilter
