import RecordFilter.Decimal.Layout
import RecordFilter.Json.Printer
import RecordFilter.Json.Reader

/-!
# Values of conditions

A value is what a person entered for a condition, and what is bound to a parameter. It is read from
any JSON value: objects stay JSON, lists become lists of values, and a number is an integer if 64
bits with a sign hold it.
-/
namespace RecordFilter

inductive Value where
  | null
  | bool (b : Bool)
  | int (i : Int64)
  | float (x : Float)
  | text (s : String)
  | list (items : List Value)
  | json (j : Json)

/-- The kind of a value, as errors name it. -/
inductive Value.Kind where
  | null
  | boolean
  | integer
  | float
  | string
  | list
  | object
  deriving DecidableEq, Repr

def Value.Kind.name : Kind → String
  | null => "null"
  | boolean => "boolean"
  | integer => "integer"
  | float => "float"
  | string => "string"
  | list => "list"
  | object => "object"

namespace Value

instance : Inhabited Value := ⟨null⟩

def kind : Value → Kind
  | null => .null
  | bool _ => .boolean
  | int _ => .integer
  | float _ => .float
  | text _ => .string
  | list _ => .list
  | json _ => .object

def isNull : Value → Bool
  | null => true
  | _ => false

/-- Whether the value is a single one and not null. -/
def isScalar : Value → Bool
  | bool _ | int _ | float _ | text _ => true
  | _ => false

def items? : Value → Option (List Value)
  | list items => some items
  | _ => none

def text? : Value → Option String
  | text s => some s
  | _ => none

mutual

/-- Appends the value to `out` as it is shown to people. -/
def displayTo (out : String) : Value → String
  | null => out ++ "null"
  | bool b => out ++ if b then "true" else "false"
  | int i => out ++ i.toInt.repr
  | float x => out ++ Decimal.displayText x
  | text s => out ++ s
  | list items => (displayItems (out.push '[') items).push ']'
  | json j => out ++ j.render

/-- Appends the items of a list to `out`, with a comma and a blank between them. -/
def displayItems (out : String) : List Value → String
  | [] => out
  | [v] => displayTo out v
  | v :: vs => displayItems (displayTo out v ++ ", ") vs

end

/-- The value as it is shown to people. -/
def display (v : Value) : String := displayTo "" v

mutual

/-- The value as JSON. A floating-point number that is not finite becomes null. -/
def toJson : Value → Json
  | null => .null
  | bool b => .bool b
  | int i => .number (if i < 0 then .negative i else .natural i.toInt.toNat.toUInt64)
  | float x => if x.isFinite then .number (.float x) else .null
  | text s => .text s
  | list items => .array (itemsJson items)
  | json j => j

def itemsJson : List Value → List Json
  | [] => []
  | v :: vs => toJson v :: itemsJson vs

end

mutual

def ofJson : Json → Value
  | .null => null
  | .bool b => bool b
  | .number (.natural n) => if n ≤ Int64.maxValue.toUInt64 then int n.toInt64 else float n.toFloat
  | .number (.negative i) => int i
  | .number (.float x) => float x
  | .text s => text s
  | .array items => list (ofItems items)
  | .object fields => json (.object fields)

def ofItems : List Json → List Value
  | [] => []
  | j :: js => ofJson j :: ofItems js

end

/-- The value that a document is, in which `room` more levels may be opened. -/
def ofDocument? (room : Nat) (d : Json.Document) : Option Value :=
  (Json.ofDocument? room d).map ofJson

def ofText? (s : String) : Option Value :=
  (Json.read? s).map ofJson

def toText (v : Value) : String := v.toJson.render

end Value
end RecordFilter
