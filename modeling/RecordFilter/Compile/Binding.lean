import RecordFilter.Calendar.Timestamp
import RecordFilter.Decimal.Reading
import RecordFilter.Filter.Value
import RecordFilter.Operator
import RecordFilter.Sql.Pattern

/-!
# Binding values

`coerce` turns a value into one of the type of a property, or says why it cannot be. `bind` checks
that a value has the shape that an operator takes, coerces its parts, and puts the wildcards of a
pattern around the escaped text.
-/
namespace RecordFilter

/-- Why a value cannot be bound. -/
inductive ValueFault where
  | missing
  | notSingle (found : Value.Kind)
  | notFinite
  | unreadable (wanted : PropertyType) (text : String)
  | wrongKind (wanted : PropertyType) (found : Value.Kind)
  | notList (found : Value.Kind)
  | notTwo (found : Nat)
  | noValues
  deriving DecidableEq, Repr

def ValueFault.reason : ValueFault → String
  | missing => "a value is required"
  | notSingle found => "expected a single value, got " ++ found.name
  | notFinite => "number must be finite"
  | unreadable wanted text => "`" ++ text ++ "` is not a " ++ wanted.name
  | wrongKind wanted found => "expected a " ++ wanted.name ++ " value, got " ++ found.name
  | notList found => "expected a list, got " ++ found.name
  | notTwo found => "expected exactly two values, got " ++ found.repr
  | noValues => "expected at least one value"

namespace PropertyType

/-- The number that a text spells: an integer if it can be one, else a finite decimal. -/
def numberOf? (s : String) : Option Value :=
  match Decimal.readInteger? (Text.trim s) with
  | some i => some (.int i)
  | none => match Decimal.readFloat? (Text.trim s) with
    | some x => if x.isFinite then some (.float x) else none
    | none => none

/-- The truth value that a text spells, in any letter case. -/
def booleanOf? (s : String) : Option Value :=
  match Text.lowerAscii (Text.trim s) with
  | "true" => some (.bool true)
  | "false" => some (.bool false)
  | _ => none

/-- The date that a text spells, kept as text without the blanks around it. -/
def dateOf? (s : String) : Option Value :=
  if Calendar.isDateValue (Text.trim s) then some (.text (Text.trim s)) else none

/-- The value of the type that a text spells. -/
def ofText? (type : PropertyType) (s : String) : Option Value :=
  match type with
  | text => some (.text s)
  | number => numberOf? s
  | boolean => booleanOf? s
  | date => dateOf? s

def coerce (type : PropertyType) (v : Value) : Except ValueFault Value :=
  match v with
  | .null => .error .missing
  | .list _ | .json _ => .error (.notSingle v.kind)
  | .text s => match type.ofText? s with
    | some v => .ok v
    | none => .error (.unreadable type s)
  | .bool _ => match type with
    | text => .ok (.text v.display)
    | boolean => .ok v
    | number | date => .error (.wrongKind type v.kind)
  | .int _ => match type with
    | text => .ok (.text v.display)
    | number => .ok v
    | boolean | date => .error (.wrongKind type v.kind)
  | .float x => match type with
    | text => .ok (.text v.display)
    | number => if x.isFinite then .ok v else .error .notFinite
    | boolean | date => .error (.wrongKind type v.kind)

end PropertyType

namespace Operator

/-- A coerced value with the wildcards of the operator, if it is a pattern. -/
def patterned (op : Operator) (v : Value) : Value :=
  match op.wildcard, v with
  | some w, .text s => .text (w.apply (Sql.escapePattern s))
  | _, v => v

/-- The values that a condition with the operator binds. -/
def bind (op : Operator) (type : PropertyType) (v : Value) : Except ValueFault (List Value) :=
  match op.arity with
  | .scalar => do
      let bound ← type.coerce v
      return [op.patterned bound]
  | .pair => match v.items? with
    | none => .error (.notList v.kind)
    | some items =>
        if items.length = 2 then items.mapM type.coerce else .error (.notTwo items.length)
  | .list => match v.items? with
    | none => .error (.notList v.kind)
    | some items => if items.isEmpty then .error .noValues else items.mapM type.coerce

end Operator
end RecordFilter
