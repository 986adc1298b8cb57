import RecordFilter.Text.Blank
import RecordFilter.Text.Lowercase

/-!
# Property types

The type of a property decides which operators a condition may use and which values it accepts.
Metadata may name other types; these count as text.
-/
namespace RecordFilter

inductive PropertyType where
  | text
  | number
  | boolean
  | date
  deriving DecidableEq, Repr, Inhabited

namespace PropertyType

def all : List PropertyType := [text, number, boolean, date]

def name : PropertyType → String
  | text => "text"
  | number => "number"
  | boolean => "boolean"
  | date => "date"

def ofExactName? (s : String) : Option PropertyType :=
  all.find? (·.name == s)

/-- A type name of metadata as it is compared: without blanks around it and in lowercase. -/
def normalName (s : String) : String :=
  Text.lowerAscii (Text.trim s)

/-- The property type that a normal type name means. -/
def ofNormalName? (s : String) : Option PropertyType :=
  if s ∈ ["text", "string"] then some text
  else if s ∈ ["number", "integer", "float", "decimal"] then some number
  else if s ∈ ["boolean", "bool"] then some boolean
  else if s ∈ ["date", "datetime", "timestamp"] then some date
  else none

/-- The property type that a type name of metadata means; text if it means none. -/
def ofName (s : String) : PropertyType :=
  (ofNormalName? (normalName s)).getD text

theorem ofExactName?_name (t : PropertyType) : ofExactName? t.name = some t := by
  cases t <;> decide

end PropertyType
end RecordFilter
