import RecordFilter.Filter.Value
import RecordFilter.Sql.Identifier

/-!
# Statements under construction

A builder holds the text so far and the values bound so far. Binding a value writes the placeholder
of its position, so that text and values stay in step.
-/
namespace RecordFilter.Sql

/-- A statement under construction. -/
structure Builder where
  dialect : Dialect
  sql : String := ""
  params : Array Value := #[]

namespace Builder

def start (d : Dialect) : Builder := { dialect := d }

/-- Writes a text as it is. -/
def push (b : Builder) (s : String) : Builder :=
  { b with sql := b.sql ++ s }

/-- Writes a placeholder and binds its value. -/
def pushParam (b : Builder) (v : Value) : Builder :=
  { b with
    sql := b.sql ++ b.dialect.placeholder (b.params.size + 1)
    params := b.params.push v }

/-- Binds values, with `separator` between their placeholders. -/
def pushJoined (separator : String) (b : Builder) : List Value → Builder
  | [] => b
  | v :: vs => vs.foldl (fun b v => (b.push separator).pushParam v) (b.pushParam v)

/-- Binds values, with a comma between their placeholders. -/
def pushParams (b : Builder) (vs : List Value) : Builder :=
  b.pushJoined ", " vs

def pushIdentifier (b : Builder) (name : String) : Builder :=
  b.push (identifier b.dialect name)

@[simp] theorem dialect_push (b : Builder) (s : String) : (b.push s).dialect = b.dialect := rfl

@[simp] theorem params_push (b : Builder) (s : String) : (b.push s).params = b.params := rfl

@[simp] theorem dialect_pushIdentifier (b : Builder) (name : String) :
    (b.pushIdentifier name).dialect = b.dialect := rfl

@[simp] theorem params_pushIdentifier (b : Builder) (name : String) :
    (b.pushIdentifier name).params = b.params := rfl

end Builder
end RecordFilter.Sql
