import RecordFilter.Filter.Basic
import RecordFilter.Schema.PropertyType

/-!
# Events

What the library reports about its work while it runs. Functions that work in steps have a companion
that lists their events in order.
-/
namespace RecordFilter

/-- The weight of an event. -/
inductive Level where
  | trace
  | debug
  | info
  | warn
  | error
  deriving DecidableEq, Repr

/-- The name of a level in a setting. -/
def Level.name : Level → String
  | trace => "trace"
  | debug => "debug"
  | info => "info"
  | warn => "warn"
  | error => "error"

/-- The name of a level on an event. -/
def Level.label : Level → String
  | trace => "TRACE"
  | debug => "DEBUG"
  | info => "INFO"
  | warn => "WARN"
  | error => "ERROR"

inductive Event where
  | unsupportedType (name : String)
  | skippedCondition (path : Path)
  | rejectedColumn (rt : RecordType) (column : String)
  | compiled (rt : RecordType) (predicates params : Nat)
  | ignoredSubmit (rt : RecordType)
  | submitted (sql : String) (params : Nat)
  | fetchedPage (rt : RecordType) (page length : Nat)
  | refreshed (rt : RecordType) (properties : Nat)
  deriving DecidableEq, Repr

namespace Event

def level : Event → Level
  | skippedCondition _ => .trace
  | rejectedColumn _ _ => .warn
  | refreshed _ _ => .info
  | unsupportedType _ | compiled _ _ _ | ignoredSubmit _ | submitted _ _ => .debug
  | fetchedPage _ _ _ => .debug

def message : Event → String
  | unsupportedType _ => "unsupported property type, using text"
  | skippedCondition _ => "skipping incomplete condition"
  | rejectedColumn _ _ => "metadata column is not a safe identifier"
  | compiled _ _ _ => "compiled filter"
  | ignoredSubmit _ => "ignoring submit of empty filter"
  | submitted _ _ => "submitting filter"
  | fetchedPage _ _ _ => "fetched metadata page"
  | refreshed _ _ => "refreshed property metadata"

def fields : Event → List (String × String)
  | unsupportedType name => [("property_type", name)]
  | skippedCondition path => [("path", path.text)]
  | rejectedColumn rt column => [("record_type", rt.name), ("column", column)]
  | compiled rt predicates params =>
      [("record_type", rt.name), ("predicates", predicates.repr), ("params", params.repr)]
  | ignoredSubmit rt => [("record_type", rt.name)]
  | submitted sql params => [("sql", sql), ("params", params.repr)]
  | fetchedPage rt page length =>
      [("record_type", rt.name), ("page", page.repr), ("len", length.repr)]
  | refreshed rt properties => [("record_type", rt.name), ("properties", properties.repr)]

/-- Whether an event is reported only while debugging is on. -/
def debugOnly : Event → Bool
  | fetchedPage _ _ _ => true
  | _ => false

end Event

/-- The events of reading a type name of metadata: one if the name means no property type. -/
def PropertyType.events (s : String) : List Event :=
  let name := normalName s
  if (ofNormalName? name).isSome then [] else [.unsupportedType name]

end RecordFilter
