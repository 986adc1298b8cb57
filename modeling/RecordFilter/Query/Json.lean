import RecordFilter.Filter.Json
import RecordFilter.Query.Basic

/-!
# Queries as JSON

The JSON form of a query names its table and shows the predicate as a tree whose nodes have a kind
and children.
-/
namespace RecordFilter

def Comparison.toJson (c : Comparison) : Json :=
  .object [("table", .text c.table.table), ("column", .text c.column), ("op", .text c.op.name),
    ("params", .array (c.params.map Value.toJson)), ("path", c.path.toJson)]

namespace Predicate

def nodeJson (kind : String) (children : Json) : Json :=
  .object [("kind", .text kind), ("children", children)]

mutual

def toJson : Predicate → Json
  | compare c => nodeJson "compare" c.toJson
  | all ps => nodeJson "and" (.array (listJson ps))
  | any ps => nodeJson "or" (.array (listJson ps))

def listJson : List Predicate → List Json
  | [] => []
  | p :: ps => toJson p :: listJson ps

end

end Predicate

namespace Query

def toJson (q : Query) : Json :=
  .object [
    ("record_type", .text q.recordType.name),
    ("table", .text q.recordType.table),
    ("predicate", match q.predicate with
      | some p => p.toJson
      | none => .null)]

def toText (q : Query) : String := q.toJson.render

end Query
end RecordFilter
