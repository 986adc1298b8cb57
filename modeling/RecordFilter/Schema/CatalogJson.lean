import RecordFilter.Json.Printer
import RecordFilter.Json.Reader
import RecordFilter.Schema.Catalog

/-!
# Catalogs as JSON

A catalog is the object `records` of objects that give each property its type. The order of the
fields is the order of the catalog; of equal keys the last one gives the value and the first one the
place.
-/
namespace RecordFilter

open Json (Document)

namespace Catalog

def propertiesJson (ps : Properties) : Json :=
  .object (ps.entries.map fun (key, type) => (key, .text type.name))

def toJson (c : Catalog) : Json :=
  .object [("records",
    .object (c.records.entries.map fun (rt, ps) => (rt.name, propertiesJson ps)))]

def toText (c : Catalog) : String := c.toJson.render

/-- One property of a document. -/
def propertyOf? (field : String × Document) : Option (String × PropertyType) := do
  let type ← PropertyType.ofExactName? (← field.2.name?)
  return (field.1, type)

/-- The properties of one record type of a document. -/
def recordOf? (field : String × Document) : Option (RecordType × Properties) := do
  let rt ← RecordType.ofExactName? field.1
  let entries ← (← field.2.fields?).mapM propertyOf?
  return (rt, .ofList entries)

def ofDocument? (d : Document) : Option Catalog := do
  match ← d.record? ["records"] with
  | [some records] =>
      let entries ← (← records.fields?).mapM recordOf?
      return ⟨.ofList entries⟩
  | _ => none

def ofText? (s : String) : Option Catalog :=
  (Document.read? s).bind ofDocument?

end Catalog
end RecordFilter
