import RecordFilter.OrderedMap
import RecordFilter.Schema.PropertyType
import RecordFilter.Schema.RecordType
import RecordFilter.Text.Occurrence

/-!
# Property catalogs

A catalog holds the properties known of each record type. It is a snapshot: a refresh makes another
catalog. Properties keep the order in which they were first written.
-/
namespace RecordFilter

/-- The properties of one record type. -/
abbrev Properties := OrderedMap String PropertyType

/-- The properties of every record type. -/
structure Catalog where
  records : OrderedMap RecordType Properties

namespace Catalog

def empty : Catalog := ⟨.empty⟩

instance : Inhabited Catalog := ⟨empty⟩

/-- The properties of a record type as a map; empty where nothing was written. -/
def propertyMap (c : Catalog) (rt : RecordType) : Properties :=
  (c.records.get? rt).getD .empty

def insert (c : Catalog) (rt : RecordType) (key : String) (type : PropertyType) : Catalog :=
  ⟨c.records.insert rt ((c.propertyMap rt).insert key type)⟩

/-- Replaces all properties of a record type. -/
def setProperties (c : Catalog) (rt : RecordType) (properties : Properties) : Catalog :=
  ⟨c.records.insert rt properties⟩

/-- The catalog that results from writing the rows in order. -/
def ofRows (rows : List (RecordType × String × PropertyType)) : Catalog :=
  rows.foldl (fun c (rt, key, type) => c.insert rt key type) empty

/-- The entry of a property: the catalog's own key, and the type. -/
def get? (c : Catalog) (rt : RecordType) (key : String) : Option (String × PropertyType) :=
  (c.propertyMap rt).entries.find? fun e => e.1 = key

def propertyType? (c : Catalog) (rt : RecordType) (key : String) : Option PropertyType :=
  (c.get? rt key).map Prod.snd

def contains (c : Catalog) (rt : RecordType) (key : String) : Bool :=
  (c.get? rt key).isSome

def properties (c : Catalog) (rt : RecordType) : List (String × PropertyType) :=
  (c.propertyMap rt).entries

/-- The properties whose key contains the text, letter case aside. -/
def search (c : Catalog) (rt : RecordType) (needle : String) : List (String × PropertyType) :=
  (c.properties rt).filter fun e => Text.contains e.1 needle

/-- The record types that have a property. -/
def recordTypes (c : Catalog) : List RecordType :=
  (c.records.entries.filter fun e => !e.2.entries.isEmpty).map Prod.fst

/-- The number of properties of all record types. -/
def size (c : Catalog) : Nat :=
  (c.records.entries.flatMap fun e => e.2.entries).length

def isEmpty (c : Catalog) : Bool :=
  c.size == 0

theorem propertyMap_setProperties (c : Catalog) (rt rt' : RecordType) (ps : Properties) :
    (c.setProperties rt ps).propertyMap rt' = if rt = rt' then ps else c.propertyMap rt' := by
  unfold propertyMap setProperties
  rw [OrderedMap.get?_insert]
  split <;> rfl

theorem propertyMap_insert (c : Catalog) (rt rt' : RecordType) (key : String) (t : PropertyType) :
    (c.insert rt key t).propertyMap rt' =
      if rt = rt' then (c.propertyMap rt).insert key t else c.propertyMap rt' :=
  propertyMap_setProperties c rt rt' _

end Catalog
end RecordFilter
