import RecordFilter.Schema.Catalog

/-!
# Histories of catalogs

A catalog is made by changes: a single property is written, or all properties of a record type are
replaced. A property is to have the type that it was given last, unless the properties of its record
type were replaced since. What is seen of a record type in two catalogs is alike if no question
about it tells them apart.
-/
namespace RecordFilter.Catalog

inductive Change where
  | insert (rt : RecordType) (key : String) (type : PropertyType)
  | setProperties (rt : RecordType) (properties : Properties)

namespace Change

def recordType : Change → RecordType
  | insert rt _ _ => rt
  | setProperties rt _ => rt

def apply (c : Catalog) : Change → Catalog
  | insert rt key type => c.insert rt key type
  | setProperties rt properties => c.setProperties rt properties

def Replaces (rt : RecordType) : Change → Prop
  | insert .. => False
  | setProperties rt' _ => rt' = rt

/-- What a change writes for a record type, in order. -/
def entries (rt : RecordType) : Change → List (String × PropertyType)
  | insert rt' key type => if rt' = rt then [(key, type)] else []
  | setProperties rt' properties => if rt' = rt then properties.entries else []

/-- The type that a change gives a property. -/
def given? (rt : RecordType) (key : String) : Change → Option PropertyType
  | insert rt' key' type => if rt' = rt ∧ key' = key then some type else none
  | setProperties rt' properties => if rt' = rt then properties.get? key else none

end Change

/-- The catalog that changes make of the one without properties. -/
def ofChanges (changes : List Change) : Catalog :=
  changes.foldl Change.apply empty

/-- Whether a type is the last that the changes gave a property, and the properties of the record
type were not replaced since. -/
def GivenLast (changes : List Change) (rt : RecordType) (key : String) (type : PropertyType) :
    Prop :=
  ∃ before change after, changes = before ++ change :: after ∧ change.given? rt key = some type ∧
    ∀ later ∈ after, later.given? rt key = none ∧ ¬later.Replaces rt

/-- The same is seen of a record type in both catalogs. -/
structure Alike (rt : RecordType) (c c' : Catalog) : Prop where
  properties : c.properties rt = c'.properties rt
  get? (key : String) : c.get? rt key = c'.get? rt key
  propertyType? (key : String) : c.propertyType? rt key = c'.propertyType? rt key
  contains (key : String) : c.contains rt key = c'.contains rt key
  search (needle : String) : c.search rt needle = c'.search rt needle
  listed : rt ∈ c.recordTypes ↔ rt ∈ c'.recordTypes

end RecordFilter.Catalog
