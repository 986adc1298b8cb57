import RecordFilter.Schema.Catalog

/-!
# Resolvers

A resolver is what compiling knows of the metadata: for a record type and a property key, the column
to write and the type of the property.
-/
namespace RecordFilter

/-- A property as the metadata know it. -/
structure ResolvedProperty where
  column : String
  type : PropertyType
  deriving DecidableEq, Repr

/-- A source of metadata. -/
abbrev Resolver := RecordType → String → Option ResolvedProperty

namespace Resolver

/-- The column of a property is the catalog's own key. -/
def ofCatalog (c : Catalog) : Resolver := fun rt key =>
  (c.get? rt key).map fun e => ⟨e.1, e.2⟩

/-- The column of a property is the key that was looked up. -/
def ofTypes (types : RecordType → String → Option PropertyType) : Resolver := fun rt key =>
  (types rt key).map fun type => ⟨key, type⟩

end Resolver
end RecordFilter
