import RecordFilter.Page
import RecordFilter.Schema.Catalog

/-!
# Providers

A provider answers requests for a page of the properties of a record type, or fails. It may answer
the same request differently each time; the number of earlier requests stands for the time. Values
to choose from are listed in the same way.
-/
namespace RecordFilter

/-- The error of a collaborator. -/
inductive ProviderError where
  | unavailable (provider message : String)
  | stalled (provider : String) (page : Nat) (message : String)
  | execution (message : String)
  deriving DecidableEq, Repr

def ProviderError.diagnostic : ProviderError → Diagnostic
  | unavailable provider message => {
      code := "tessera::provider::unavailable"
      message := provider ++ " unavailable: " ++ message }
  | stalled provider page message => {
      code := "tessera::provider::stalled"
      message := provider ++ " paging stalled at page " ++ page.repr ++ ": " ++ message }
  | execution message => {
      code := "tessera::provider::execution"
      message := "query execution failed: " ++ message }

/-- A source of properties. -/
structure PropertyProvider where
  answer : (earlier : Nat) → RecordType → Page → (search : Option String) →
    Except ProviderError Properties

namespace PropertyProvider

/-- The properties of a catalog that a search finds, page by page. -/
def listing (c : Catalog) (rt : RecordType) (page : Page) (search : Option String) : Properties :=
  ((c.propertyMap rt).filter fun e => Text.isFoundBy e.1 search).slice page.offset page.size.toNat

def ofCatalog (c : Catalog) : PropertyProvider where
  answer _ rt page search := .ok (listing c rt page search)

end PropertyProvider

/-- The values registered for the properties of record types. -/
abbrev ValueRegister := OrderedMap (RecordType × String) (List String)

namespace ValueRegister

/-- Registers the values of a property in place of those before. -/
def register (r : ValueRegister) (rt : RecordType) (property : String) (values : List String) :
    ValueRegister :=
  r.insert (rt, property) values

/-- The values of a property that a search finds, page by page. -/
def listing (r : ValueRegister) (rt : RecordType) (property : String) (page : Page)
    (search : Option String) : List String :=
  match r.get? (rt, property) with
  | none => []
  | some values => page.slice (values.filter fun v => Text.isFoundBy v search)

end ValueRegister
end RecordFilter
