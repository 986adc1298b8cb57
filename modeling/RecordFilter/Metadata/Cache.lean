import RecordFilter.Config.Basic
import RecordFilter.Event
import RecordFilter.Metadata.Provider
import Std.Data.HashSet

/-!
# The metadata cache

The cache holds a catalog and asks a provider for more. A refresh fetches all pages of a record type
and then puts them into the catalog at once; if it fails the catalog stays as it was. Fetching ends
with the first page that is not full. A full page must bring a new property, and there is a limit to
the number of pages.
-/
namespace RecordFilter

/-- The largest number of pages fetched for one record type. -/
def MetadataCache.maxPages : Nat := 10000

/-- The name of the provider in errors. -/
def MetadataCache.providerName : String := "property metadata"

/-- What a fetch has come to: its result, the number of requests made, and its events. -/
structure Fetch where
  result : Except ProviderError Properties
  requests : Nat
  events : List Event

namespace Fetch

/-- Adds the keys of a batch to those seen. -/
def see (seen : Std.HashSet String) (batch : Properties) : Std.HashSet String :=
  batch.entries.foldl (fun seen e => seen.insert e.1) seen

/-- Whether a batch has a key not seen before. -/
def isNews (seen : Std.HashSet String) (batch : Properties) : Bool :=
  batch.entries.any fun e => !seen.contains e.1

/-- All entries of the batches, the latest batch standing first, as one map. -/
def merge (batches : List Properties) : Properties :=
  .ofList (batches.reverse.flatMap (·.entries))

/-- The error of paging that gets nowhere. -/
def stalled (page : Page) (message : String) : Except ProviderError Properties :=
  .error (.stalled MetadataCache.providerName page.number.toNat message)

/-- Fetches the pages from `page` on, of which at most `more` may follow it. `earlier` counts the
requests before, `seen` holds the keys so far, and batches and events are the latest first. -/
def pagesFrom (provider : PropertyProvider) (rt : RecordType) (more earlier : Nat) (page : Page)
    (seen : Std.HashSet String) (batches : List Properties) (events : List Event) : Fetch :=
  match provider.answer earlier rt page none with
  | .error e => ⟨.error e, earlier + 1, events.reverse⟩
  | .ok batch =>
      let events := .fetchedPage rt page.number.toNat batch.size :: events
      if page.isLast batch.size then
        ⟨.ok (merge (batch :: batches)), earlier + 1, events.reverse⟩
      else if !isNews seen batch then
        ⟨stalled page "full page added no new properties", earlier + 1, events.reverse⟩
      else match more with
        | 0 =>
            ⟨stalled page ("reached the " ++ MetadataCache.maxPages.repr ++ " page limit"),
              earlier + 1, events.reverse⟩
        | more + 1 =>
            pagesFrom provider rt more (earlier + 1) page.next (see seen batch) (batch :: batches)
              events

/-- Fetches all pages of a record type. -/
def all (provider : PropertyProvider) (rt : RecordType) (size : UInt32) (earlier : Nat) : Fetch :=
  pagesFrom provider rt (MetadataCache.maxPages - 1) earlier (Page.first size) ∅ [] []

end Fetch

/-- The cache: the provider, the number of requests made so far, the page size, and the catalog. -/
structure MetadataCache where
  provider : PropertyProvider
  requests : Nat := 0
  pageSize : UInt32 := Page.defaultSize
  catalog : Catalog := .empty

/-- A cache after a refresh, the number of properties fetched or the error, and the events. -/
structure Refreshed where
  cache : MetadataCache
  result : Except ProviderError Nat
  events : List Event

namespace MetadataCache

/-- The cache with another page size; zero is raised to one. -/
def withPageSize (c : MetadataCache) (size : UInt32) : MetadataCache :=
  { c with pageSize := max size 1 }

/-- The empty cache with the page size of a configuration. -/
def ofConfig (provider : PropertyProvider) (config : Config) : MetadataCache :=
  withPageSize { provider } config.pageSize

/-- Puts the properties of a record type into the catalog. -/
def publish (c : MetadataCache) (rt : RecordType) (ps : Properties) : MetadataCache :=
  { c with catalog := c.catalog.setProperties rt ps }

/-- Fetches the properties of a record type and publishes them. -/
def refresh (c : MetadataCache) (rt : RecordType) : Refreshed :=
  let fetch := Fetch.all c.provider rt c.pageSize c.requests
  let c := { c with requests := fetch.requests }
  match fetch.result with
  | .ok ps => ⟨c.publish rt ps, .ok ps.size, fetch.events ++ [.refreshed rt ps.size]⟩
  | .error e => ⟨c, .error e, fetch.events⟩

/-- Refreshes record types in order until one fails; `total` properties came before. -/
def refreshEach (c : MetadataCache) (total : Nat) (events : List Event) :
    List RecordType → Refreshed
  | [] => ⟨c, .ok total, events⟩
  | rt :: rts =>
      let r := c.refresh rt
      match r.result with
      | .ok n => refreshEach r.cache (total + n) (events ++ r.events) rts
      | .error e => ⟨r.cache, .error e, events ++ r.events⟩

/-- Refreshes every record type until one fails. -/
def refreshAll (c : MetadataCache) : Refreshed :=
  c.refreshEach 0 [] RecordType.all

def summary (c : MetadataCache) : String :=
  "MetadataCache \x7b page_size: " ++ c.pageSize.toNat.repr ++ ", properties: " ++
    c.catalog.size.repr ++ " \x7d"

end MetadataCache
end RecordFilter
