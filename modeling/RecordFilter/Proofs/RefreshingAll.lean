import RecordFilter.Proofs.Refreshing

/-!
# Refreshing every record type

The record types are refreshed one after another until a refresh fails. The refreshes that are made
are an initial part of those of the single record types, with the same requests: each record type
before the failure has the properties that its own refresh fetched, and the others have what they
had.
-/
namespace RecordFilter

namespace Fetch

variable {provider : PropertyProvider} {rt : RecordType} {size : UInt32} {earlier : Nat}
  {batches : List Properties} {fetch : Fetch}

/-- A fetch depends on the answers to its own requests only. -/
theorem Run.all_congr (run : Run provider rt size earlier batches fetch) (other : PropertyProvider)
    (same : ∀ n ≤ batches.length,
      other.nth rt size earlier n = provider.nth rt size earlier n) :
    (all other rt size earlier).result = fetch.result ∧
      (all other rt size earlier).requests = fetch.requests := by
  have answered : Answered other rt size earlier batches :=
    run.answered.imp fun before batch inside answer =>
      (same before.length (Nat.le_of_lt inside)).trans answer
  have ends := run.ends
  rw [← same batches.length (Nat.le_refl _)] at ends
  obtain ⟨result, requests⟩ := run_of_ends answered run.advance run.withinLimit ends
  exact ⟨result, requests.trans run.requests.symm⟩

end Fetch

/-- The size of a catalog is the number of the properties of all record types. -/
theorem Catalog.size_eq_sum (c : Catalog) :
    c.size = (RecordType.all.map fun rt => (c.propertyMap rt).size).sum := by
  have once : RecordType.all.Nodup := by decide
  rw [size, List.length_flatMap]
  refine (c.records.sum_entries OrderedMap.size once fun rt _ => rt.mem_all).trans ?_
  refine congrArg List.sum (List.map_congr_left fun rt _ => ?_)
  rw [propertyMap]
  cases c.records.get? rt <;> rfl

namespace MetadataCache

/-- The refresh of a record type fetches the properties. -/
def Fetched (c : MetadataCache) (rt : RecordType) (ps : Properties) : Prop :=
  (Fetch.all c.provider rt c.pageSize c.requests).result = .ok ps

/-- The cache after refreshes of the record types one after another, whatever comes of them. -/
def refreshes (c : MetadataCache) (rts : List RecordType) : MetadataCache :=
  rts.foldl (fun c rt => (c.refresh rt).cache) c

/-- Whether refreshes of the record types, one after another, all fetch properties. -/
def FetchEach (c : MetadataCache) (rts : List RecordType) : Prop :=
  EachAfter (fun before rt => ∃ ps, (c.refreshes before).Fetched rt ps) rts

/-- The cache over a provider that answers one request with an error. -/
def failing (c : MetadataCache) (q : Request) (e : ProviderError) : MetadataCache :=
  { c with provider := c.provider.failing q e }

variable {c : MetadataCache} {rt : RecordType} {rts before after : List RecordType} {q : Request}
  {e : ProviderError}

theorem refresh_of_fetched {ps : Properties} (h : c.Fetched rt ps) :
    (c.refresh rt).result = .ok ps.size ∧
      ∀ rt', (c.refresh rt).cache.catalog.propertyMap rt' =
        if rt = rt' then ps else c.catalog.propertyMap rt' := by
  rw [refresh, h]
  exact ⟨rfl, fun rt' => Catalog.propertyMap_setProperties c.catalog rt rt' ps⟩

theorem exists_fetched {n : Nat} (h : (c.refresh rt).result = .ok n) : ∃ ps, c.Fetched rt ps := by
  cases fetched : (Fetch.all c.provider rt c.pageSize c.requests).result with
  | ok ps => exact ⟨ps, fetched⟩
  | error e => cases h.symm.trans (result_refresh_eq_error_iff.mpr fetched)

/-- A refresh does not touch the other record types. -/
theorem propertyMap_refresh_of_ne {rt' : RecordType} (h : rt ≠ rt') :
    (c.refresh rt).cache.catalog.propertyMap rt' = c.catalog.propertyMap rt' := by
  cases result : (c.refresh rt).result with
  | ok n =>
    obtain ⟨ps, fetched⟩ := exists_fetched result
    rw [(refresh_of_fetched fetched).2, if_neg h]
  | error e => rw [catalog_of_error result]

/-- The requests of a refresh are for its record type, and they are counted. -/
theorem Asks.bounds (h : c.Asks rt q) : q.recordType = rt ∧ c.requests ≤ q.earlier ∧
    q.earlier < (c.refresh rt).cache.requests := by
  obtain ⟨batches, run⟩ := Fetch.exists_run c.provider rt c.pageSize c.requests
  obtain ⟨n, within, rfl⟩ := (asks_iff run q).mp h
  rw [requests_refresh, run.requests]
  exact ⟨rfl, Nat.le_add_right _ _, Nat.lt_succ_of_le (Nat.add_le_add_left within _)⟩

/-- A refresh that does not make a request does the same whatever the answer to it. -/
theorem refresh_failing (h : ¬c.Asks rt q) (e : ProviderError) :
    ((c.failing q e).refresh rt).result = (c.refresh rt).result ∧
      ((c.failing q e).refresh rt).cache = (c.refresh rt).cache.failing q e := by
  obtain ⟨batches, run⟩ := Fetch.exists_run c.provider rt c.pageSize c.requests
  obtain ⟨result, requests⟩ := run.all_congr (c.provider.failing q e) fun n within => by
    rw [Fetch.nth_failing, if_neg]
    exact fun same => h ((asks_iff run q).mpr ⟨n, within, same.symm⟩)
  simp only [refresh, failing, result, requests]
  cases (Fetch.all c.provider rt c.pageSize c.requests).result with
  | ok ps => exact ⟨rfl, rfl⟩
  | error e => exact ⟨rfl, rfl⟩

theorem refreshes_append (c : MetadataCache) (before after : List RecordType) :
    c.refreshes (before ++ after) = (c.refreshes before).refreshes after :=
  List.foldl_append

/-- A record type that is not refreshed keeps its properties. -/
theorem propertyMap_refreshes_of_not_mem (h : rt ∉ rts) :
    (c.refreshes rts).catalog.propertyMap rt = c.catalog.propertyMap rt := by
  induction rts generalizing c with
  | nil => rfl
  | cons rt' rts ih =>
    rw [List.mem_cons, not_or] at h
    exact (ih h.2).trans (propertyMap_refresh_of_ne (Ne.symm h.1))

/-- The properties that a refresh has fetched are not changed by the refreshes of other record
types that follow. -/
theorem propertyMap_refreshes_of_fetched (before : List RecordType) {ps : Properties}
    (fetched : (c.refreshes before).Fetched rt ps) (other : rt ∉ after) :
    (c.refreshes (before ++ rt :: after)).catalog.propertyMap rt = ps := by
  have own := (refresh_of_fetched fetched).2 rt
  rw [if_pos rfl] at own
  rw [refreshes_append]
  exact (propertyMap_refreshes_of_not_mem other).trans own

/-- Refreshes that all succeed leave each record type with the properties of its own refresh. -/
theorem FetchEach.fetched (h : c.FetchEach rts) (after : List RecordType)
    (once : (rts ++ after).Nodup) :
    EachAfter (fun before rt => (c.refreshes before).Fetched rt
      ((c.refreshes (rts ++ after)).catalog.propertyMap rt)) rts := by
  rintro before rt later rfl
  obtain ⟨ps, fetched⟩ := h before rt later rfl
  rw [List.append_assoc, List.cons_append, List.nodup_append, List.nodup_cons] at once
  rwa [List.append_assoc, List.cons_append,
    propertyMap_refreshes_of_fetched before fetched once.2.1.1]

/-- Refreshes that do not make a request do the same whatever the answer to it. -/
theorem refreshes_failing (h : EachAfter (fun before rt => ¬(c.refreshes before).Asks rt q) rts)
    (e : ProviderError) : (c.failing q e).refreshes rts = (c.refreshes rts).failing q e := by
  induction rts using List.reverseRecOn with
  | nil => rfl
  | append_singleton rts rt ih =>
    obtain ⟨earlier, latest⟩ := eachAfter_append_singleton.mp h
    rw [refreshes_append, refreshes_append, ih earlier]
    exact (refresh_failing latest e).2

theorem FetchEach.failing (all : c.FetchEach rts)
    (h : EachAfter (fun before rt => ¬(c.refreshes before).Asks rt q) rts) (e : ProviderError) :
    (c.failing q e).FetchEach rts := by
  rintro before rt after rfl
  obtain ⟨ps, fetched⟩ := all before rt after rfl
  refine exists_fetched (n := ps.size) ?_
  rw [refreshes_failing h.of_append, (refresh_failing (h before rt after rfl) e).1]
  exact (refresh_of_fetched fetched).1

end MetadataCache
end RecordFilter
