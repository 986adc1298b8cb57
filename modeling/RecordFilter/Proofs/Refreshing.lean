import RecordFilter.Proofs.Fetching

/-!
# Refreshing

A refresh asks for the pages of one record type in order and for nothing else. It succeeds exactly
if the fetch is complete, and the record type then has the union of the batches; if it fails the
catalog stays as it was.
-/
namespace RecordFilter

open MetadataCache (maxPages)

/-- A request to a provider, with the number of requests before it. -/
structure Request where
  earlier : Nat
  recordType : RecordType
  page : Page
  search : Option String
  deriving DecidableEq

/-- The provider that answers one request with an error and the others as before. -/
def PropertyProvider.failing (provider : PropertyProvider) (q : Request) (e : ProviderError) :
    PropertyProvider where
  answer earlier rt page search :=
    if (⟨earlier, rt, page, search⟩ : Request) = q then .error e
    else provider.answer earlier rt page search

/-- Whether a refresh makes the request: with whatever error this is answered, the refresh fails. -/
def MetadataCache.Asks (c : MetadataCache) (rt : RecordType) (q : Request) : Prop :=
  ∀ e, ({ c with provider := c.provider.failing q e }.refresh rt).result = .error e

namespace Fetch

variable {provider : PropertyProvider} {rt : RecordType} {size : UInt32} {earlier : Nat}
  {batches : List Properties} {fetch : Fetch}

/-- The request for page `n` of a fetch that starts after `earlier` requests. -/
def request (rt : RecordType) (size : UInt32) (earlier n : Nat) : Request :=
  ⟨earlier + n, rt, Page.nth size n, none⟩

theorem nth_failing (q : Request) (e : ProviderError) (n : Nat) :
    (provider.failing q e).nth rt size earlier n =
      if request rt size earlier n = q then .error e else provider.nth rt size earlier n := rfl

theorem request_inj {m n : Nat} :
    request rt size earlier m = request rt size earlier n ↔ m = n := by
  constructor
  · intro same
    exact Nat.add_left_cancel (congrArg Request.earlier same)
  · rintro rfl
    rfl

/-- A fetch one of whose requests fails ends with that error. -/
theorem Run.result_failing (run : Run provider rt size earlier batches fetch) {n : Nat}
    (h : n ≤ batches.length) (e : ProviderError) :
    (all (provider.failing (request rt size earlier n) e) rt size earlier).result = .error e := by
  have split := List.take_append_drop n batches
  have length : (batches.take n).length = n := List.length_take_of_le h
  have answered : Answered provider rt size earlier (batches.take n) :=
    (split ▸ run.answered).of_append
  have advance : EachAfter (Advances size) (batches.take n) := (split ▸ run.advance).of_append
  have within := run.withinLimit
  refine (run_of_ends (answered.imp ?_) advance (by omega) ?_).1
  · intro before batch inside answer
    rwa [nth_failing, if_neg]
    rw [request_inj]
    omega
  · rw [length, nth_failing, if_pos rfl]
    rfl

/-- What a fetch does not ask for does not matter to it. -/
theorem Run.result_failing_of_ne (run : Run provider rt size earlier batches fetch) {q : Request}
    (h : ∀ n ≤ batches.length, request rt size earlier n ≠ q) (e : ProviderError) :
    (all (provider.failing q e) rt size earlier).result = fetch.result := by
  refine (run_of_ends (run.answered.imp ?_) run.advance run.withinLimit ?_).1
  · intro before batch inside answer
    rwa [nth_failing, if_neg (h _ (Nat.le_of_lt inside))]
  · rw [nth_failing, if_neg (h _ (Nat.le_refl _))]
    exact run.ends

variable {last : Properties}

theorem Complete.turn_eq {answer : Except ProviderError Properties}
    (complete : Complete size batches last) (h : answer = .ok last) :
    turn size batches answer = .ends (.ok (union (batches ++ [last]))) :=
  turn_eq_ends_ok_iff.mpr ⟨last, h, complete.short, rfl⟩

/-- Batches with which a fetch would be complete, given by the provider, are those of the fetch. -/
theorem Complete.result_all (complete : Complete size batches last)
    (answered : Answered provider rt size earlier (batches ++ [last])) :
    (all provider rt size earlier).result = .ok (union (batches ++ [last])) ∧
      (all provider rt size earlier).requests = earlier + batches.length + 1 := by
  obtain ⟨answered, answer⟩ := eachAfter_append_singleton.mp answered
  exact run_of_ends answered complete.advance complete.withinLimit (complete.turn_eq answer)

/-- A fetch that succeeds is complete. -/
theorem Run.exists_complete (run : Run provider rt size earlier batches fetch) {ps : Properties}
    (ok : fetch.result = .ok ps) : ∃ last, Complete size batches last ∧
      Answered provider rt size earlier (batches ++ [last]) := by
  have ends := run.ends
  rw [ok] at ends
  obtain ⟨last, answer, short, -⟩ := turn_eq_ends_ok_iff.mp ends
  exact ⟨last, ⟨run.advance, run.withinLimit, short⟩,
    eachAfter_append_singleton.mpr ⟨run.answered, answer⟩⟩

/-- The keys of a union stand in the order in which they first appear. -/
theorem keys_union (batches : List Properties) :
    (union batches).keys = (batches.flatMap (·.keys)).eraseDups := by
  rw [union, OrderedMap.keys_ofList, List.map_flatMap]
  rfl

/-- A key of a union has the type with which it last appears. -/
theorem get?_union (batches : List Properties) (key : String) :
    (union batches).get? key =
      ((batches.flatMap (·.entries)).findRev? fun e => e.1 = key).map Prod.snd :=
  OrderedMap.get?_ofList _ key

end Fetch

namespace MetadataCache

variable {c : MetadataCache} {rt : RecordType} {batches : List Properties}

/-- The run of the fetch of a refresh. -/
abbrev Fetches (c : MetadataCache) (rt : RecordType) (batches : List Properties) : Prop :=
  Fetch.Run c.provider rt c.pageSize c.requests batches
    (Fetch.all c.provider rt c.pageSize c.requests)

theorem requests_refresh (c : MetadataCache) (rt : RecordType) : (c.refresh rt).cache.requests =
    (Fetch.all c.provider rt c.pageSize c.requests).requests := by
  rw [refresh]
  cases (Fetch.all c.provider rt c.pageSize c.requests).result with
  | ok ps => rfl
  | error e => rfl

theorem result_refresh_eq_error_iff {e : ProviderError} : (c.refresh rt).result = .error e ↔
    (Fetch.all c.provider rt c.pageSize c.requests).result = .error e := by
  rw [refresh]
  cases (Fetch.all c.provider rt c.pageSize c.requests).result with
  | ok ps => simp
  | error e => simp

theorem catalog_of_error {e : ProviderError} (error : (c.refresh rt).result = .error e) :
    (c.refresh rt).cache.catalog = c.catalog := by
  rw [result_refresh_eq_error_iff] at error
  rw [refresh, error]

/-- A refresh makes the requests of its fetch and no others. -/
theorem asks_iff (run : c.Fetches rt batches) (q : Request) :
    c.Asks rt q ↔ ∃ n ≤ batches.length, q = Fetch.request rt c.pageSize c.requests n := by
  simp only [Asks, result_refresh_eq_error_iff]
  constructor
  · intro asks
    by_contra other
    have differ : ∀ n ≤ batches.length, Fetch.request rt c.pageSize c.requests n ≠ q :=
      fun n h same => other ⟨n, h, same.symm⟩
    have same := fun e => (run.result_failing_of_ne differ e).symm.trans (asks e)
    -- One result cannot be two errors.
    have := (same (.execution "")).symm.trans (same (.execution "other"))
    simp at this
  · rintro ⟨n, h, rfl⟩ e
    exact run.result_failing h e

/-- A refresh succeeds exactly if its fetch is complete. -/
theorem exists_result_eq_ok_iff : (∃ total, (c.refresh rt).result = .ok total) ↔
    ∃ batches last, Fetch.Complete c.pageSize batches last ∧
      Fetch.Answered c.provider rt c.pageSize c.requests (batches ++ [last]) := by
  constructor
  · rintro ⟨total, ok⟩
    obtain ⟨taken, run⟩ := Fetch.exists_run c.provider rt c.pageSize c.requests
    cases result : (Fetch.all c.provider rt c.pageSize c.requests).result with
    | ok ps =>
      obtain ⟨last, complete, gives⟩ := run.exists_complete result
      exact ⟨taken, last, complete, gives⟩
    | error e =>
      rw [result_refresh_eq_error_iff.mpr result] at ok
      cases ok
  · rintro ⟨batches, last, complete, gives⟩
    rw [refresh, (complete.result_all gives).1]
    exact ⟨_, rfl⟩

/-- A complete refresh puts the union of its batches into the catalog. -/
theorem refresh_of_complete {last : Properties} (complete : Fetch.Complete c.pageSize batches last)
    (gives : Fetch.Answered c.provider rt c.pageSize c.requests (batches ++ [last])) :
    (c.refresh rt).result = .ok (Fetch.union (batches ++ [last])).size ∧
      ∀ rt', (c.refresh rt).cache.catalog.propertyMap rt' =
        if rt = rt' then Fetch.union (batches ++ [last]) else c.catalog.propertyMap rt' := by
  rw [refresh, (complete.result_all gives).1]
  exact ⟨rfl, fun rt' => Catalog.propertyMap_setProperties c.catalog rt rt' _⟩

/-- A refresh, of whatever page size, provider and catalog: it makes at most `maxPages` requests,
for the first page, the next one and so on, without search. It succeeds exactly if the fetch is
complete, and then the record type has the union of the batches, whose number is the result, while
other record types have what they had; if it fails, the catalog stays as it was. -/
theorem refresh_withPageSize (c : MetadataCache) (size : UInt32) (rt : RecordType) :
    let r := (c.withPageSize size).refresh rt
    let Gives := Fetch.Answered c.provider rt (max size 1) c.requests
    (∃ k, 0 < k ∧ k ≤ maxPages ∧ r.cache.requests = c.requests + k ∧ ∀ q,
      (c.withPageSize size).Asks rt q ↔
        ∃ n < k, q = ⟨c.requests + n, rt, Page.nth (max size 1) n, none⟩) ∧
    ((∃ total, r.result = .ok total) ↔
      ∃ batches last, Fetch.Complete (max size 1) batches last ∧ Gives (batches ++ [last])) ∧
    (∀ batches last, Fetch.Complete (max size 1) batches last → Gives (batches ++ [last]) →
      let fetched := r.cache.catalog.propertyMap rt
      r.result = .ok fetched.size ∧
      fetched.keys = ((batches ++ [last]).flatMap (·.keys)).eraseDups ∧
      (∀ key, fetched.get? key =
        (((batches ++ [last]).flatMap (·.entries)).findRev? fun e => e.1 = key).map Prod.snd) ∧
      ∀ rt', rt' ≠ rt → r.cache.catalog.propertyMap rt' = c.catalog.propertyMap rt') ∧
    (∀ e, r.result = .error e → r.cache.catalog = c.catalog) := by
  intro r Gives
  refine ⟨?requests, exists_result_eq_ok_iff, ?success, fun e error => catalog_of_error error⟩
  case requests =>
    obtain ⟨taken, run⟩ := Fetch.exists_run c.provider rt (max size 1) c.requests
    have fetches : (c.withPageSize size).Fetches rt taken := run
    refine ⟨taken.length + 1, Nat.zero_lt_succ _, run.withinLimit,
      (requests_refresh _ rt).trans run.requests, fun q => ?_⟩
    simp only [asks_iff fetches q, Nat.lt_succ_iff]
    rfl
  case success =>
    intro batches last complete gives fetched
    obtain ⟨result, properties⟩ := refresh_of_complete (c := c.withPageSize size) complete gives
    have union : fetched = Fetch.union (batches ++ [last]) := (properties rt).trans (if_pos rfl)
    rw [union]
    refine ⟨result, Fetch.keys_union _, Fetch.get?_union _, fun rt' other => ?_⟩
    exact (properties rt').trans (if_neg other.symm)

/-- Two properties that fill a page of two. -/
def firstBatch : Properties := .ofList [("stage", .text), ("amount", .number)]

/-- A page that is not full and brings no new key. -/
def lastBatch : Properties := .ofList [("stage", .date)]

/-- A cache whose provider has these two pages for every record type. -/
def twoPages : MetadataCache where
  provider := ⟨fun _ _ page _ => .ok (if page.number = 1 then firstBatch else lastBatch)⟩

theorem complete_twoPages : Fetch.Complete (max 2 1) [firstBatch] lastBatch where
  advance :=
    eachAfter_append_singleton.mpr ⟨eachAfter_nil _, by decide, "stage", by decide, by simp⟩
  withinLimit := by decide
  short := by decide

theorem refresh_withPageSize_twoPages :
    Fetch.Complete (max 2 1) [firstBatch] lastBatch ∧
    Fetch.Answered twoPages.provider .task (max 2 1) 0 [firstBatch, lastBatch] ∧
    ((twoPages.withPageSize 2).refresh .task).result = .ok 2 ∧
    (((twoPages.withPageSize 2).refresh .task).cache.catalog.propertyMap .task).get? "stage" =
      some .date := by
  have gives : Fetch.Answered twoPages.provider .task (max 2 1) 0 [firstBatch, lastBatch] :=
    eachAfter_append_singleton.mpr
      ⟨eachAfter_append_singleton.mpr ⟨eachAfter_nil _, rfl⟩, rfl⟩
  obtain ⟨result, keys, types, -⟩ :=
    (refresh_withPageSize twoPages 2 .task).2.2.1 _ _ complete_twoPages gives
  have size := congrArg List.length keys
  rw [OrderedMap.keys, List.length_map] at size
  refine ⟨complete_twoPages, gives, ?_, ?_⟩
  · rw [result]
    exact congrArg Except.ok (size.trans (by decide))
  · rw [types "stage"]
    decide

end MetadataCache
end RecordFilter
