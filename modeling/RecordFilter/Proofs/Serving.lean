import RecordFilter.Proofs.Refreshing

/-!
# Refreshing from a served catalog

A provider that serves a catalog cuts the properties of a record type into parts of the page size.
A refresh puts the parts together again: the record type then has the properties that are served, in
their order. It fails only if the properties fill all pages that a fetch may ask for.
-/
namespace RecordFilter

open MetadataCache (maxPages)

theorem eachAfter_map_range {α : Type} {r : List α → α → Prop} {f : Nat → α} {k : Nat} :
    EachAfter r ((List.range k).map f) ↔ ∀ n < k, r ((List.range n).map f) (f n) := by
  induction k with
  | zero => exact ⟨fun _ n h => absurd h (Nat.not_lt_zero n), fun _ => eachAfter_nil r⟩
  | succ k ih =>
    rw [List.range_succ, List.map_append, List.map_singleton, eachAfter_append_singleton, ih]
    constructor
    · rintro ⟨earlier, latest⟩ n h
      obtain h | rfl := Nat.lt_succ_iff_lt_or_eq.mp h
      · exact earlier n h
      · exact latest
    · exact fun h => ⟨fun n hn => h n (Nat.lt_succ_of_lt hn), h k (Nat.lt_succ_self k)⟩

namespace Fetch

/-- Part `n` of the properties, cut at the page size. -/
def part (m : Properties) (size : UInt32) (n : Nat) : Properties :=
  m.slice (n * size.toNat) size.toNat

/-- The first `k` parts of the properties. -/
def parts (m : Properties) (size : UInt32) (k : Nat) : List Properties :=
  (List.range k).map (part m size)

variable {m : Properties} {size : UInt32}

@[simp] theorem length_parts (k : Nat) : (parts m size k).length = k := by
  rw [parts, List.length_map, List.length_range]

theorem parts_succ (k : Nat) : parts m size (k + 1) = parts m size k ++ [part m size k] := by
  simp only [parts, List.range_succ, List.map_append, List.map_singleton]

theorem size_part (n : Nat) :
    (part m size n).size = min size.toNat (m.size - n * size.toNat) := by
  rw [part, OrderedMap.slice, OrderedMap.size, List.length_take, List.length_drop]
  rfl

theorem keys_part (n : Nat) :
    (part m size n).keys = (m.keys.drop (n * size.toNat)).take size.toNat := by
  rw [part, OrderedMap.slice, OrderedMap.keys, List.map_take, List.map_drop]
  rfl

/-- Parts put together are a beginning of the properties. -/
theorem flatMap_entries_parts (k : Nat) :
    (parts m size k).flatMap (·.entries) = m.entries.take (k * size.toNat) := by
  rw [← flatMap_range_windows, parts, List.flatMap_map]
  rfl

theorem flatMap_keys_parts (k : Nat) :
    (parts m size k).flatMap (·.keys) = m.keys.take (k * size.toNat) := by
  have entries := congrArg (List.map Prod.fst) (@flatMap_entries_parts m size k)
  rwa [List.map_flatMap, List.map_take] at entries

/-- A part that is full advances a fetch that has the parts before it: no key is in two parts. -/
theorem advances_part {n : Nat} (positive : 0 < size.toNat)
    (full : (n + 1) * size.toNat ≤ m.size) :
    Advances size (parts m size n) (part m size n) := by
  rw [Nat.succ_mul] at full
  have length : size.toNat ≤ (part m size n).size := by
    rw [size_part]
    omega
  obtain ⟨key, here⟩ : ∃ key, key ∈ (part m size n).keys := by
    refine List.exists_mem_of_length_pos ?_
    rw [OrderedMap.keys, List.length_map]
    exact Nat.lt_of_lt_of_le positive length
  refine ⟨length, key, here, fun b hb twice => ?_⟩
  have before := List.mem_flatMap.mpr ⟨b, hb, twice⟩
  rw [flatMap_keys_parts] at before
  rw [keys_part] at here
  exact List.disjoint_take_drop m.nodup (Nat.le_refl _) before (List.mem_of_mem_take here)

theorem advance_parts {k : Nat} (positive : 0 < size.toNat) (full : k * size.toNat ≤ m.size) :
    EachAfter (Advances size) (parts m size k) := by
  refine eachAfter_map_range.mpr fun n hn => advances_part positive ?_
  exact Nat.le_trans (Nat.mul_le_mul_right _ hn) full

variable {served : Catalog} {rt : RecordType} {earlier : Nat}

theorem nth_ofCatalog {n : Nat} (h : n < maxPages) :
    (PropertyProvider.ofCatalog served).nth rt size earlier n =
      .ok (part (served.propertyMap rt) size n) := by
  have all : ((served.propertyMap rt).filter fun e => Text.isFoundBy e.1 none) =
      served.propertyMap rt := OrderedMap.eq_of_entries_eq (List.filter_eq_self.mpr fun _ _ => rfl)
  have offset := Page.offset_nth size (Nat.lt_of_succ_lt (Page.fits_of_lt_maxPages h))
  simp only [PropertyProvider.nth, PropertyProvider.ofCatalog, PropertyProvider.listing, all,
    offset]
  rfl

theorem answered_parts {k : Nat} (h : k ≤ maxPages) :
    Answered (.ofCatalog served) rt size earlier (parts (served.propertyMap rt) size k) := by
  refine eachAfter_map_range.mpr fun n hn => ?_
  rw [List.length_map, List.length_range]
  exact nth_ofCatalog (Nat.lt_of_lt_of_le hn h)

/-- The parts of properties that do not fill all pages make a complete fetch. -/
theorem complete_parts (positive : 0 < size.toNat) (h : m.size < maxPages * size.toNat) :
    Complete size (parts m size (m.size / size.toNat)) (part m size (m.size / size.toNat)) where
  advance := advance_parts positive (Nat.div_mul_le_self _ _)
  withinLimit := by
    rw [length_parts]
    exact (Nat.div_lt_iff_lt_mul positive).mpr h
  short := by
    have rest : m.size < m.size / size.toNat * size.toNat + size.toNat :=
      Nat.lt_div_mul_add positive
    rw [size_part]
    omega

/-- All parts of properties have the properties as their union. -/
theorem union_parts {k : Nat} (h : m.size ≤ k * size.toNat) : union (parts m size k) = m := by
  rw [union, flatMap_entries_parts, List.take_of_length_le h, OrderedMap.ofList_entries]

/-- Properties that do not fill all pages are fetched as they are served. -/
theorem all_ofCatalog_of_lt (positive : 0 < size.toNat)
    (h : (served.propertyMap rt).size < maxPages * size.toNat) :
    let fetch := all (.ofCatalog served) rt size earlier
    fetch.result = .ok (served.propertyMap rt) ∧
      fetch.requests = earlier + ((served.propertyMap rt).size / size.toNat + 1) := by
  have complete := complete_parts positive h
  have within := complete.withinLimit
  rw [length_parts] at within
  obtain ⟨result, requests⟩ := complete.result_all (parts_succ _ ▸ answered_parts within)
  have rest := Nat.le_of_lt (Nat.lt_div_mul_add (a := (served.propertyMap rt).size) positive)
  rw [← parts_succ, union_parts (Nat.succ_mul _ _ ▸ rest)] at result
  rw [length_parts] at requests
  exact ⟨result, requests⟩

/-- Properties that fill all pages are refused at the last of them. -/
theorem all_ofCatalog_of_le (positive : 0 < size.toNat)
    (h : maxPages * size.toNat ≤ (served.propertyMap rt).size) :
    (all (.ofCatalog served) rt size earlier).result =
      .error (.stalled MetadataCache.providerName maxPages
        ("reached the " ++ maxPages.repr ++ " page limit")) := by
  have last : maxPages - 1 < maxPages := by decide
  have limit : maxPages - 1 + 1 = maxPages := rfl
  have full : (maxPages - 1) * size.toNat ≤ (served.propertyMap rt).size :=
    Nat.le_trans (Nat.mul_le_mul_right _ (Nat.le_of_lt last)) h
  refine (run_of_ends (answered_parts (Nat.le_of_lt last)) (advance_parts positive full) ?_ ?_).1
  · rw [length_parts]
    exact last
  · rw [length_parts, nth_ofCatalog last]
    exact turn_eq_of_limit (advances_part positive (limit ▸ h)) (by rw [length_parts, limit])

end Fetch

namespace MetadataCache

/-- The cache with a provider that serves a catalog. -/
def serving (c : MetadataCache) (served : Catalog) : MetadataCache :=
  { c with provider := .ofCatalog served }

theorem positive_max (size : UInt32) : 0 < (max size 1).toNat := by
  have cases : max size 1 = if size ≤ 1 then 1 else size := rfl
  rw [cases]
  split
  · decide
  · next above =>
    rw [UInt32.le_iff_toNat_le] at above
    exact Nat.lt_trans Nat.zero_lt_one (Nat.not_le.mp above)

variable {c : MetadataCache} {served : Catalog} {rt : RecordType}

/-- Properties that do not fill all pages are copied. -/
theorem refresh_serving_of_lt (positive : 0 < c.pageSize.toNat)
    (h : (served.propertyMap rt).size < maxPages * c.pageSize.toNat) :
    let r := (c.serving served).refresh rt
    r.result = .ok (served.propertyMap rt).size ∧
      r.cache.requests = c.requests + ((served.propertyMap rt).size / c.pageSize.toNat + 1) ∧
      ∀ rt', r.cache.catalog.propertyMap rt' =
        if rt = rt' then served.propertyMap rt else c.catalog.propertyMap rt' := by
  intro r
  obtain ⟨result, requests⟩ : (Fetch.all (c.serving served).provider rt (c.serving served).pageSize
      (c.serving served).requests).result = .ok (served.propertyMap rt) ∧ _ :=
    Fetch.all_ofCatalog_of_lt positive h
  refine ⟨?_, (requests_refresh _ rt).trans requests, ?_⟩
  · simp only [r, refresh, result]
  · simp only [r, refresh, result]
    exact fun rt' => Catalog.propertyMap_setProperties c.catalog rt rt' _

/-- Properties that fill all pages are refused at the last of them. -/
theorem result_refresh_serving_of_le (positive : 0 < c.pageSize.toNat)
    (h : maxPages * c.pageSize.toNat ≤ (served.propertyMap rt).size) :
    ((c.serving served).refresh rt).result = .error (.stalled providerName maxPages
      ("reached the " ++ maxPages.repr ++ " page limit")) :=
  result_refresh_eq_error_iff.mpr (Fetch.all_ofCatalog_of_le positive h)

/-- A refresh from a served catalog makes one request for each full part of the properties and one
more, and the record type then has the properties that are served. Properties that fill `maxPages`
parts are too many. No page is refused because it brings nothing new. -/
theorem refresh_serving (c : MetadataCache) (served : Catalog) (size : UInt32) (rt : RecordType) :
    let r := ((c.serving served).withPageSize size).refresh rt
    let n := (served.propertyMap rt).size
    let s := (max size 1).toNat
    (n < maxPages * s →
      r.result = .ok n ∧ r.cache.requests = c.requests + (n / s + 1) ∧
      ∀ rt', r.cache.catalog.propertyMap rt' =
        if rt = rt' then served.propertyMap rt else c.catalog.propertyMap rt') ∧
    (maxPages * s ≤ n →
      r.result = .error (.stalled providerName 10000 "reached the 10000 page limit") ∧
      r.cache.catalog = c.catalog) ∧
    ∀ page, r.result ≠ .error (.stalled providerName page "full page added no new properties") := by
  intro r n s
  have copied : n < maxPages * s → _ :=
    refresh_serving_of_lt (c := c.withPageSize size) (positive_max size)
  have refused : maxPages * s ≤ n → _ :=
    result_refresh_serving_of_le (c := c.withPageSize size) (positive_max size)
  refine ⟨copied, fun h => ⟨refused h, catalog_of_error (refused h)⟩, fun page stale => ?_⟩
  obtain few | many := Nat.lt_or_ge n (maxPages * s)
  · exact absurd ((copied few).1.symm.trans stale) (by simp)
  · have message := (refused many).symm.trans stale
    simp only [Except.error.injEq, ProviderError.stalled.injEq] at message
    exact absurd message.2.2 (by decide)

/-- Three properties of users. -/
def users : Catalog :=
  .ofRows [(.user, "email", .text), (.user, "logins", .number), (.user, "last_login", .date)]

/-- A cache whose provider serves these, two on a page. -/
def usersCache : MetadataCache :=
  (serving ⟨.ofCatalog .empty, 0, 100, .empty⟩ users).withPageSize 2

theorem refresh_serving_users :
    (users.propertyMap .user).size < maxPages * (max (2 : UInt32) 1).toNat ∧
    (usersCache.refresh .user).result = .ok 3 ∧
    (usersCache.refresh .user).cache.requests = 2 ∧
    (usersCache.refresh .user).cache.catalog.propertyMap .user = users.propertyMap .user := by
  have few : (users.propertyMap .user).size < maxPages * (max (2 : UInt32) 1).toNat := by decide
  obtain ⟨result, requests, properties⟩ :=
    (refresh_serving ⟨.ofCatalog .empty, 0, 100, .empty⟩ users 2 .user).1 few
  exact ⟨few, result, requests, properties .user⟩

end MetadataCache
end RecordFilter
