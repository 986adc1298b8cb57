import RecordFilter.Metadata.Provider
import RecordFilter.Proofs.Paging
import RecordFilter.Proofs.Writes

/-!
# Listings with a search

A listing with a search is cut into pages after the search. So its pages, asked for up to the first
that is not full, put together what the search finds, whatever the page size
(`Page.gathers_found`). Properties, values and the search of a catalog agree on what is found.
-/
namespace RecordFilter

namespace Text

/-- What a search finds: the texts whose lowercase contains that of the search text, the blanks
around which do not count. Without a search text everything is found. -/
def Finds (search : Option String) (s : String) : Prop :=
  ∀ needle ∈ search, (lowercase (trim needle)).toList <:+: (lowercase s).toList

theorem contains_iff {s needle : String} :
    contains s needle = true ↔ (lowercase needle).toList <:+: (lowercase s).toList :=
  occursIn_iff _ _

theorem contains_empty (s : String) : contains s "" = true :=
  contains_iff.mpr List.nil_infix

/-- A search finds what contains its trimmed text, which is empty if there is none. -/
theorem contains_trim_iff {search : Option String} {s : String} :
    contains s (trim (search.getD "")) = true ↔ Finds search s := by
  cases search with
  | none => exact iff_of_true (contains_empty s) fun _ h => absurd h (Option.not_mem_none _)
  | some needle => simp [Finds, contains_iff]

instance (search : Option String) (s : String) : Decidable (Finds search s) :=
  decidable_of_iff _ contains_trim_iff

/-- Listings search by the trimmed text, too. -/
theorem isFoundBy_eq_contains (s : String) (search : Option String) :
    isFoundBy s search = contains s (trim (search.getD "")) := by
  cases search with
  | none => exact (contains_empty s).symm
  | some needle =>
    rw [isFoundBy, Option.map_some, Option.getD_some]
    split
    · next absent => cases absent
    · next blank => rw [Option.some_inj.mp blank, contains_empty]
    · next text => rw [Option.some_inj.mp text]

theorem finds_of_blank {search : Option String} (blank : ∀ needle ∈ search, trim needle = "")
    (s : String) : Finds search s := by
  intro needle given
  rw [blank needle given]
  exact List.nil_infix

end Text

namespace Page

/-- The items that are answered for a page and those after it, up to the first page that is not
full. -/
inductive Gathers {α ε : Type} (answer : Page → Except ε (List α)) : Page → List α → Prop where
  | last {p : Page} {items : List α} (answered : answer p = .ok items)
      (short : p.isLast items.length = true) : Gathers answer p items
  | next {p : Page} {items rest : List α} (answered : answer p = .ok items)
      (full : p.isLast items.length = false) (further : Gathers answer p.next rest) :
      Gathers answer p (items ++ rest)

variable {α ε : Type} {answer : Page → Except ε (List α)} {p : Page} {items xs ys : List α}
  {ps : List Page} {size : UInt32}

theorem Gathers.unique (h : Gathers answer p xs) (h' : Gathers answer p ys) : xs = ys := by
  induction h generalizing ys with
  | last answered short =>
    cases h' with
    | last answered' _ => exact Except.ok.inj (answered.symm.trans answered')
    | next answered' full _ =>
      cases answered.symm.trans answered'
      exact absurd (short.symm.trans full) (by decide)
  | next answered full _ ih =>
    cases h' with
    | last answered' short =>
      cases answered.symm.trans answered'
      exact absurd (short.symm.trans full) (by decide)
    | next answered' _ further =>
      cases answered.symm.trans answered'
      rw [ih further]

theorem gathers_of_leads (slices : ∀ p, answer p = .ok (p.slice items)) (h : Leads items p ps) :
    Gathers answer p (ps.flatMap (·.slice items)) := by
  induction h with
  | last short => simpa using Gathers.last (slices _) short
  | next full _ ih => exact .next (slices _) full ih

/-- From the first page on, the slices of a list that fits on the pages make up the list. -/
theorem gathers_first_iff (slices : ∀ p, answer p = .ok (p.slice items)) (nonzero : 1 ≤ size)
    (within : items.length < (UInt32.size - 1) * size.toNat) :
    Gathers answer (first size) xs ↔ xs = items := by
  have positive : 0 < size.toNat := UInt32.le_iff_toNat_le.mp nonzero
  have few : items.length / size.toNat < UInt32.size - 1 :=
    (Nat.div_lt_iff_lt_mul positive).mpr within
  have full : items.length / size.toNat * size.toNat ≤ items.length := Nat.div_mul_le_self _ _
  have short : items.length < items.length / size.toNat * size.toNat + size.toNat :=
    Nat.lt_div_mul_add positive
  generalize items.length / size.toNat = k at few full short
  have leads : Leads items (first size) ((List.range' 0 (k + 1)).map (nth size)) :=
    leads_nth positive (by omega) (by rwa [Nat.zero_add]) (by rwa [Nat.zero_add])
  have gathers := gathers_of_leads slices leads
  rw [← List.range_eq_range', flatMap_slice_nth items size (by omega), Nat.succ_mul,
    List.take_of_length_le (Nat.le_of_lt short)] at gathers
  exact ⟨fun h => h.unique gathers, fun h => h ▸ gathers⟩

end Page

/-- The properties of a record type that a search finds, in order. -/
def Catalog.found (c : Catalog) (rt : RecordType) (search : Option String) :
    List (String × PropertyType) :=
  (c.properties rt).filter fun e => Text.Finds search e.1

/-- A catalog finds the same by the trimmed text. -/
theorem Catalog.search_trim (c : Catalog) (rt : RecordType) (search : Option String) :
    c.search rt (Text.trim (search.getD "")) = c.found rt search :=
  List.filter_congr fun _ _ =>
    Bool.eq_iff_iff.mpr (Text.contains_trim_iff.trans decide_eq_true_iff.symm)

/-- The properties that a provider answers for a page, at any time. -/
def PropertyProvider.entries (provider : PropertyProvider) (earlier : Page → Nat) (rt : RecordType)
    (search : Option String) (page : Page) :
    Except ProviderError (List (String × PropertyType)) :=
  (provider.answer (earlier page) rt page search).map (·.entries)

theorem PropertyProvider.entries_listing (c : Catalog) (rt : RecordType) (page : Page)
    (search : Option String) :
    (listing c rt page search).entries = page.slice (c.found rt search) := by
  rw [← Catalog.search_trim]
  simp only [listing, Text.isFoundBy_eq_contains]
  rfl

namespace ValueRegister

/-- The register after values were registered for properties, one after another. -/
def ofCalls (calls : List ((RecordType × String) × List String)) : ValueRegister :=
  calls.foldl (fun r call => r.register call.1.1 call.1.2 call.2) .empty

/-- The answer to a request for values, which does not fail. -/
def answer (r : ValueRegister) (rt : RecordType) (property : String) (search : Option String)
    (page : Page) : Except ProviderError (List String) :=
  .ok (r.listing rt property page search)

variable {calls before after : List ((RecordType × String) × List String)} {rt : RecordType}
  {property : String} {values : List String}

theorem ofCalls_eq (calls : List ((RecordType × String) × List String)) :
    ofCalls calls = OrderedMap.ofList calls := rfl

/-- A property has the values of the last call for it. -/
theorem get?_ofCalls (later : ∀ call ∈ after, call.1 ≠ (rt, property)) :
    (ofCalls (before ++ ((rt, property), values) :: after)).get? (rt, property) = some values := by
  have none_after : (after.reverse.find? fun call => call.1 = (rt, property)) = none := by
    simpa using later
  rw [ofCalls_eq, OrderedMap.get?_ofList, List.findRev?_eq_find?_reverse, List.reverse_append,
    List.reverse_cons, List.append_assoc, List.find?_append, none_after]
  simp

theorem get?_ofCalls_of_forall_ne (absent : ∀ call ∈ calls, call.1 ≠ (rt, property)) :
    (ofCalls calls).get? (rt, property) = none := by
  rw [ofCalls_eq, OrderedMap.get?_ofList, List.findRev?_eq_find?_reverse, Option.map_eq_none_iff]
  simpa using absent

theorem listing_of_get? {r : ValueRegister} (registered : r.get? (rt, property) = some values)
    (page : Page) (search : Option String) :
    r.listing rt property page search =
      page.slice (values.filter fun v => Text.Finds search v) := by
  rw [listing, registered]
  refine congrArg page.slice (List.filter_congr fun v _ => ?_)
  rw [Text.isFoundBy_eq_contains, Bool.eq_iff_iff, Text.contains_trim_iff, decide_eq_true_iff]

theorem listing_of_get?_none {r : ValueRegister} (absent : r.get? (rt, property) = none)
    (page : Page) (search : Option String) : r.listing rt property page search = [] := by
  rw [listing, absent]

end ValueRegister

theorem Catalog.nodup_keys_found (c : Catalog) (rt : RecordType) (search : Option String) :
    ((c.found rt search).map Prod.fst).Nodup :=
  (c.propertyMap rt).nodup.sublist (List.filter_sublist.map _)

theorem Catalog.found_of_blank {search : Option String} (c : Catalog) (rt : RecordType)
    (blank : ∀ needle ∈ search, Text.trim needle = "") : c.found rt search = c.properties rt :=
  List.filter_eq_self.mpr fun e _ => decide_eq_true (Text.finds_of_blank blank e.1)

/-- Page by page, the provider of a catalog lists the properties that a search finds: those whose
lowercase contains that of the trimmed search text, in their order and each once, and all of them if
there is no search text or a blank one. They are the ones that the catalog finds by the trimmed
text. In the same way the values are listed that were last registered for a property, and none if
there were no values registered for it. -/
theorem Page.gathers_found (search : Option String) (size : UInt32) (nonzero : 1 ≤ size) :
    (∀ (c : Catalog) (rt : RecordType), ((c.found rt search).map Prod.fst).Nodup ∧
      ((∀ needle ∈ search, Text.trim needle = "") → c.found rt search = c.properties rt) ∧
      c.search rt (Text.trim (search.getD "")) = c.found rt search ∧
      ((c.found rt search).length < (UInt32.size - 1) * size.toNat →
        ∀ earlier xs, Gathers ((PropertyProvider.ofCatalog c).entries earlier rt search)
          (first size) xs ↔ xs = c.found rt search)) ∧
    ∀ (rt : RecordType) (property : String),
      (∀ before values after, (∀ call ∈ after, call.1 ≠ (rt, property)) →
        let found := values.filter fun v => Text.Finds search v
        let r := ValueRegister.ofCalls (before ++ ((rt, property), values) :: after)
        found.length < (UInt32.size - 1) * size.toNat →
          ∀ xs, Gathers (r.answer rt property search) (first size) xs ↔ xs = found) ∧
      ∀ calls, (∀ call ∈ calls, call.1 ≠ (rt, property)) → ∀ page,
        (ValueRegister.ofCalls calls).listing rt property page search = [] := by
  refine ⟨fun c rt => ?_, fun rt property => ⟨?_, ?_⟩⟩
  case refine_1 =>
    refine ⟨c.nodup_keys_found rt search, c.found_of_blank rt, c.search_trim rt search, ?_⟩
    intro within earlier xs
    refine gathers_first_iff (fun page => ?_) nonzero within
    exact congrArg Except.ok (PropertyProvider.entries_listing c rt page search)
  case refine_2 =>
    intro before values after later found r within xs
    have registered : r.get? (rt, property) = some values := ValueRegister.get?_ofCalls later
    refine gathers_first_iff (fun page => ?_) nonzero within
    exact congrArg Except.ok (ValueRegister.listing_of_get? registered page search)
  case refine_3 =>
    intro calls absent page
    have unknown := ValueRegister.get?_ofCalls_of_forall_ne absent
    exact ValueRegister.listing_of_get?_none unknown page search

/-- Two of three properties of users are found. They fill a page of two, so that the page after it
is asked for and is empty. Of the values of a property those registered last are searched. -/
theorem Page.gathers_found_logins :
    let c : Catalog :=
      .ofRows [(.user, "email", .text), (.user, "Logins", .number), (.user, "last_login", .date)]
    let search : Option String := some " LOGIN "
    let old : List ((RecordType × String) × List String) := [((.user, "role"), ["login only"])]
    let values := ["no login", "admin", "Login", "no login"]
    let new : List ((RecordType × String) × List String) := [((.contact, "role"), ["login"])]
    (1 : UInt32) ≤ 2 ∧ (c.found .user search).length < (UInt32.size - 1) * (2 : UInt32).toNat ∧
    (values.filter fun v => Text.Finds search v).length < (UInt32.size - 1) * (2 : UInt32).toNat ∧
    (∀ call ∈ new, call.1 ≠ (.user, "role")) ∧
    Gathers ((PropertyProvider.ofCatalog c).entries (·.number.toNat) .user search) (first 2)
      [("Logins", .number), ("last_login", .date)] ∧
    Gathers ((ValueRegister.ofCalls (old ++ ((.user, "role"), values) :: new)).answer .user "role"
      search) (first 2) ["no login", "Login", "no login"] ∧
    (ValueRegister.ofCalls new).listing .user "role" (first 2) search = [] := by
  intro c search old values new
  have nonzero : (1 : UInt32) ≤ 2 := by decide
  have found : c.found .user search = [("Logins", .number), ("last_login", .date)] := by
    decide +kernel
  have foundValues : (values.filter fun v => Text.Finds search v) =
      ["no login", "Login", "no login"] := by decide +kernel
  have few : (c.found .user search).length < (UInt32.size - 1) * (2 : UInt32).toNat := by
    rw [found]
    decide
  have fewValues : (values.filter fun v => Text.Finds search v).length <
      (UInt32.size - 1) * (2 : UInt32).toNat := by
    rw [foundValues]
    decide
  have other : ∀ call ∈ new, call.1 ≠ (.user, "role") := by decide
  obtain ⟨properties, listed⟩ := gathers_found search 2 nonzero
  obtain ⟨-, -, -, pages⟩ := properties c .user
  obtain ⟨registered, unregistered⟩ := listed .user "role"
  exact ⟨nonzero, few, fewValues, other, (pages few _ _).mpr found.symm,
    (registered old values new other fewValues _).mpr foundValues.symm,
    unregistered new other (first 2)⟩

end RecordFilter
