import RecordFilter.Schema.History
import RecordFilter.Proofs.RefreshingAll
import RecordFilter.Proofs.Resolving

/-!
# What a history leaves in a catalog

A catalog keeps the writes to a record type that stand: those of the last replacement of its
properties, and the single ones since. Each property stands once, where it was first written, and
has the type that it was given last. All questions that a catalog answers agree on this, and for one
record type the changes of the others do not matter (`Catalog.seen_of_changes`).
-/
namespace RecordFilter.Catalog

variable {c c' : Catalog} {changes before after : List Change} {change : Change} {rt : RecordType}
  {key : String} {type : PropertyType}

theorem mem_properties_iff :
    (key, type) ∈ c.properties rt ↔ c.propertyType? rt key = some type :=
  OrderedMap.get?_eq_some_iff.symm

theorem contains_iff : c.contains rt key = true ↔ ∃ type, c.get? rt key = some (key, type) := by
  rw [contains, get?_eq, Option.isSome_map, Option.isSome_iff_exists]
  simp

theorem nodup_keys (c : Catalog) (rt : RecordType) : ((c.properties rt).map Prod.fst).Nodup :=
  (c.propertyMap rt).nodup

theorem nodup_recordTypes (c : Catalog) : c.recordTypes.Nodup :=
  c.records.nodup.sublist (List.filter_sublist.map _)

/-- A record type is listed if it has a property. -/
theorem mem_recordTypes : rt ∈ c.recordTypes ↔ c.properties rt ≠ [] := by
  have listed : rt ∈ c.recordTypes ↔ ∃ ps, c.records.get? rt = some ps ∧ ps.entries ≠ [] := by
    simp [recordTypes, OrderedMap.get?_eq_some_iff]
  rw [listed, properties, propertyMap]
  cases c.records.get? rt <;> simp

/-- What is seen of a record type depends on its properties alone. -/
theorem alike_of_propertyMap (same : c.propertyMap rt = c'.propertyMap rt) : Alike rt c c' where
  properties := congrArg OrderedMap.entries same
  get? key := by rw [get?, get?, same]
  propertyType? key := by rw [propertyType?, propertyType?, get?, get?, same]
  contains key := by rw [contains, contains, get?, get?, same]
  search needle := by rw [search, search, properties, properties, same]
  listed := by rw [mem_recordTypes, mem_recordTypes, properties, properties, same]

theorem propertyMap_apply_of_ne (c : Catalog) (other : change.recordType ≠ rt) :
    (change.apply c).propertyMap rt = c.propertyMap rt := by
  cases change with
  | insert rt' key type =>
    rw [Change.apply, propertyMap_insert]
    exact if_neg other
  | setProperties rt' ps =>
    rw [Change.apply, propertyMap_setProperties]
    exact if_neg other

theorem propertyMap_apply_congr (same : c.propertyMap rt = c'.propertyMap rt) :
    (change.apply c).propertyMap rt = (change.apply c').propertyMap rt := by
  cases change with
  | insert rt' key type =>
    rw [Change.apply, Change.apply, propertyMap_insert, propertyMap_insert]
    split
    · next about =>
      subst about
      rw [same]
    · exact same
  | setProperties rt' ps =>
    rw [Change.apply, Change.apply, propertyMap_setProperties, propertyMap_setProperties, same]

/-- A change that does not replace the properties of a record type writes its entries to them. -/
theorem propertyMap_apply_of_not_replaces (c : Catalog) (keeps : ¬change.Replaces rt) :
    (change.apply c).propertyMap rt = (c.propertyMap rt).insertAll (change.entries rt) := by
  cases change with
  | insert rt' key type =>
    rw [Change.apply, propertyMap_insert, Change.entries]
    split
    · next same =>
      subst same
      rfl
    · rfl
  | setProperties rt' ps =>
    have other : ¬rt' = rt := keeps
    rw [Change.apply, propertyMap_setProperties, Change.entries, if_neg other, if_neg other]
    rfl

/-- A property has a type after a change if the change gave it that type, or if it had the type
before and the change neither gave it one nor replaced the properties of the record type. -/
theorem propertyType?_apply : (change.apply c).propertyType? rt key = some type ↔
    change.given? rt key = some type ∨
      change.given? rt key = none ∧ ¬change.Replaces rt ∧ c.propertyType? rt key = some type := by
  cases change with
  | insert rt' key' type' =>
    rw [Change.apply, propertyType?_insert, Change.given?]
    split <;> simp [Change.Replaces]
  | setProperties rt' ps =>
    by_cases same : rt' = rt
    · subst same
      have replaced : (c.setProperties rt' ps).propertyType? rt' key = ps.get? key := by
        have := propertyMap_setProperties c rt' rt' ps
        rw [if_pos rfl] at this
        exact congrArg (OrderedMap.get? · key) this
      simp [Change.apply, Change.given?, Change.Replaces, replaced]
    · rw [Change.apply, propertyType?_setProperties_of_ne same, Change.given?, if_neg same]
      simp [Change.Replaces, same]

theorem givenLast_concat : GivenLast (changes ++ [change]) rt key type ↔
    change.given? rt key = some type ∨
      change.given? rt key = none ∧ ¬change.Replaces rt ∧ GivenLast changes rt key type := by
  constructor
  · rintro ⟨before, given, after, split, gives, later⟩
    obtain rfl | ⟨after, last, rfl⟩ := after.eq_nil_or_concat'
    · obtain ⟨-, same⟩ := List.append_inj' split rfl
      obtain rfl := List.singleton_inj.mp same
      exact .inl gives
    · rw [← List.cons_append, ← List.append_assoc] at split
      obtain ⟨rfl, same⟩ := List.append_inj' split rfl
      obtain rfl := List.singleton_inj.mp same
      rw [List.forall_mem_append, List.forall_mem_singleton] at later
      exact .inr ⟨later.2.1, later.2.2, before, given, after, rfl, gives, later.1⟩
  · rintro (gives | ⟨silent, keeps, before, given, after, rfl, gives, later⟩)
    · exact ⟨changes, change, [], rfl, gives, List.forall_mem_nil _⟩
    · refine ⟨before, given, after ++ [change], by simp, gives, ?_⟩
      rw [List.forall_mem_append, List.forall_mem_singleton]
      exact ⟨later, silent, keeps⟩

theorem ofChanges_concat (changes : List Change) (change : Change) :
    ofChanges (changes ++ [change]) = change.apply (ofChanges changes) := by
  rw [ofChanges, List.foldl_concat, ofChanges]

/-- A property has the type that it was given last. -/
theorem propertyType?_ofChanges :
    (ofChanges changes).propertyType? rt key = some type ↔ GivenLast changes rt key type := by
  induction changes using List.reverseRecOn with
  | nil => exact iff_of_false nofun fun ⟨_, _, _, split, _⟩ => by simp at split
  | append_singleton changes change ih =>
    rw [ofChanges_concat, propertyType?_apply, givenLast_concat, ih]

theorem propertyMap_foldl_of_not_replaces (c : Catalog)
    (keep : ∀ later ∈ after, ¬later.Replaces rt) : (after.foldl Change.apply c).propertyMap rt =
      (c.propertyMap rt).insertAll (after.flatMap (Change.entries rt)) := by
  induction after generalizing c with
  | nil => rfl
  | cons change after ih =>
    obtain ⟨keeps, keep⟩ := List.forall_mem_cons.mp keep
    rw [List.foldl_cons, ih _ keep, propertyMap_apply_of_not_replaces c keeps, List.flatMap_cons,
      OrderedMap.insertAll_append]

/-- What changes make of a record type depends on those alone that are about it. -/
theorem propertyMap_foldl_filter (same : c.propertyMap rt = c'.propertyMap rt) :
    (changes.foldl Change.apply c).propertyMap rt =
      ((changes.filter (·.recordType = rt)).foldl Change.apply c').propertyMap rt := by
  induction changes generalizing c c' with
  | nil => exact same
  | cons change changes ih =>
    by_cases about : change.recordType = rt
    · rw [List.filter_cons_of_pos (by simpa using about), List.foldl_cons, List.foldl_cons]
      exact ih (propertyMap_apply_congr same)
    · rw [List.filter_cons_of_neg (by simpa using about), List.foldl_cons]
      exact ih ((propertyMap_apply_of_ne c about).trans same)

/-- The keys of a record type are those written since its properties were last replaced, those of
the replacement first, each at the place of its first write. -/
theorem keys_ofChanges_replaced {ps : Properties} (keep : ∀ later ∈ after, ¬later.Replaces rt) :
    ((ofChanges (before ++ .setProperties rt ps :: after)).properties rt).map Prod.fst =
      (ps.keys ++ (after.flatMap (Change.entries rt)).map Prod.fst).eraseDups := by
  have run := propertyMap_foldl_of_not_replaces (Change.apply (ofChanges before)
    (.setProperties rt ps)) keep
  have start : (Change.apply (ofChanges before) (.setProperties rt ps)).propertyMap rt = ps := by
    rw [Change.apply, propertyMap_setProperties, if_pos rfl]
  rw [start] at run
  rw [ofChanges, List.foldl_append, List.foldl_cons]
  exact (congrArg OrderedMap.keys run).trans (OrderedMap.keys_insertAll ps _)

theorem keys_ofChanges (keep : ∀ change ∈ changes, ¬change.Replaces rt) :
    ((ofChanges changes).properties rt).map Prod.fst =
      ((changes.flatMap (Change.entries rt)).map Prod.fst).eraseDups :=
  (congrArg OrderedMap.keys (propertyMap_foldl_of_not_replaces empty keep)).trans
    (OrderedMap.keys_ofList _)

theorem propertyMap_ofChanges_filter (changes : List Change) (rt : RecordType) :
    (ofChanges (changes.filter (·.recordType = rt))).propertyMap rt =
      (ofChanges changes).propertyMap rt :=
  (propertyMap_foldl_filter rfl).symm

theorem alike_ofChanges {changes' : List Change}
    (same : changes'.filter (·.recordType = rt) = changes.filter (·.recordType = rt)) :
    Alike rt (ofChanges changes') (ofChanges changes) := by
  refine alike_of_propertyMap ?_
  rw [← propertyMap_ofChanges_filter changes', same, propertyMap_ofChanges_filter]

/-- After any changes, a property has the type that it was given last, and none if its record type
was replaced since; it is looked up with its own key, and it is contained if it is found. The
properties of a record type are listed with these types, each once and in the order of first writes
since the last replacement, whose own order comes first. Exactly the record types with a property
are listed, each once. The size is the number of all properties listed, and a catalog of size zero
is empty. Changes that are about other record types make no difference to what is seen of one. -/
theorem seen_of_changes (changes : List Change) :
    let c := ofChanges changes
    (∀ rt key,
      (∀ type, c.propertyType? rt key = some type ↔ GivenLast changes rt key type) ∧
      c.get? rt key = (c.propertyType? rt key).map (fun type => (key, type)) ∧
      (c.contains rt key = true ↔ ∃ type, c.get? rt key = some (key, type))) ∧
    (∀ rt,
      (∀ key type, (key, type) ∈ c.properties rt ↔ c.propertyType? rt key = some type) ∧
      ((c.properties rt).map Prod.fst).Nodup ∧
      ((∀ change ∈ changes, ¬change.Replaces rt) → (c.properties rt).map Prod.fst =
        ((changes.flatMap (Change.entries rt)).map Prod.fst).eraseDups) ∧
      ∀ before ps after, changes = before ++ .setProperties rt ps :: after →
        (∀ later ∈ after, ¬later.Replaces rt) → (c.properties rt).map Prod.fst =
          (ps.keys ++ (after.flatMap (Change.entries rt)).map Prod.fst).eraseDups) ∧
    c.recordTypes.Nodup ∧ (∀ rt, rt ∈ c.recordTypes ↔ c.properties rt ≠ []) ∧
    c.size = (RecordType.all.map fun rt => (c.properties rt).length).sum ∧
    (c.isEmpty = true ↔ c.size = 0) ∧
    ∀ rt changes', changes'.filter (·.recordType = rt) = changes.filter (·.recordType = rt) →
      Alike rt (ofChanges changes') c := by
  intro c
  refine ⟨fun rt key => ?_, fun rt => ?_, c.nodup_recordTypes, fun rt => mem_recordTypes,
    c.size_eq_sum, beq_iff_eq, fun rt changes' => alike_ofChanges⟩
  · exact ⟨fun type => propertyType?_ofChanges, c.get?_eq rt key, contains_iff⟩
  · refine ⟨fun key type => mem_properties_iff, c.nodup_keys rt, keys_ofChanges, ?_⟩
    rintro before ps after rfl keep
    exact keys_ofChanges_replaced keep

/-- Of the tickets' properties one is forgotten, one keeps its place and gets another type, and one
is new. The property of users is the same as if there were no tickets. -/
theorem seen_of_changes_tickets :
    let before : List Change := [.insert .ticket "topic" .text, .insert .user "name" .text]
    let ps : Properties := .ofList [("due", .text), ("open", .boolean)]
    let after : List Change := [.insert .ticket "level" .number, .insert .ticket "due" .date]
    let c := ofChanges (before ++ .setProperties .ticket ps :: after)
    (∀ later ∈ after, ¬later.Replaces .ticket) ∧
    (∀ change ∈ before ++ .setProperties .ticket ps :: after, ¬change.Replaces .user) ∧
    c.propertyType? .ticket "due" = some .date ∧ c.propertyType? .ticket "topic" = none ∧
    (c.properties .ticket).map Prod.fst = ["due", "open", "level"] ∧
    (c.properties .user).map Prod.fst = ["name"] ∧
    Alike .user (ofChanges [.insert .user "name" .text]) c := by
  intro before ps after c
  have keep : ∀ later ∈ after, ¬later.Replaces .ticket := by simp [after, Change.Replaces]
  have keepUser : ∀ change ∈ before ++ .setProperties .ticket ps :: after,
      ¬change.Replaces .user := by
    simp [before, after, Change.Replaces]
  obtain ⟨answers, listed, -, -, -, -, others⟩ :=
    seen_of_changes (before ++ .setProperties .ticket ps :: after)
  obtain ⟨-, -, -, replaced⟩ := listed .ticket
  obtain ⟨-, -, kept, -⟩ := listed .user
  have due : GivenLast (before ++ .setProperties .ticket ps :: after) .ticket "due" .date :=
    ⟨before ++ [.setProperties .ticket ps, .insert .ticket "level" .number],
      .insert .ticket "due" .date, [], rfl, rfl, List.forall_mem_nil _⟩
  exact ⟨keep, keepUser, ((answers .ticket "due").1 .date).mpr due, by decide,
    (replaced before ps after rfl keep).trans (by decide), (kept keepUser).trans (by decide),
    others .user [.insert .user "name" .text] rfl⟩

end RecordFilter.Catalog
