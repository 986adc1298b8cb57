import Mathlib
import RecordFilter.Proofs.Paths
import RecordFilter.Proofs.Sequences
import RecordFilter.Proofs.Walk
import RecordFilter.Submission

/-!
# What a filter asks of the metadata

Compiling looks up the properties of the complete conditions for the record type of the filter, and
nothing else. `Filter.walk_congr` says so for the walk, and with it for everything that a walk
leaves behind. What a catalog answers for other keys and other record types is therefore never seen.
-/
namespace RecordFilter

/-- The properties that the complete conditions are about, in order. -/
def Filter.usedProperties (f : Filter) : List String :=
  (f.conditions.filter fun v => v.2.isComplete).map fun v => Text.trim v.2.property

/-- The two sources give the same answer for every property that the filter uses. -/
def Filter.Agrees (f : Filter) (r r' : Resolver) : Prop :=
  ∀ rt, f.recordType = some rt → ∀ key ∈ f.usedProperties, r' rt key = r rt key

/-- With either source, the filter compiles to the same, has the same errors, and gets the same
answers from every gate. -/
structure Filter.SameOutcomes (f : Filter) (r r' : Resolver) : Prop where
  compile : f.compile r' = f.compile r
  compileEvents : f.compileEvents r' = f.compileEvents r
  diagnose : f.diagnose r' = f.diagnose r
  diagnoseEvents : f.diagnoseEvents r' = f.diagnoseEvents r
  accepts (gate : Gate) : gate.accepts f r' = gate.accepts f r
  submit (gate : Gate) : gate.submit f r' = gate.submit f r

section Walk

variable {rt : RecordType} {r r' : Resolver}

/-- The two sources give the same answer for each complete condition of the list. -/
def AgreeOn (rt : RecordType) (r r' : Resolver) (located : List (Path × Condition)) : Prop :=
  ∀ v ∈ located, v.2.isComplete = true →
    r' rt (Text.trim v.2.property) = r rt (Text.trim v.2.property)

theorem AgreeOn.of_mem_flatMap {α : Type} {located : α → List (Path × Condition)} {l : List α}
    (h : AgreeOn rt r r' (l.flatMap located)) {x : α} (hx : x ∈ l) :
    AgreeOn rt r r' (located x) :=
  fun v hv => h v (List.mem_flatMap.mpr ⟨x, hx, hv⟩)

/-- A condition asks for its property alone, and only if it is complete. -/
theorem Condition.visit_congr {c : Condition} (path : Path) (h : c.isComplete = true →
    r' rt (Text.trim c.property) = r rt (Text.trim c.property)) :
    c.visit rt r' path = c.visit rt r path := by
  cases complete : c.isComplete with
  | false => simp [visit, events, compile, complete]
  | true => simp [visit, events, compile, complete, Resolver.safe?, h complete]

theorem SubGroup.walk_congr {sub : SubGroup} {g s : Nat}
    (h : AgreeOn rt r r' (sub.located g s)) : sub.walk rt r' g s = sub.walk rt r g s := by
  have conditions : ∀ x ∈ sub.conditions.zipIdx,
      x.1.visit rt r' ⟨g, s, x.2⟩ = x.1.visit rt r ⟨g, s, x.2⟩ := fun x hx =>
    Condition.visit_congr _ (h (⟨g, s, x.2⟩, x.1) (List.mem_map_of_mem hx))
  rw [walk, walk, mapM_congr conditions]

theorem Group.walk_congr {group : Group} {g : Nat} (h : AgreeOn rt r r' (group.located g)) :
    group.walk rt r' g = group.walk rt r g := by
  have subGroups : ∀ x ∈ group.subGroups.zipIdx, x.1.walk rt r' g x.2 = x.1.walk rt r g x.2 :=
    fun x hx => SubGroup.walk_congr (h.of_mem_flatMap hx)
  rw [walk, walk, mapM_congr subGroups]

/-- The walk over a filter asks for the properties of complete conditions alone. -/
theorem Filter.walk_congr {f : Filter} (h : AgreeOn rt r r' f.conditions) :
    f.walk rt r' = f.walk rt r := by
  have groups : ∀ x ∈ f.groups.zipIdx, x.1.walk rt r' x.2 = x.1.walk rt r x.2 :=
    fun x hx => Group.walk_congr (h.of_mem_flatMap hx)
  rw [walk, walk, mapM_congr groups]

end Walk

namespace Filter

variable {f : Filter} {r r' : Resolver}

theorem mem_usedProperties {key : String} : key ∈ f.usedProperties ↔
    ∃ v ∈ f.conditions, v.2.isComplete = true ∧ Text.trim v.2.property = key := by
  simp only [usedProperties, List.mem_map, List.mem_filter, and_assoc]

theorem Agrees.agreeOn {rt : RecordType} (h : f.Agrees r r') (hrt : f.recordType = some rt) :
    AgreeOn rt r r' f.conditions :=
  fun v hv complete => h rt hrt _ (mem_usedProperties.mpr ⟨v, hv, complete, rfl⟩)

/-- Sources that agree on the properties that a filter uses have the same outcomes. -/
theorem Agrees.sameOutcomes (h : f.Agrees r r') : f.SameOutcomes r r' := by
  have runs : f.compileRun r' = f.compileRun r ∧ f.diagnoseRun r' = f.diagnoseRun r := by
    simp only [compileRun, diagnoseRun]
    cases hrt : f.recordType with
    | none => simp
    | some rt => simp [walk_congr (h.agreeOn hrt)]
  have compile : f.compile r' = f.compile r := congrArg Prod.fst runs.1
  exact {
    compile
    compileEvents := congrArg Prod.snd runs.1
    diagnose := congrArg Prod.fst runs.2
    diagnoseEvents := congrArg Prod.snd runs.2
    accepts gate := by rw [Gate.accepts, Gate.accepts, compile]
    submit gate := by rw [Gate.submit, Gate.submit, compile] }

/-- A filter that compiles uses known properties alone. -/
theorem isSome_of_mem_usedProperties {q : Query} {rt : RecordType} {key : String}
    (h : f.compile r = .ok q) (hrt : f.recordType = some rt) (hkey : key ∈ f.usedProperties) :
    (r rt key).isSome = true := by
  obtain ⟨rt', hrt', errors, -⟩ := compile_eq_ok_iff.mp h
  obtain rfl : rt = rt' := Option.some.inj (hrt.symm.trans hrt')
  obtain ⟨⟨p, c⟩, hc, complete, rfl⟩ := mem_usedProperties.mp hkey
  have error : c.error? rt r p = none := by
    rw [errorsOf, List.filterMap_eq_nil_iff] at errors
    exact errors (p, c) hc
  have some := (Condition.isSome_comparison? error).trans complete
  obtain ⟨m, hm⟩ := Option.isSome_iff_exists.mp some
  obtain ⟨-, resolved, -, -, known, -⟩ := Condition.comparison?_eq_some_iff.mp hm
  rw [(Option.filter_eq_some_iff.mp known).1]
  rfl

end Filter

namespace Catalog

variable {c : Catalog} {rt rt' : RecordType} {key key' : String} {type : PropertyType}

/-- The catalog's own key is the key that is looked up. -/
theorem get?_eq (c : Catalog) (rt : RecordType) (key : String) :
    c.get? rt key = (c.propertyType? rt key).map fun type => (key, type) := by
  rw [propertyType?, Option.map_map]
  cases h : c.get? rt key with
  | none => rfl
  | some e =>
    have own : e.1 = key := by simpa using List.find?_some h
    rw [Option.map_some, ← own]
    rfl

theorem propertyType?_insert : (c.insert rt key type).propertyType? rt' key' =
    if rt = rt' ∧ key = key' then some type else c.propertyType? rt' key' := by
  change ((c.insert rt key type).propertyMap rt').get? key' = _
  rw [propertyMap_insert]
  by_cases same : rt = rt'
  · subst same
    simp only [if_true, true_and, OrderedMap.get?_insert]
    rfl
  · rw [if_neg same, if_neg fun h => same h.1]
    rfl

theorem propertyType?_setProperties_of_ne {ps : Properties} (h : rt ≠ rt') :
    (c.setProperties rt ps).propertyType? rt' key' = c.propertyType? rt' key' := by
  change ((c.setProperties rt ps).propertyMap rt').get? key' = _
  rw [propertyMap_setProperties, if_neg h]
  rfl

end Catalog

/-- A catalog answers as its types do with the key that is looked up as the column. -/
theorem Resolver.ofTypes_propertyType? (c : Catalog) : ofTypes c.propertyType? = ofCatalog c := by
  funext rt key
  rw [ofTypes, ofCatalog, Catalog.get?_eq, Option.map_map]
  rfl

namespace Filter

variable {f : Filter} {c c' : Catalog}

theorem agrees_ofCatalog (h : ∀ rt, f.recordType = some rt → ∀ key ∈ f.usedProperties,
    c'.propertyType? rt key = c.propertyType? rt key) :
    f.Agrees (.ofCatalog c) (.ofCatalog c') := by
  intro rt hrt key hkey
  rw [← Resolver.ofTypes_propertyType?, ← Resolver.ofTypes_propertyType?, Resolver.ofTypes,
    Resolver.ofTypes, h rt hrt key hkey]

/-- A property that was not known is not used by a filter that compiles. -/
theorem agrees_insert {q : Query} {rt : RecordType} {key : String} (type : PropertyType)
    (unknown : c.contains rt key = false) (h : f.compile (.ofCatalog c) = .ok q) :
    f.Agrees (.ofCatalog c) (.ofCatalog (c.insert rt key type)) := by
  refine agrees_ofCatalog fun rt' hrt key' hkey => ?_
  rw [Catalog.propertyType?_insert, if_neg]
  rintro ⟨rfl, rfl⟩
  have known := isSome_of_mem_usedProperties h hrt hkey
  rw [Resolver.ofCatalog, Option.isSome_map] at known
  exact absurd (known.symm.trans unknown) Bool.true_eq_false.mp

end Filter

/-- The outcomes of a filter depend on the metadata only through the properties that its complete
conditions use. So a catalog serves as well as its types do; publishing properties for another
record type changes no outcome; and a property that was not there can be added without changing the
query of a filter that compiles. -/
theorem Filter.sameOutcomes_of_agrees (f : Filter) :
    (∀ r r', f.Agrees r r' → f.SameOutcomes r r') ∧
    ∀ c : Catalog,
      f.SameOutcomes (.ofCatalog c) (.ofTypes c.propertyType?) ∧
      (∀ rt ps, f.recordType ≠ some rt →
        f.SameOutcomes (.ofCatalog c) (.ofCatalog (c.setProperties rt ps))) ∧
      ∀ rt key type q, c.contains rt key = false → f.compile (.ofCatalog c) = .ok q →
        f.compile (.ofCatalog (c.insert rt key type)) = .ok q := by
  refine ⟨fun r r' h => h.sameOutcomes, fun c => ⟨?types, fun rt ps other => ?published, ?added⟩⟩
  case types =>
    rw [Resolver.ofTypes_propertyType?]
    exact Agrees.sameOutcomes fun _ _ _ _ => rfl
  case published =>
    refine (agrees_ofCatalog fun rt' hrt key _ => ?_).sameOutcomes
    exact Catalog.propertyType?_setProperties_of_ne fun same => other (same ▸ hrt)
  case added =>
    intro rt key type q unknown h
    exact (agrees_insert type unknown h).sameOutcomes.compile.trans h

/-- A catalog that knows what `Filter.patchy` uses, and the same key for users as a text. -/
def Catalog.people : Catalog :=
  .ofRows [(.contact, "age", .number), (.user, "age", .text), (.contact, "name", .text)]

theorem Filter.agrees_patchy (low high : Int64) (name : String) :
    (Filter.patchy low high name).Agrees .ageAndName (.ofCatalog .people) := by
  have used : (Filter.patchy low high name).usedProperties = ["age", "name"] := by cbv
  rintro rt ⟨rfl⟩ key hkey
  rw [used, List.mem_cons, List.mem_singleton] at hkey
  rcases hkey with rfl | rfl <;> rfl

/-- `Filter.patchy` compiles against the catalog as against `Resolver.ageAndName`, and also after
users have other properties and contacts one more. -/
theorem Filter.sameOutcomes_of_agrees_patchy :
    (Filter.patchy 18 65 "50%").SameOutcomes .ageAndName (.ofCatalog .people) ∧
    (Filter.patchy 18 65 "50%").SameOutcomes (.ofCatalog .people)
      (.ofCatalog (Catalog.people.setProperties .user .empty)) ∧
    Catalog.people.contains .contact "email" = false ∧
    (Filter.patchy 18 65 "50%").compile
      (.ofCatalog (Catalog.people.insert .contact "email" .text)) =
        .ok ⟨.contact, some (.patchy 18 65 "%50\\%%")⟩ := by
  obtain ⟨agree, catalogs⟩ := sameOutcomes_of_agrees (.patchy 18 65 "50%")
  obtain ⟨-, published, added⟩ := catalogs .people
  have same := agree _ _ (agrees_patchy 18 65 "50%")
  have unknown : Catalog.people.contains .contact "email" = false := by decide
  exact ⟨same, published .user .empty nofun, unknown,
    added .contact "email" .text _ unknown (same.compile.trans rfl)⟩

end RecordFilter
