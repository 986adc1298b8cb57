import RecordFilter.Proofs.Saving
import RecordFilter.Proofs.Writes
import RecordFilter.Schema.CatalogJson
import RecordFilter.Schema.History

/-!
# Catalogs read back

A catalog is read back from its JSON text as it was: the record types in their order, those without
properties too, and for each its properties in their order (`Catalog.ofText?_toText_ofChanges`). Any
text may be a key, because quoted texts read back whatever they hold. An object that spells a map
has no key twice, so that writing its fields one after another makes that map again.
-/
namespace RecordFilter

namespace Json

/-- The fields of a written object are its own, whatever their keys. -/
theorem fields?_document {α : Type} (key : α → String) (toJson : α → Json) (xs : List α) :
    (document (.object (xs.map fun x => (key x, toJson x)))).fields? =
      some (xs.map fun x => (key x, (toJson x).document)) := by
  rw [document, fieldsDocuments_eq_map, Document.fields?, List.map_map]
  exact mapM_map_eq_some fun _ _ => rfl

end Json

namespace Catalog

theorem propertyOf?_document (e : String × PropertyType) :
    propertyOf? (e.1, (Json.text e.2.name).document) = some e := by
  simp [propertyOf?, Json.document, Json.Document.name?, PropertyType.ofExactName?_name]

/-- The properties of a record type are read back, also if there are none. -/
theorem recordOf?_document (e : RecordType × Properties) :
    recordOf? (e.1.name, (propertiesJson e.2).document) = some e := by
  have fields : (propertiesJson e.2).document.fields? =
      some (e.2.entries.map fun p => (p.1, (Json.text p.2.name).document)) :=
    Json.fields?_document Prod.fst (fun p : String × PropertyType => .text p.2.name) e.2.entries
  simp [recordOf?, RecordType.ofExactName?_name, fields,
    mapM_map_eq_some fun p _ => propertyOf?_document p,
    OrderedMap.ofList_entries]

theorem ofDocument?_document (c : Catalog) : ofDocument? c.toJson.document = some c := by
  let records := c.records.entries.map fun e => (e.1.name, propertiesJson e.2)
  have record : c.toJson.document.record? ["records"] =
      some [some (Json.object records).document] :=
    Json.Document.record?_object [("records", (Json.object records).document)]
      (List.pairwise_singleton _ _)
  have fields : (Json.object records).document.fields? =
      some (c.records.entries.map fun e => (e.1.name, (propertiesJson e.2).document)) :=
    Json.fields?_document (fun e => e.1.name) (fun e => propertiesJson e.2) c.records.entries
  simp [ofDocument?, record, fields,
    mapM_map_eq_some fun e _ => recordOf?_document e,
    OrderedMap.ofList_entries]

theorem numbers_propertiesJson (P : Json.Number → Prop) (ps : Properties) :
    (propertiesJson ps).Numbers P :=
  .object _ (List.forall_mem_map.mpr fun _ _ => .text _)

/-- There is no number in a written catalog. -/
theorem numbers_toJson (P : Json.Number → Prop) (c : Catalog) : c.toJson.Numbers P := by
  have records := Json.Numbers.object (P := P)
    (c.records.entries.map fun e => (e.1.name, propertiesJson e.2))
    (List.forall_mem_map.mpr fun e _ => numbers_propertiesJson P e.2)
  exact .object _ (List.forall_mem_singleton.mpr records)

/-- Whatever changes made a catalog, it is read back from its text. The record types come in the
same order, those without properties among them, and each has the same keys with the same types in
the same order, so that no question about the catalog is answered otherwise. -/
theorem ofText?_toText_ofChanges (changes : List Change) :
    ofText? (ofChanges changes).toText = some (ofChanges changes) := by
  have read := Json.Document.read?_render (numbers_toJson _ (ofChanges changes))
  rw [ofText?, toText, read, Option.bind_some, ofDocument?_document]

end Catalog
end RecordFilter
