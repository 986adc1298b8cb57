import RecordFilter.Filter.Session
import RecordFilter.Proofs.Editing

/-!
# Filters without empty nodes

The filters that a session can begin with have no group without subgroups and no subgroup without
conditions. No edit makes an empty node: what an edit adds has a condition in it, and a removal
takes out the node above where nothing else would be left. So an editing session never meets an
empty node. Its record type is the one chosen last.
-/
namespace RecordFilter

def SubGroup.Full (sub : SubGroup) : Prop := sub.conditions ≠ []

def Group.Full (group : Group) : Prop := group.subGroups ≠ [] ∧ ∀ sub ∈ group.subGroups, sub.Full

/-- No group and no subgroup of the filter is empty. -/
def Filter.Full (f : Filter) : Prop := ∀ group ∈ f.groups, group.Full

theorem forall_mem_modify {α : Type} {P : α → Prop} {l : List α} {i : Nat} {change : α → α}
    (h : ∀ x ∈ l, P x) (here : ∀ x, l[i]? = some x → P (change x)) :
    ∀ x ∈ l.modify i change, P x := by
  intro y hy
  obtain ⟨n, hn⟩ := List.mem_iff_getElem?.mp hy
  rw [List.getElem?_modify] at hn
  obtain ⟨x, hx, rfl⟩ := Option.map_eq_some_iff.mp hn
  by_cases same : i = n
  · rw [if_pos same]
    exact here x (same ▸ hx)
  · rw [if_neg same]
    exact h x (List.mem_of_getElem? hx)

theorem SubGroup.full_initial : SubGroup.initial.Full := List.cons_ne_nil _ _

theorem Group.full_initial : Group.initial.Full :=
  ⟨List.cons_ne_nil _ _, fun _ h => List.mem_singleton.mp h ▸ SubGroup.full_initial⟩

namespace Filter

variable {f f' : Filter} {n : Node}

theorem full_blank : blank.Full := nofun

theorem full_initial (rt : RecordType) : (initial rt).Full :=
  fun _ h => List.mem_singleton.mp h ▸ Group.full_initial

theorem Full.modifyGroup {g : Nat} {change : Group → Group} (full : f.Full)
    (here : ∀ group, f.groups[g]? = some group → (change group).Full) :
    (f.modifyGroup g change).Full :=
  forall_mem_modify full here

theorem Full.modifySubGroup {g s : Nat} {change : SubGroup → SubGroup} (full : f.Full)
    (here : ∀ sub, f.subGroup? g s = some sub → (change sub).Full) :
    (f.modifySubGroup g s change).Full := by
  refine full.modifyGroup fun group hg => ?_
  obtain ⟨nonempty, subs⟩ := full group (List.mem_of_getElem? hg)
  refine ⟨by simpa using nonempty, forall_mem_modify subs fun sub hs => here sub ?_⟩
  rw [subGroup?, hg]
  exact hs

theorem Full.modifyCondition (full : f.Full) (p : Path) (change : Condition → Condition) :
    (f.modifyCondition p change).Full := by
  refine full.modifySubGroup fun sub hs => ?_
  obtain ⟨group, hg, hs⟩ := Option.bind_eq_some_iff.mp hs
  have nonempty := (full group (List.mem_of_getElem? hg)).2 sub (List.mem_of_getElem? hs)
  simpa [SubGroup.Full] using nonempty

theorem eq_modifyGroup_of_addSubGroup {g : Nat} (h : f.addSubGroup g = .ok f') :
    f' = f.modifyGroup g fun group => ⟨group.subGroups ++ [.initial]⟩ := by
  rw [addSubGroup] at h
  split_ifs at h
  exact (Except.ok.inj h).symm

theorem eq_modifySubGroup_of_addCondition {g s : Nat} (h : f.addCondition g s = .ok f') :
    f' = f.modifySubGroup g s fun sub => ⟨sub.conditions ++ [.blank]⟩ := by
  rw [addCondition] at h
  split at h
  · cases h
  · split_ifs at h
    exact (Except.ok.inj h).symm

/-- Of a node that is taken out in place of another, no node above would be left empty. -/
theorem above_dropped (f : Filter) (n : Node) : f.above (f.dropped n) = f.dropped n := by
  rw [dropped]
  cases n with
  | group g => rfl
  | subGroup g s => rw [above_above_subGroup, above_above_subGroup]
  | condition p =>
    by_cases empty : (f.subGroup? p.group p.subGroup).all fun sub =>
        (sub.conditions.eraseIdx p.condition).isEmpty
    · have up : f.above (.condition p) = .subGroup p.group p.subGroup := if_pos empty
      rw [up, above_above_subGroup]
    · have stays : f.above (.condition p) = .condition p := if_neg empty
      simp only [stays]

/-- Taking out a node leaves no empty node, if it is not the last one in the node above. -/
theorem Full.erase (full : f.Full) (others : f.above n = n) : (f.erase n).Full := by
  cases n with
  | group g => exact fun group h => full group (List.mem_of_mem_eraseIdx h)
  | subGroup g s =>
    refine full.modifyGroup fun group hg => ⟨fun empty => ?_, fun sub hs => ?_⟩
    · rw [above, hg, Option.all_some, if_pos (List.isEmpty_iff.mpr empty)] at others
      cases others
    · exact (full group (List.mem_of_getElem? hg)).2 sub (List.mem_of_mem_eraseIdx hs)
  | condition p =>
    refine full.modifySubGroup fun sub hs empty => ?_
    rw [above, hs, Option.all_some, if_pos (List.isEmpty_iff.mpr empty)] at others
    cases others

/-- No edit makes an empty node. -/
theorem Full.apply {edit : Edit} (full : f.Full) (applied : edit.apply f = .ok f') : f'.Full := by
  cases edit with
  | withRecordType rt =>
    cases applied
    exact full_initial rt
  | addGroup =>
    cases applied
    intro group h
    rcases List.mem_append.mp h with old | new
    · exact full group old
    · exact List.mem_singleton.mp new ▸ Group.full_initial
  | addSubGroup g =>
    obtain rfl := eq_modifyGroup_of_addSubGroup applied
    refine full.modifyGroup fun group hg => ⟨by simp, fun sub h => ?_⟩
    rcases List.mem_append.mp h with old | new
    · exact (full group (List.mem_of_getElem? hg)).2 sub old
    · exact List.mem_singleton.mp new ▸ SubGroup.full_initial
  | addCondition g s =>
    obtain rfl := eq_modifySubGroup_of_addCondition applied
    exact full.modifySubGroup fun sub _ => by simp [SubGroup.Full]
  | removeGroup g | removeSubGroup g s | removeCondition p =>
    obtain rfl := eq_erase_of_apply rfl applied
    exact full.erase (f.above_dropped _)
  | setProperty p property | setOperator p operator | setValue p value =>
    obtain ⟨change, rfl⟩ := eq_modifyCondition_of_apply rfl applied
    exact full.modifyCondition p change

end Filter

/-- The record type that an edit chooses. -/
def Edit.recordType? : Edit → Option RecordType
  | withRecordType rt => some rt
  | _ => none

/-- An edit that does not choose a record type keeps it. -/
theorem Edit.recordType_apply {edit : Edit} {f f' : Filter} (applied : edit.apply f = .ok f') :
    f'.recordType = edit.recordType?.or f.recordType := by
  cases edit with
  | withRecordType rt | addGroup =>
    cases applied
    rfl
  | addSubGroup g =>
    obtain rfl := Filter.eq_modifyGroup_of_addSubGroup applied
    rfl
  | addCondition g s =>
    obtain rfl := Filter.eq_modifySubGroup_of_addCondition applied
    rfl
  | removeGroup g | removeSubGroup g s | removeCondition p =>
    obtain rfl := Filter.eq_erase_of_apply rfl applied
    exact f.recordType_erase _
  | setProperty p property | setOperator p operator | setValue p value =>
    obtain ⟨change, rfl⟩ := Filter.eq_modifyCondition_of_apply rfl applied
    rfl

namespace Session

variable {s : Session}

/-- The session after edits, one after another. -/
def run (s : Session) (edits : List Edit) : Session := edits.foldl edit s

/-- The session that begins with the first filter of a record type, or with the blank filter. -/
def start (chosen : Option RecordType) : Session := ⟨chosen.elim .blank .initial, []⟩

theorem full_start (chosen : Option RecordType) : (start chosen).current.Full := by
  cases chosen with
  | none => exact Filter.full_blank
  | some rt => exact Filter.full_initial rt

theorem recordType_start (chosen : Option RecordType) :
    (start chosen).current.recordType = chosen := by
  cases chosen <;> rfl

theorem full_edit (full : s.current.Full) (e : Edit) : (s.edit e).current.Full := by
  rw [edit]
  cases applied : e.apply s.current with
  | ok f => exact full.apply applied
  | error _ => exact full

theorem recordType_edit (s : Session) (e : Edit) :
    (s.edit e).current.recordType = e.recordType?.or s.current.recordType := by
  rw [edit]
  cases applied : e.apply s.current with
  | ok f => exact Edit.recordType_apply applied
  | error _ =>
    cases e with
    | withRecordType rt => cases applied
    | _ => rfl

theorem full_run_of_full (full : s.current.Full) (edits : List Edit) :
    (s.run edits).current.Full := by
  induction edits generalizing s with
  | nil => exact full
  | cons e edits ih => exact ih (full_edit full e)

/-- The record type is the one chosen last. -/
theorem recordType_run (s : Session) (edits : List Edit) :
    (s.run edits).current.recordType =
      (edits.filterMap Edit.recordType?).getLast?.or s.current.recordType := by
  induction edits generalizing s with
  | nil => rfl
  | cons e edits ih =>
    have chosen : (e :: edits).filterMap Edit.recordType? =
        e.recordType?.toList ++ edits.filterMap Edit.recordType? := by
      cases h : e.recordType? <;> simp [h]
    rw [chosen, List.getLast?_append, Option.or_assoc]
    refine (ih (s.edit e)).trans ?_
    rw [recordType_edit]
    cases e.recordType? <;> rfl

/-- Whatever edits are made in a session, in whatever order and whether they succeed or fail, the
filter has no empty node, and its record type is the one chosen last: by the last edit that chooses
one, or else at the start. -/
theorem full_run (chosen : Option RecordType) (edits : List Edit) :
    ((start chosen).run edits).current.Full ∧
      ((start chosen).run edits).current.recordType =
        (edits.filterMap Edit.recordType?).getLast?.or chosen := by
  rw [recordType_run, recordType_start]
  exact ⟨full_run_of_full (full_start chosen) edits, rfl⟩

-- The only condition goes with its subgroup and its group.
example :
    ((start (some .contact)).run [.removeCondition ⟨0, 0, 0⟩]).current = ⟨some .contact, []⟩ := rfl

end Session
end RecordFilter
