import RecordFilter.Proofs.Renumbering

/-!
# Edits and the nodes they address

An edit addresses at most one node: the one that it changes or removes, or to which it adds. It
fails exactly if the filter does not have that node (`Edit.fails_iff_misses`). The error names the
node, but for a subgroup whose group is missing, where it names the group. Removing a condition may
remove the nodes above too; these exist, so that this does not fail.
-/
namespace RecordFilter

/-- The node that an edit addresses, if it addresses one. -/
def Edit.addresses? : Edit → Option Filter.Node
  | withRecordType _ | addGroup => none
  | addSubGroup g | removeGroup g => some (.group g)
  | addCondition g s | removeSubGroup g s => some (.subGroup g s)
  | removeCondition p | setProperty p _ | setOperator p _ | setValue p _ => some (.condition p)

namespace Filter

def Has (f : Filter) : Node → Prop
  | .group g => (f.groups[g]?).isSome
  | .subGroup g s => (f.subGroup? g s).isSome
  | .condition p => (f.condition? p).isSome

/-- The filter does not have the node, and the error says so. -/
inductive Misses (f : Filter) : Node → EditError → Prop where
  | group {g : Nat} (missing : f.groups[g]? = none) : Misses f (.group g) (.groupOutOfRange g)
  | groupOf {g s : Nat} (missing : f.groups[g]? = none) :
      Misses f (.subGroup g s) (.groupOutOfRange g)
  | subGroup {g s : Nat} {group : Group} (present : f.groups[g]? = some group)
      (missing : group.subGroups[s]? = none) : Misses f (.subGroup g s) (.subGroupOutOfRange g s)
  | condition {p : Path} (missing : f.condition? p = none) :
      Misses f (.condition p) (.conditionOutOfRange p)

section Nodes

variable {f : Filter} {n : Node} {g s : Nat} {group : Group} {p : Path}

theorem subGroup?_of_group (present : f.groups[g]? = some group) :
    f.subGroup? g s = group.subGroups[s]? := by
  rw [subGroup?, present]
  rfl

/-- A subgroup stands in a group. -/
theorem Has.exists_group (has : f.Has (.subGroup g s)) :
    ∃ group, f.groups[g]? = some group ∧ s < group.subGroups.length := by
  obtain ⟨sub, hs⟩ := Option.isSome_iff_exists.mp has
  obtain ⟨group, hg, hs⟩ := Option.bind_eq_some_iff.mp hs
  exact ⟨group, hg, (List.getElem?_eq_some_iff.mp hs).1⟩

theorem has_or_misses (f : Filter) (n : Node) : f.Has n ∨ ∃ e, f.Misses n e := by
  cases n with
  | group g =>
    cases hg : f.groups[g]? with
    | none => exact .inr ⟨_, .group hg⟩
    | some group => exact .inl (by simp [Has, hg])
  | subGroup g s =>
    cases hg : f.groups[g]? with
    | none => exact .inr ⟨_, .groupOf hg⟩
    | some group =>
      cases hs : group.subGroups[s]? with
      | none => exact .inr ⟨_, .subGroup hg hs⟩
      | some sub => exact .inl (by simp [Has, subGroup?_of_group hg, hs])
  | condition p =>
    cases hc : f.condition? p with
    | none => exact .inr ⟨_, .condition hc⟩
    | some c => exact .inl (by simp [Has, hc])

/-- The nodes above a condition exist. -/
theorem Has.subGroup (has : f.Has (.condition p)) : f.Has (.subGroup p.group p.subGroup) := by
  obtain ⟨c, found⟩ := Option.isSome_iff_exists.mp has
  obtain ⟨group, sub, hg, hs, -⟩ := condition?_eq_some_iff.mp found
  simp [Has, subGroup?_of_group hg, hs]

end Nodes

section Outcomes

variable {f : Filter} {edit : Edit} {n : Node} {g s : Nat} {e : EditError}

theorem exists_removeSubGroup (has : f.Has (.subGroup g s)) :
    ∃ f', f.removeSubGroup g s = .ok f' := by
  obtain ⟨group, hg, within⟩ := has.exists_group
  simp only [removeSubGroup, hg, if_pos within]
  split_ifs <;> exact ⟨_, rfl⟩

/-- The subgroup of a condition can be removed, whatever is left in it. -/
theorem exists_removeSubGroup_modifySubGroup {p : Path} (has : f.Has (.condition p))
    (change : SubGroup → SubGroup) : ∃ f',
      (f.modifySubGroup p.group p.subGroup change).removeSubGroup p.group p.subGroup = .ok f' := by
  rw [removeSubGroup_modifySubGroup]
  exact exists_removeSubGroup has.subGroup

/-- An edit succeeds if the filter has the node that it addresses. -/
theorem exists_apply_of_has (addresses : edit.addresses? = some n) (has : f.Has n) :
    ∃ f', edit.apply f = .ok f' := by
  cases edit with
  | withRecordType rt | addGroup => cases addresses
  | addSubGroup g | removeGroup g =>
    cases addresses
    have within : g < f.groups.length := by simpa [Has] using has
    exact ⟨_, if_pos within⟩
  | addCondition g s =>
    cases addresses
    obtain ⟨group, hg, within⟩ := has.exists_group
    simp only [Edit.apply, addCondition, hg, if_pos within]
    exact ⟨_, rfl⟩
  | removeSubGroup g s =>
    cases addresses
    exact exists_removeSubGroup has
  | removeCondition p =>
    cases addresses
    obtain ⟨c, found⟩ := Option.isSome_iff_exists.mp has
    obtain ⟨sub, hs, hc⟩ := Option.bind_eq_some_iff.mp found
    obtain ⟨within, -⟩ := List.getElem?_eq_some_iff.mp hc
    simp only [Edit.apply, removeCondition, hs, if_pos within]
    split_ifs
    · exact exists_removeSubGroup_modifySubGroup has _
    · exact ⟨_, rfl⟩
  | setProperty p property | setOperator p operator | setValue p value =>
    cases addresses
    exact ⟨_, if_pos has⟩

/-- An edit fails if the filter does not have the node that it addresses. -/
theorem apply_of_misses (addresses : edit.addresses? = some n) (misses : f.Misses n e) :
    edit.apply f = .error e := by
  cases edit with
  | withRecordType rt | addGroup => cases addresses
  | addSubGroup g | removeGroup g =>
    cases addresses
    cases misses with
    | group missing => exact if_neg (Nat.not_lt.mpr (List.getElem?_eq_none_iff.mp missing))
  | addCondition g s | removeSubGroup g s =>
    cases addresses
    cases misses with
    | groupOf missing => simp only [Edit.apply, addCondition, removeSubGroup, missing]
    | subGroup present missing =>
      have outside := Nat.not_lt.mpr (List.getElem?_eq_none_iff.mp missing)
      simp only [Edit.apply, addCondition, removeSubGroup, present, if_neg outside]
  | removeCondition p =>
    cases addresses
    cases misses with
    | condition missing =>
      simp only [Edit.apply, removeCondition]
      cases hs : f.subGroup? p.group p.subGroup with
      | none => rfl
      | some sub =>
        have absent : sub.conditions[p.condition]? = none := by
          simpa [condition?, hs] using missing
        exact if_neg (Nat.not_lt.mpr (List.getElem?_eq_none_iff.mp absent))
  | setProperty p property | setOperator p operator | setValue p value =>
    cases addresses
    cases misses with
    | condition missing => exact if_neg (by simp [missing])

theorem exists_apply_of_addresses_none (addresses : edit.addresses? = none) :
    ∃ f', edit.apply f = .ok f' := by
  cases edit with
  | withRecordType rt | addGroup => exact ⟨_, rfl⟩
  | _ => cases addresses

end Outcomes
end Filter

namespace Edit

variable {f : Filter} {edit : Edit} {e : EditError}

theorem apply_eq_error_iff :
    edit.apply f = .error e ↔ ∃ n, edit.addresses? = some n ∧ f.Misses n e := by
  constructor
  · intro failed
    cases addresses : edit.addresses? with
    | none =>
      obtain ⟨f', applied⟩ := Filter.exists_apply_of_addresses_none (f := f) addresses
      cases failed.symm.trans applied
    | some n =>
      refine ⟨n, rfl, ?_⟩
      rcases f.has_or_misses n with has | ⟨e', misses⟩
      · obtain ⟨f', applied⟩ := Filter.exists_apply_of_has addresses has
        cases failed.symm.trans applied
      · obtain rfl : e = e' :=
          Except.error.inj (failed.symm.trans (Filter.apply_of_misses addresses misses))
        exact misses
  · rintro ⟨n, addresses, misses⟩
    exact Filter.apply_of_misses addresses misses

theorem exists_apply_eq_ok_iff :
    (∃ f', edit.apply f = .ok f') ↔ ∀ n, edit.addresses? = some n → f.Has n := by
  constructor
  · rintro ⟨f', applied⟩ n addresses
    rcases f.has_or_misses n with has | ⟨e, misses⟩
    · exact has
    · cases applied.symm.trans (Filter.apply_of_misses addresses misses)
  · intro has
    cases addresses : edit.addresses? with
    | none => exact Filter.exists_apply_of_addresses_none addresses
    | some n => exact Filter.exists_apply_of_has addresses (has n addresses)

/-- An edit fails exactly if the filter does not have the node that the edit addresses, and the
error names that node or the missing group of a subgroup. In every other case it succeeds. Where
the removal of a condition goes on to its subgroup, that removal succeeds too, whatever is left in
the subgroup by then. -/
theorem fails_iff_misses (f : Filter) :
    (∀ (edit : Edit) (e : EditError),
      edit.apply f = .error e ↔ ∃ n, edit.addresses? = some n ∧ f.Misses n e) ∧
    (∀ edit : Edit,
      (∃ f', edit.apply f = .ok f') ↔ ∀ n, edit.addresses? = some n → f.Has n) ∧
    ∀ p, f.Has (.condition p) → ∀ change, ∃ f',
      (f.modifySubGroup p.group p.subGroup change).removeSubGroup p.group p.subGroup = .ok f' :=
  ⟨fun _ _ => apply_eq_error_iff, fun _ => exists_apply_eq_ok_iff,
    fun _ has change => Filter.exists_removeSubGroup_modifySubGroup has change⟩

/-- A filter with an empty group, and a subgroup whose only condition is removed. -/
theorem fails_iff_misses_hollow :
    let f : Filter := ⟨some .task, [⟨[⟨[.blank]⟩]⟩, ⟨[]⟩]⟩
    (addCondition 1 0).apply f = .error (.subGroupOutOfRange 1 0) ∧
      (addCondition 2 0).apply f = .error (.groupOutOfRange 2) ∧
      (removeCondition ⟨2, 0, 0⟩).apply f = .error (.conditionOutOfRange ⟨2, 0, 0⟩) ∧
      (∃ f', (addSubGroup 1).apply f = .ok f') ∧
      f.Has (.condition ⟨0, 0, 0⟩) ∧
      ∃ f', (f.modifySubGroup 0 0 fun _ => ⟨[]⟩).removeSubGroup 0 0 = .ok f' := by
  intro f
  obtain ⟨fails, succeeds, inner⟩ := fails_iff_misses f
  have has : f.Has (.condition ⟨0, 0, 0⟩) := rfl
  refine ⟨(fails _ _).mpr ⟨_, rfl, .subGroup rfl rfl⟩, (fails _ _).mpr ⟨_, rfl, .groupOf rfl⟩,
    (fails _ _).mpr ⟨_, rfl, .condition rfl⟩, (succeeds _).mpr fun n addresses => ?_, has,
    inner _ has _⟩
  cases addresses
  rfl

end Edit
end RecordFilter
