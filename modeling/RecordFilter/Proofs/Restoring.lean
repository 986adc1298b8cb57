import RecordFilter.Proofs.NonemptyNodes
import RecordFilter.Proofs.PathsAfterRemoval

/-!
# Adding and taking back

A node is added at the end of the node above it. It has one blank condition, and all others are
found where they were (`Filter.Gains`). Removing the node again, or that condition, gives back the
filter of before if no node was empty: the removal goes up as far as the node that was added and no
further (`Filter.restored_of_added`).
-/
namespace RecordFilter

section Append

variable {α : Type} {l : List α} {x : α} {i : Nat}

theorem getElem?_concat (l : List α) (x : α) (i : Nat) :
    (l ++ [x])[i]? = if i = l.length then some x else l[i]? := by
  rw [List.getElem?_append]
  by_cases inside : i < l.length
  · rw [if_pos inside, if_neg (Nat.ne_of_lt inside)]
  · rw [if_neg inside, List.getElem?_singleton, List.getElem?_eq_none (Nat.not_lt.mp inside)]
    by_cases last : i = l.length
    · simp [last]
    · rw [if_neg last, if_neg (by omega)]

theorem eraseIdx_concat_length (l : List α) (x : α) : (l ++ [x]).eraseIdx l.length = l := by
  rw [List.eraseIdx_append_of_length_le (Nat.le_refl _), Nat.sub_self, List.eraseIdx_cons_zero,
    List.append_nil]

theorem modify_modify_of_getElem? {change back : α → α} (h : l[i]? = some x)
    (undone : back (change x) = x) : (l.modify i change).modify i back = l := by
  have nothing : l.modify i (back ∘ change) = l.modify i id := modify_congr h undone
  rw [List.modify_modify_eq, nothing, List.modify_id]

end Append

namespace Filter

/-- The one filter has the conditions of the other at their paths, and a blank one at a path of its
own. -/
def Gains (f : Filter) (p : Path) (f' : Filter) : Prop :=
  ∀ q, f'.condition? q = if q = p then some .blank else f.condition? q

/-- The filter with an initial subgroup at the end of a group. -/
def growGroup (f : Filter) (g : Nat) : Filter :=
  f.modifyGroup g fun group => ⟨group.subGroups ++ [.initial]⟩

/-- The filter with a blank condition at the end of a subgroup. -/
def growSubGroup (f : Filter) (g s : Nat) : Filter :=
  f.modifySubGroup g s fun sub => ⟨sub.conditions ++ [.blank]⟩

variable {f f' : Filter} {g s : Nat} {group : Group} {sub : SubGroup} {p : Path}

theorem addSubGroup_eq (present : f.groups[g]? = some group) :
    f.addSubGroup g = .ok (f.growGroup g) :=
  if_pos (List.getElem?_eq_some_iff.mp present).1

theorem addCondition_eq (present : f.subGroup? g s = some sub) :
    f.addCondition g s = .ok (f.growSubGroup g s) := by
  obtain ⟨group, hg, hs⟩ := Option.bind_eq_some_iff.mp present
  have within := (List.getElem?_eq_some_iff.mp hs).1
  simp only [addCondition, hg, if_pos within, growSubGroup]

theorem subGroup?_addGroup (f : Filter) (g s : Nat) : f.addGroup.subGroup? g s =
    if g = f.groups.length ∧ s = 0 then some .initial else f.subGroup? g s := by
  simp only [subGroup?, addGroup, getElem?_concat, bind]
  by_cases new : g = f.groups.length
  · subst new
    simp [Group.initial, List.getElem?_singleton]
  · simp [new]

theorem subGroup?_growGroup (present : f.groups[g]? = some group) (g' s : Nat) :
    (f.growGroup g).subGroup? g' s =
      if g' = g ∧ s = group.subGroups.length then some .initial else f.subGroup? g' s := by
  simp only [subGroup?, growGroup, modifyGroup, List.getElem?_modify, bind]
  by_cases here : g' = g
  · subst here
    simp [present, getElem?_concat]
  · simp [here, Ne.symm here]

theorem subGroup?_growSubGroup (present : f.subGroup? g s = some sub) (g' s' : Nat) :
    (f.growSubGroup g s).subGroup? g' s' =
      if g' = g ∧ s' = s then some ⟨sub.conditions ++ [.blank]⟩ else f.subGroup? g' s' := by
  obtain ⟨group, hg, hs⟩ := Option.bind_eq_some_iff.mp present
  simp only [subGroup?, growSubGroup, modifySubGroup, modifyGroup, List.getElem?_modify, bind]
  by_cases here : g' = g
  · subst here
    by_cases there : s' = s
    · subst there
      simp [hg, hs]
    · simp [hg, there, Ne.symm there]
  · simp [here, Ne.symm here]

/-- An initial subgroup more, with the others where they were, is a gain of its condition. -/
theorem gains_of_subGroup? (h : ∀ g' s', f'.subGroup? g' s' =
    if g' = g ∧ s' = s then some .initial else f.subGroup? g' s')
    (missing : f.subGroup? g s = none) : f.Gains ⟨g, s, 0⟩ f' := by
  rintro ⟨g', s', i⟩
  simp only [condition?, h, Path.mk.injEq]
  by_cases new : g' = g ∧ s' = s
  · obtain ⟨rfl, rfl⟩ := new
    simp [missing, SubGroup.initial, List.getElem?_singleton]
  · simp [new, ← and_assoc]

theorem gains_addGroup (f : Filter) : f.Gains ⟨f.groups.length, 0, 0⟩ f.addGroup :=
  gains_of_subGroup? f.subGroup?_addGroup (by simp [subGroup?])

theorem gains_growGroup (present : f.groups[g]? = some group) :
    f.Gains ⟨g, group.subGroups.length, 0⟩ (f.growGroup g) :=
  gains_of_subGroup? (subGroup?_growGroup present) (by simp [subGroup?, present])

theorem gains_growSubGroup (present : f.subGroup? g s = some sub) :
    f.Gains ⟨g, s, sub.conditions.length⟩ (f.growSubGroup g s) := by
  rintro ⟨g', s', i⟩
  simp only [condition?, subGroup?_growSubGroup present, Path.mk.injEq]
  by_cases here : g' = g ∧ s' = s
  · obtain ⟨rfl, rfl⟩ := here
    simp [present, getElem?_concat]
  · simp [here, ← and_assoc]

theorem Gains.found (gains : f.Gains p f') : f'.condition? p = some .blank :=
  (gains p).trans (if_pos rfl)

/-- The condition of an initial subgroup is taken out with the subgroup, and with its group if
there is no other subgroup in it. -/
theorem dropped_of_initial (present : f.subGroup? g s = some .initial) :
    f.dropped (.condition ⟨g, s, 0⟩) =
      if 1 < f.subGroupCount g then .subGroup g s else .group g := by
  have found : f.condition? ⟨g, s, 0⟩ = some .blank := by
    simp [condition?, present, SubGroup.initial]
  rw [dropped_condition found, conditionCountOf_of_subGroup present]
  rfl

theorem erase_addGroup (f : Filter) : f.addGroup.erase (.group f.groups.length) = f :=
  congrArg (Filter.mk f.recordType) (eraseIdx_concat_length _ _)

theorem erase_growGroup (present : f.groups[g]? = some group) :
    (f.growGroup g).erase (.subGroup g group.subGroups.length) = f :=
  congrArg (Filter.mk f.recordType) <| modify_modify_of_getElem? present <|
    congrArg Group.mk (eraseIdx_concat_length _ _)

theorem erase_growSubGroup (present : f.subGroup? g s = some sub) :
    (f.growSubGroup g s).erase (.condition ⟨g, s, sub.conditions.length⟩) = f := by
  obtain ⟨group, hg, hs⟩ := Option.bind_eq_some_iff.mp present
  exact congrArg (Filter.mk f.recordType) <| modify_modify_of_getElem? hg <|
    congrArg Group.mk <| modify_modify_of_getElem? hs <|
      congrArg SubGroup.mk (eraseIdx_concat_length _ _)

/-- The removal of a node that is there succeeds, and takes out one node. -/
theorem apply_of_removes (edit : Edit) {n : Node} (removes : edit.removes? = some n)
    (has : f.Has n) : edit.apply f = .ok (f.erase (f.dropped n)) := by
  obtain ⟨f', applied⟩ := exists_apply_of_has (addresses_of_removes removes) has
  rw [applied, eq_erase_of_apply removes applied]

theorem removeCondition_of_gains (gains : f.Gains p f') :
    f'.removeCondition p = .ok (f'.erase (f'.dropped (.condition p))) := by
  have has : f'.Has (.condition p) := by simp [Has, gains.found]
  exact apply_of_removes (.removeCondition p) rfl has

/-- An added group is removed by itself, or with its only condition. -/
theorem restored_addGroup (f : Filter) :
    f.addGroup.removeGroup f.groups.length = .ok f ∧
      f.addGroup.removeCondition ⟨f.groups.length, 0, 0⟩ = .ok f := by
  have group : f.addGroup.groups[f.groups.length]? = some .initial :=
    (getElem?_concat _ _ _).trans (if_pos rfl)
  have sub : f.addGroup.subGroup? f.groups.length 0 = some .initial :=
    (f.subGroup?_addGroup _ _).trans (if_pos ⟨rfl, rfl⟩)
  have only : ¬1 < f.addGroup.subGroupCount f.groups.length := by
    rw [subGroupCount_of_group group]
    decide
  constructor
  · have has : f.addGroup.Has (.group f.groups.length) := by simp [Has, group]
    exact (apply_of_removes (.removeGroup _) rfl has).trans (congrArg _ f.erase_addGroup)
  · rw [removeCondition_of_gains f.gains_addGroup, dropped_of_initial sub, if_neg only,
      erase_addGroup]

/-- A subgroup added beside others is removed by itself, or with its only condition. -/
theorem restored_growGroup (present : f.groups[g]? = some group) (nonempty : group.Full) :
    (f.growGroup g).removeSubGroup g group.subGroups.length = .ok f ∧
      (f.growGroup g).removeCondition ⟨g, group.subGroups.length, 0⟩ = .ok f := by
  have sub : (f.growGroup g).subGroup? g group.subGroups.length = some .initial :=
    (subGroup?_growGroup present _ _).trans (if_pos ⟨rfl, rfl⟩)
  have has : (f.growGroup g).Has (.subGroup g group.subGroups.length) := by simp [Has, sub]
  have others : 1 < (f.growGroup g).subGroupCount g := by
    have larger : (f.growGroup g).groups[g]? = some ⟨group.subGroups ++ [.initial]⟩ := by
      simp [growGroup, modifyGroup, present]
    have := List.length_pos_iff.mpr nonempty.1
    rw [subGroupCount_of_group larger, List.length_append, List.length_singleton]
    omega
  constructor
  · have alone := above_subGroup has
    rw [if_pos others] at alone
    have removed := apply_of_removes (.removeSubGroup _ _) rfl has
    rw [dropped, alone, alone, erase_growGroup present] at removed
    exact removed
  · rw [removeCondition_of_gains (gains_growGroup present), dropped_of_initial sub, if_pos others,
      erase_growGroup present]

/-- A condition added beside others is removed by itself. -/
theorem restored_growSubGroup (present : f.subGroup? g s = some sub) (nonempty : sub.Full) :
    (f.growSubGroup g s).removeCondition ⟨g, s, sub.conditions.length⟩ = .ok f := by
  have gains := gains_growSubGroup present
  have larger := (subGroup?_growSubGroup present g s).trans (if_pos ⟨rfl, rfl⟩)
  have others : 1 < (f.growSubGroup g s).conditionCountOf g s := by
    have := List.length_pos_iff.mpr nonempty
    rw [conditionCountOf_of_subGroup larger, List.length_append, List.length_singleton]
    omega
  rw [removeCondition_of_gains gains, dropped_condition gains.found, if_pos others,
    erase_growSubGroup present]

/-- In a filter without an empty node, a group, a subgroup of a group and a condition of a subgroup
can be added at the end. There is then one blank condition more, and all others are found at the
paths of before. The removal of the node that was added, or of its condition, succeeds and gives
back the filter of before. -/
theorem restored_of_added (full : f.Full) :
    (f.Gains ⟨f.groups.length, 0, 0⟩ f.addGroup ∧
      f.addGroup.removeGroup f.groups.length = .ok f ∧
      f.addGroup.removeCondition ⟨f.groups.length, 0, 0⟩ = .ok f) ∧
    (∀ g group, f.groups[g]? = some group → ∃ f', f.addSubGroup g = .ok f' ∧
      f.Gains ⟨g, group.subGroups.length, 0⟩ f' ∧
      f'.removeSubGroup g group.subGroups.length = .ok f ∧
      f'.removeCondition ⟨g, group.subGroups.length, 0⟩ = .ok f) ∧
    ∀ g s sub, f.subGroup? g s = some sub → ∃ f', f.addCondition g s = .ok f' ∧
      f.Gains ⟨g, s, sub.conditions.length⟩ f' ∧
      f'.removeCondition ⟨g, s, sub.conditions.length⟩ = .ok f := by
  refine ⟨⟨f.gains_addGroup, f.restored_addGroup⟩, fun g group present => ?_,
    fun g s sub present => ?_⟩
  · have nonempty := full group (List.mem_of_getElem? present)
    exact ⟨_, addSubGroup_eq present, gains_growGroup present, restored_growGroup present nonempty⟩
  · obtain ⟨group, hg, hs⟩ := Option.bind_eq_some_iff.mp present
    have nonempty := (full group (List.mem_of_getElem? hg)).2 sub (List.mem_of_getElem? hs)
    exact ⟨_, addCondition_eq present, gains_growSubGroup present,
      restored_growSubGroup present nonempty⟩

/-- A filter in the middle of a session: two conditions in the first subgroup, one in the second. -/
theorem restored_of_added_session :
    let f := ((Session.start (some .contact)).run [.addCondition 0 0, .addSubGroup 0]).current
    f.Full ∧ f.addGroup.removeCondition ⟨1, 0, 0⟩ = .ok f ∧
      (∃ f', f.addSubGroup 0 = .ok f' ∧ f.Gains ⟨0, 2, 0⟩ f' ∧
        f'.removeCondition ⟨0, 2, 0⟩ = .ok f) ∧
      ∃ f', f.addCondition 0 0 = .ok f' ∧ f'.removeCondition ⟨0, 0, 2⟩ = .ok f := by
  intro f
  have full : f.Full := Session.full_run_of_full (Session.full_start _) _
  obtain ⟨⟨-, -, twice⟩, subGroups, conditions⟩ := restored_of_added full
  obtain ⟨f', addedSub, gains, -, once⟩ := subGroups 0 _ rfl
  obtain ⟨f'', added, -, removed⟩ := conditions 0 0 _ rfl
  exact ⟨full, twice, ⟨f', addedSub, gains, once⟩, f'', added, removed⟩

-- An empty subgroup does not come back: the removal takes it out with what was added to it.
example : ((⟨none, [⟨[⟨[]⟩, .initial]⟩]⟩ : Filter).growSubGroup 0 0).removeCondition ⟨0, 0, 0⟩ =
    .ok ⟨none, [⟨[.initial]⟩]⟩ := rfl

end Filter
end RecordFilter
