import RecordFilter.Proofs.Renumbering
import RecordFilter.Proofs.Walk

/-!
# Changes in place

Choosing a property, an operator or a value changes one condition in its place. What becomes of it
depends on the condition and on the edit alone (`Edit.change`), and all else in the filter stays as
it is. So changes at two places may be made in either order (`Edit.local_of_sets`), and a run of
changes at one place is one change (`Edit.applyAll_of_sets`).
-/
namespace RecordFilter

/-- What an edit makes of the condition that it changes. -/
def Edit.change : Edit → Condition → Condition
  | setProperty _ property, _ => ⟨property, "", .null⟩
  | setOperator _ operator, c => c.withOperator operator
  | setValue _ value, c => { c with value }
  | _, c => c

/-- What edits make of a condition, one after another. -/
def Edit.changeAll (edits : List Edit) (c : Condition) : Condition :=
  edits.foldl (fun c edit => edit.change c) c

/-- The filter after edits, one after another, or the error of the first that fails. -/
def Edit.applyAll (f : Filter) (edits : List Edit) : Except EditError Filter :=
  edits.foldlM apply f

/-- The number of conditions of each subgroup, group by group. -/
def Filter.shape (f : Filter) : List (List Nat) :=
  f.groups.map fun group => group.subGroups.map fun sub => sub.conditions.length

section Level

variable {α β : Type} {l : List α} {i j : Nat} {change other : α → α}

/-- Changes of two members commute, and those of one member if they do there. At each level of a
filter the next one is the second case. -/
theorem modify_comm (h : i = j → ∀ x, other (change x) = change (other x)) :
    (l.modify i change).modify j other = (l.modify j other).modify i change := by
  by_cases same : i = j
  · subst same
    rw [List.modify_modify_eq, List.modify_modify_eq]
    exact congrArg (l.modify i) (funext (h rfl))
  · exact List.modify_modify_ne change other l same

theorem map_modify_eq_self {view : α → β} (h : ∀ x, view (change x) = view x) :
    (l.modify i change).map view = l.map view := by
  apply List.ext_getElem?
  intro n
  rw [List.getElem?_map, List.getElem?_map, List.getElem?_modify]
  cases l[n]? with
  | none => rfl
  | some x => by_cases here : i = n <;> simp [here, h]

end Level

namespace Filter

variable (f : Filter) {p q : Path} {change other : Condition → Condition}

theorem condition?_modifyCondition_of_ne (apart : q ≠ p) :
    (f.modifyCondition p change).condition? q = f.condition? q := by
  refine Option.ext fun c => ?_
  have same := congrArg ((q, c) ∈ ·) (f.conditions_modifyCondition_of_ne p change)
  simpa [List.mem_filter, apart, mem_conditions] using same

@[simp] theorem condition?_modifyCondition_self :
    (f.modifyCondition p change).condition? p = (f.condition? p).map change := by
  simp only [condition?, subGroup?, modifyCondition, modifySubGroup, modifyGroup]
  cases hg : f.groups[p.group]? with
  | none => simp [hg]
  | some group =>
    cases hs : group.subGroups[p.subGroup]? <;> simp [hg, hs]

/-- A change in place leaves every condition where it is. -/
theorem isSome_condition?_modifyCondition (stands : (f.condition? q).isSome) (p : Path)
    (change : Condition → Condition) :
    ((f.modifyCondition p change).condition? q).isSome := by
  by_cases same : q = p
  · subst same
    rw [f.condition?_modifyCondition_self, Option.isSome_map]
    exact stands
  · rw [f.condition?_modifyCondition_of_ne same]
    exact stands

@[simp] theorem modifyCondition_modifyCondition (p : Path) (change other : Condition → Condition) :
    (f.modifyCondition p change).modifyCondition p other =
      f.modifyCondition p (other ∘ change) := by
  simp [modifyCondition, modifySubGroup, modifyGroup, List.modify_modify_eq, Function.comp_def]

@[simp] theorem modifyCondition_id (p : Path) : f.modifyCondition p id = f := by
  have unchanged {α : Type} (l : List α) (i : Nat) : l.modify i (fun x => x) = l :=
    List.modify_id i l
  simp [modifyCondition, modifySubGroup, modifyGroup, unchanged]

theorem modifyCondition_comm (apart : p ≠ q) (change other : Condition → Condition) :
    (f.modifyCondition p change).modifyCondition q other =
      (f.modifyCondition q other).modifyCondition p change := by
  refine congrArg (Filter.mk f.recordType) (modify_comm fun hg group => ?_)
  refine congrArg Group.mk (modify_comm fun hs sub => ?_)
  refine congrArg SubGroup.mk (modify_comm fun hc => absurd ?_ apart)
  obtain ⟨g, s, i⟩ := p
  obtain ⟨g', s', i'⟩ := q
  simp_all

@[simp] theorem shape_modifyCondition (p : Path) (change : Condition → Condition) :
    (f.modifyCondition p change).shape = f.shape := by
  refine map_modify_eq_self fun group => map_modify_eq_self fun sub => ?_
  exact List.length_modify ..

end Filter

namespace Edit

variable {f : Filter} {p q : Path} {edit other : Edit} {edits : List Edit}

/-- An edit in place changes its condition. -/
theorem apply_of_sets (sets : edit.sets? = some p) (stands : (f.condition? p).isSome) :
    edit.apply f = .ok (f.modifyCondition p edit.change) := by
  cases edit <;> cases sets <;> exact if_pos stands

/-- Edits in one place are one change there. -/
theorem applyAll_of_sets (stands : (f.condition? p).isSome)
    (sets : ∀ e ∈ edits, e.sets? = some p) :
    applyAll f edits = .ok (f.modifyCondition p (changeAll edits)) := by
  induction edits generalizing f with
  | nil => exact congrArg Except.ok (f.modifyCondition_id p).symm
  | cons e edits ih =>
    have first := apply_of_sets (sets e List.mem_cons_self) stands
    have rest := ih (f.isSome_condition?_modifyCondition stands p e.change)
      fun e' member => sets e' (List.mem_cons_of_mem e member)
    rw [f.modifyCondition_modifyCondition] at rest
    calc applyAll f (e :: edits)
        = (e.apply f >>= fun f' => applyAll f' edits) := List.foldlM_cons
      _ = applyAll (f.modifyCondition p e.change) edits := by rw [first]; rfl
      _ = .ok (f.modifyCondition p (changeAll edits ∘ e.change)) := rest

theorem applyAll_pair (sets : edit.sets? = some p) (setsOther : other.sets? = some q)
    (stands : (f.condition? p).isSome) (standsOther : (f.condition? q).isSome) :
    applyAll f [edit, other] =
      .ok ((f.modifyCondition p edit.change).modifyCondition q other.change) := by
  have first := apply_of_sets sets stands
  have second := apply_of_sets setsOther
    (f.isSome_condition?_modifyCondition standsOther p edit.change)
  rw [applyAll, List.foldlM_cons, first]
  change (other.apply (f.modifyCondition p edit.change) >>= pure) = _
  rw [second]
  rfl

theorem changeAll_concat (edits : List Edit) (edit : Edit) (c : Condition) :
    changeAll (edits ++ [edit]) c = edit.change (changeAll edits c) := by
  rw [changeAll, List.foldl_append]
  rfl

/-- Edits do not take the property and the operator of a condition from its value. -/
theorem changeAll_congr {c d : Condition} (property : c.property = d.property)
    (operator : c.operator = d.operator) :
    (changeAll edits c).property = (changeAll edits d).property ∧
      (changeAll edits c).operator = (changeAll edits d).operator := by
  induction edits generalizing c d with
  | nil => exact ⟨property, operator⟩
  | cons e edits ih =>
    cases e with
    | setProperty q text => exact ih rfl rfl
    | setOperator q text => exact ih property rfl
    | _ => exact ih property operator

/-- Choosing a property leaves nothing of the edits before it. -/
theorem changeAll_setProperty (edits : List Edit) (p : Path) (property : String) :
    changeAll (edits ++ [.setProperty p property]) = changeAll [.setProperty p property] :=
  funext fun c => changeAll_concat edits _ c

/-- Entering a value leaves nothing of a value entered before it. -/
theorem changeAll_setValue (edits : List Edit) (p : Path) (v w : Value) :
    changeAll (.setValue p v :: (edits ++ [.setValue p w])) =
      changeAll (edits ++ [.setValue p w]) := by
  funext c
  have same : (changeAll edits { c with value := v }).property = (changeAll edits c).property ∧
      (changeAll edits { c with value := v }).operator = (changeAll edits c).operator :=
    changeAll_congr rfl rfl
  change changeAll (edits ++ [.setValue p w]) { c with value := v } = _
  rw [changeAll_concat, changeAll_concat, change, change, same.1, same.2]

/-- An edit in place changes one condition, as that condition and the edit say, and nothing else; so
edits at two paths give the same in either order. At one path, choosing a property leaves nothing of
the edits before it there, and entering a value nothing of a value entered before. -/
theorem local_of_sets (apart : p ≠ q) (stands : (f.condition? p).isSome)
    (standsOther : (f.condition? q).isSome) (sets : edit.sets? = some p)
    (setsOther : other.sets? = some q) :
    (∃ f', edit.apply f = .ok f' ∧ f'.shape = f.shape ∧ f'.recordType = f.recordType ∧
      (∀ r, r ≠ p → f'.condition? r = f.condition? r) ∧
      f'.condition? p = (f.condition? p).map edit.change) ∧
    (∃ f', applyAll f [edit, other] = .ok f' ∧ applyAll f [other, edit] = .ok f') ∧
    ∀ edits : List Edit, (∀ e ∈ edits, e.sets? = some p) →
      (∀ property, applyAll f (edits ++ [.setProperty p property]) =
        applyAll f [.setProperty p property]) ∧
      ∀ v w, applyAll f (.setValue p v :: (edits ++ [.setValue p w])) =
        applyAll f (edits ++ [.setValue p w]) := by
  refine ⟨⟨_, apply_of_sets sets stands, f.shape_modifyCondition p _, rfl,
    fun r => f.condition?_modifyCondition_of_ne, f.condition?_modifyCondition_self⟩,
    ⟨_, applyAll_pair sets setsOther stands standsOther, ?_⟩, fun edits all => ?_⟩
  · rw [f.modifyCondition_comm apart]
    exact applyAll_pair setsOther sets standsOther stands
  · have last {e : Edit} (here : e.sets? = some p) : ∀ e' ∈ edits ++ [e], e'.sets? = some p :=
      List.forall_mem_append.mpr ⟨all, List.forall_mem_singleton.mpr here⟩
    constructor
    · intro property
      rw [applyAll_of_sets stands (last rfl), changeAll_setProperty]
      exact (applyAll_of_sets stands (List.forall_mem_singleton.mpr rfl)).symm
    · intro v w
      rw [applyAll_of_sets stands (List.forall_mem_cons.mpr ⟨rfl, last rfl⟩), changeAll_setValue]
      exact (applyAll_of_sets stands (last rfl)).symm

/-- Another operator for the ages, with which their limits go, and a property for the blank
condition beside them, in either order. -/
theorem local_of_sets_patchy :
    let f : Filter := .patchy 18 65 "50%"
    (∃ f', (setOperator ⟨0, 0, 0⟩ "greaterThan").apply f = .ok f' ∧ f'.shape = [[2, 1, 1], [1]] ∧
      f'.condition? ⟨0, 0, 0⟩ = some ⟨"age", "greaterThan", .null⟩ ∧
      f'.condition? ⟨0, 2, 0⟩ = some ⟨"name", "contains", .text "50%"⟩) ∧
    ∃ f', applyAll f [.setOperator ⟨0, 0, 0⟩ "greaterThan", .setProperty ⟨0, 0, 1⟩ "name"] =
        .ok f' ∧
      applyAll f [.setProperty ⟨0, 0, 1⟩ "name", .setOperator ⟨0, 0, 0⟩ "greaterThan"] =
        .ok f' := by
  intro f
  have sets : (setOperator ⟨0, 0, 0⟩ "greaterThan").sets? = some ⟨0, 0, 0⟩ := rfl
  have setsOther : (setProperty ⟨0, 0, 1⟩ "name").sets? = some ⟨0, 0, 1⟩ := rfl
  obtain ⟨⟨f', applied, shape, -, elsewhere, here⟩, orders, -⟩ :=
    local_of_sets (f := f) (by decide) rfl rfl sets setsOther
  exact ⟨⟨f', applied, shape, here, elsewhere ⟨0, 2, 0⟩ (by decide)⟩, orders⟩

end Edit
end RecordFilter
