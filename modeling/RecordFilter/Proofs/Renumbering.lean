import Mathlib.Data.List.Basic
import RecordFilter.Filter.Removal
import RecordFilter.Proofs.Paths

/-!
# Conditions after an edit

What an edit does to the list of conditions. A removal takes out the conditions of the node, and
those behind it move up (`Filter.conditions_erase`); a change in place leaves all other conditions
as they are. Both follow from what happens at one level of the tree, where a member of a list is
taken out or changed.
-/
namespace RecordFilter

/-- The conditions that stay when paths change, with their new paths. -/
def relocate (move : Path → Option Path) (located : List (Path × Condition)) :
    List (Path × Condition) :=
  located.filterMap fun v => (move v.1).map fun p => (p, v.2)

section Level

variable {α β : Type} {l : List α} {i : Nat}

theorem zipIdx_eraseIdx (l : List α) (i k : Nat) : (l.eraseIdx i).zipIdx k =
    (l.zipIdx k).filterMap fun x => (closeGap (k + i) x.2).map fun n => (x.1, n) := by
  induction l generalizing i k with
  | nil => rfl
  | cons a l ih =>
    rw [List.zipIdx_cons]
    cases i with
    | zero =>
      have behind : ∀ x ∈ l.zipIdx k, closeGap k (x.2 + 1) = some x.2 := fun x hx =>
        closeGap_succ_of_le (List.le_snd_of_mem_zipIdx hx)
      rw [List.filterMap_cons_none (by simp [closeGap_eq_none_iff]), List.zipIdx_succ,
        List.filterMap_map, Nat.add_zero, List.eraseIdx_cons_zero]
      refine (List.filterMap_some.symm.trans (List.filterMap_congr fun x hx => ?_))
      simp [behind x hx]
    | succ i =>
      have front : closeGap (k + (i + 1)) k = some k := closeGap_of_lt (by omega)
      rw [List.filterMap_cons_some (by rw [front]; rfl), List.eraseIdx_cons_succ, List.zipIdx_cons,
        ih, Nat.add_right_comm, Nat.add_assoc]

theorem zipIdx_modify (l : List α) (i : Nat) (change : α → α) : (l.modify i change).zipIdx =
    l.zipIdx.map fun x => (if x.2 = i then change x.1 else x.1, x.2) := by
  apply List.ext_getElem?
  intro n
  simp only [List.getElem?_zipIdx, List.getElem?_modify, List.getElem?_map]
  cases l[n]? <;> simp [eq_comm]

variable {update : β → Option β}

theorem filterMap_eq_self {vs : List β} (h : ∀ v ∈ vs, update v = some v) :
    vs.filterMap update = vs :=
  (List.filterMap_congr h).trans List.filterMap_some

/-- An update of the entries of one member changes that member. -/
theorem filterMap_located_modify (located : α → Nat → List β) {change : α → α}
    (here : ∀ x, (located x i).filterMap update = located (change x) i)
    (elsewhere : ∀ x n, n ≠ i → (located x n).filterMap update = located x n) :
    (l.zipIdx.flatMap fun x => located x.1 x.2).filterMap update =
      (l.modify i change).zipIdx.flatMap fun x => located x.1 x.2 := by
  rw [List.filterMap_flatMap, zipIdx_modify, List.flatMap_map]
  refine List.flatMap_congr fun x _ => ?_
  by_cases same : x.2 = i
  · rw [if_pos same, same, here]
  · rw [if_neg same, elsewhere x.1 x.2 same]

/-- An update that takes out the entries of one member and moves up those behind takes out that
member. -/
theorem filterMap_located_eraseIdx (located : α → Nat → List β)
    (shift : ∀ x n, (located x n).filterMap update = (closeGap i n).elim [] (located x)) :
    (l.zipIdx.flatMap fun x => located x.1 x.2).filterMap update =
      (l.eraseIdx i).zipIdx.flatMap fun x => located x.1 x.2 := by
  rw [List.filterMap_flatMap, zipIdx_eraseIdx, Nat.zero_add]
  induction l.zipIdx with
  | nil => rfl
  | cons x xs ih =>
    rw [List.flatMap_cons, ih, shift]
    cases h : closeGap i x.2 <;> simp [h]

end Level

section Tree

variable {g s : Nat} {update : Path × Condition → Option (Path × Condition)}
  {move : Path → Option Path}

theorem SubGroup.located_eq_flatMap (sub : SubGroup) (g s : Nat) :
    sub.located g s = sub.conditions.zipIdx.flatMap fun x => [(⟨g, s, x.2⟩, x.1)] := by
  rw [located, List.map_eq_flatMap]

theorem SubGroup.relocate_located (sub : SubGroup) (place : Option (Nat × Nat))
    (h : ∀ i, move ⟨g, s, i⟩ = place.map fun x => ⟨x.1, x.2, i⟩) :
    relocate move (sub.located g s) = place.elim [] fun x => sub.located x.1 x.2 := by
  rw [relocate, located, List.filterMap_map]
  cases place <;> simp [h, located]

theorem Group.relocate_located (group : Group) (place : Option Nat)
    (h : ∀ s i, move ⟨g, s, i⟩ = place.map fun n => ⟨n, s, i⟩) :
    relocate move (group.located g) = place.elim [] group.located := by
  rw [relocate, located, List.filterMap_flatMap]
  have subGroups (x : SubGroup × Nat) : (x.1.located g x.2).filterMap
      (fun v => (move v.1).map fun p => (p, v.2)) = _ :=
    x.1.relocate_located (place.map (·, x.2)) fun i => by cases place <;> simp [h]
  cases place <;> simp [subGroups, located]

namespace Filter

variable (f : Filter)

theorem conditions_modifyGroup {change : Group → Group}
    (here : ∀ group : Group, (group.located g).filterMap update = (change group).located g)
    (elsewhere : ∀ v, v.1.group ≠ g → update v = some v) :
    (f.modifyGroup g change).conditions = f.conditions.filterMap update := by
  refine (filterMap_located_modify Group.located here fun group n other => ?_).symm
  refine filterMap_eq_self fun v hv => elsewhere v ?_
  rw [(Group.mem_located.mp hv).1]
  exact other

theorem conditions_modifySubGroup {change : SubGroup → SubGroup}
    (here : ∀ sub : SubGroup, (sub.located g s).filterMap update = (change sub).located g s)
    (elsewhere : ∀ v, ¬(v.1.group = g ∧ v.1.subGroup = s) → update v = some v) :
    (f.modifySubGroup g s change).conditions = f.conditions.filterMap update := by
  refine f.conditions_modifyGroup (fun group => ?_) fun v other => elsewhere v fun h => other h.1
  refine filterMap_located_modify (SubGroup.located · g) here fun sub n other => ?_
  refine filterMap_eq_self fun v hv => elsewhere v ?_
  rw [(SubGroup.mem_located.mp hv).2.1]
  exact fun h => other h.2

/-- Taking out a node takes out its conditions and moves up those behind. -/
theorem conditions_erase (n : Node) :
    (f.erase n).conditions = relocate n.renumber f.conditions := by
  cases n with
  | group g =>
    exact (filterMap_located_eraseIdx Group.located fun group n =>
      group.relocate_located (closeGap g n) fun _ _ => rfl).symm
  | subGroup g s =>
    refine f.conditions_modifyGroup (fun group => ?_) fun v other => ?_
    · refine filterMap_located_eraseIdx (SubGroup.located · g) fun sub n => ?_
      have moved : relocate (Node.subGroup g s).renumber (sub.located g n) = _ :=
        sub.relocate_located ((closeGap s n).map (g, ·)) fun i => by
          simp [Node.renumber, Function.comp_def]
      refine moved.trans ?_
      cases closeGap s n <;> rfl
    · simp [Node.renumber, other]
  | condition p =>
    refine f.conditions_modifySubGroup (fun sub => ?_) fun v other => ?_
    · rw [SubGroup.located_eq_flatMap, SubGroup.located_eq_flatMap]
      refine filterMap_located_eraseIdx
        (fun c n => [((⟨p.group, p.subGroup, n⟩ : Path), c)]) fun c n => ?_
      cases h : closeGap p.condition n <;> simp [Node.renumber, h]
    · simp [Node.renumber, other]

/-- A change in place changes the condition at its path. -/
theorem conditions_modifyCondition (p : Path) (change : Condition → Condition) :
    (f.modifyCondition p change).conditions =
      f.conditions.map fun v => if v.1 = p then (v.1, change v.2) else v := by
  rw [← List.filterMap_eq_map]
  refine f.conditions_modifySubGroup (fun sub => ?_) fun v other => ?_
  · rw [SubGroup.located_eq_flatMap, SubGroup.located_eq_flatMap]
    refine filterMap_located_modify
      (fun c n => [((⟨p.group, p.subGroup, n⟩ : Path), c)]) (fun c => ?_) fun c n other => ?_
    · simp
    · have apart : (⟨p.group, p.subGroup, n⟩ : Path) ≠ p :=
        fun h => other (congrArg Path.condition h)
      simp [apart]
  · have apart : v.1 ≠ p := fun h => other (h ▸ ⟨rfl, rfl⟩)
    simp [apart]

theorem conditions_modifyCondition_of_ne (p : Path) (change : Condition → Condition) :
    (f.modifyCondition p change).conditions.filter (·.1 ≠ p) = f.conditions.filter (·.1 ≠ p) := by
  rw [conditions_modifyCondition]
  induction f.conditions with
  | nil => rfl
  | cons v vs ih => by_cases same : v.1 = p <;> simp_all

end Filter

end Tree

section Removal

theorem modify_congr {α : Type} {l : List α} {i : Nat} {a : α} {change change' : α → α}
    (h : l[i]? = some a) (same : change a = change' a) :
    l.modify i change = l.modify i change' := by
  apply List.ext_getElem?
  intro n
  rw [List.getElem?_modify, List.getElem?_modify]
  by_cases here : i = n
  · subst here
    simp [h, same]
  · simp [here]

/-- An item whose list is empty without the item at `i` is that item. -/
theorem eq_of_isEmpty_eraseIdx {α : Type} {l : List α} {i j : Nat} {a : α} (h : l[j]? = some a)
    (empty : (l.eraseIdx i).isEmpty = true) : j = i := by
  obtain ⟨within, -⟩ := List.getElem?_eq_some_iff.mp h
  have length := congrArg List.length (List.isEmpty_iff.mp empty)
  rw [List.length_eraseIdx, List.length_nil] at length
  split_ifs at length <;> omega

namespace Filter

variable {f f' : Filter} {n : Node} {p : Path} {c : Condition}

theorem modifyGroup_congr {g : Nat} {group : Group} {change change' : Group → Group}
    (h : f.groups[g]? = some group) (same : change group = change' group) :
    f.modifyGroup g change = f.modifyGroup g change' := by
  rw [modifyGroup, modifyGroup, modify_congr h same]

theorem modifySubGroup_congr {g s : Nat} {sub : SubGroup} {change change' : SubGroup → SubGroup}
    (h : f.subGroup? g s = some sub) (same : change sub = change' sub) :
    f.modifySubGroup g s change = f.modifySubGroup g s change' := by
  obtain ⟨group, hg, hs⟩ := Option.bind_eq_some_iff.mp h
  exact modifyGroup_congr hg (congrArg Group.mk (modify_congr hs same))

theorem Node.renumber_eq_none_iff : n.renumber p = none ↔ n.Holds p := by
  cases n with
  | group g => simp [renumber, Holds, closeGap_eq_none_iff]
  | subGroup g s =>
    rw [renumber, Holds]
    split <;> simp [closeGap_eq_none_iff, *]
  | condition q =>
    obtain ⟨g, s, i⟩ := p
    obtain ⟨g', s', i'⟩ := q
    rw [renumber, Holds]
    split <;> simp_all [closeGap_eq_none_iff]

/-- The node above has the same conditions if it is taken out instead. -/
theorem holds_above (h : f.condition? p = some c) : (f.above n).Holds p ↔ n.Holds p := by
  obtain ⟨group, sub, hg, hs, hc⟩ := condition?_eq_some_iff.mp h
  cases n with
  | group g => rfl
  | subGroup g s =>
    rw [above]
    split
    · next empty =>
      refine ⟨fun same => ⟨same, ?_⟩, And.left⟩
      obtain rfl : p.group = g := same
      rw [hg] at empty
      exact eq_of_isEmpty_eraseIdx hs empty
    · rfl
  | condition q =>
    rw [above]
    split
    · next empty =>
      refine ⟨fun same => ?_, fun same => same ▸ ⟨rfl, rfl⟩⟩
      have parent : f.subGroup? q.group q.subGroup = some sub := by
        rw [← same.1, ← same.2]
        simp [subGroup?, hg, hs]
      rw [parent] at empty
      change (⟨p.group, p.subGroup, p.condition⟩ : Path) = q
      rw [same.1, same.2, eq_of_isEmpty_eraseIdx hc empty]
    · rfl

theorem holds_dropped (h : f.condition? p = some c) : (f.dropped n).Holds p ↔ n.Holds p :=
  (holds_above h).trans (holds_above h)

/-- A subgroup is removed in the same way whatever is in it. -/
theorem removeSubGroup_modifySubGroup (f : Filter) (g s : Nat) (change : SubGroup → SubGroup) :
    (f.modifySubGroup g s change).removeSubGroup g s = f.removeSubGroup g s := by
  simp only [removeSubGroup, modifySubGroup, modifyGroup, List.getElem?_modify]
  cases hg : f.groups[g]? with
  | none => rfl
  | some group => simp [List.modify_modify_eq, Function.comp_def, List.eraseIdx_modify_of_eq]

theorem eq_erase_of_removeSubGroup {g s : Nat} (h : f.removeSubGroup g s = .ok f') :
    f' = f.erase (f.above (.subGroup g s)) := by
  rw [removeSubGroup] at h
  cases hg : f.groups[g]? with
  | none => simp [hg] at h
  | some group =>
    simp only [hg] at h
    rw [above, hg, Option.all_some]
    split_ifs at h ⊢ with within empty
    · exact (Except.ok.inj h).symm
    · rw [← Except.ok.inj h]
      exact modifyGroup_congr hg rfl

theorem eq_erase_of_removeCondition (h : f.removeCondition p = .ok f') :
    f' = f.erase (f.dropped (.condition p)) := by
  rw [removeCondition] at h
  cases hs : f.subGroup? p.group p.subGroup with
  | none => simp [hs] at h
  | some sub =>
    have next : f.above (.condition p) =
        if (sub.conditions.eraseIdx p.condition).isEmpty then .subGroup p.group p.subGroup
        else .condition p := by
      rw [above, hs, Option.all_some]
    simp only [hs] at h
    by_cases within : p.condition < sub.conditions.length
    · rw [if_pos within] at h
      by_cases empty : (sub.conditions.eraseIdx p.condition).isEmpty = true
      · rw [if_pos empty, removeSubGroup_modifySubGroup] at h
        rw [dropped, next, if_pos empty]
        exact eq_erase_of_removeSubGroup h
      · rw [if_neg empty] at h next
        rw [dropped, next, next, ← Except.ok.inj h]
        exact modifySubGroup_congr hs rfl
    · rw [if_neg within] at h
      cases h

theorem above_above_subGroup (f : Filter) (g s : Nat) :
    f.above (f.above (.subGroup g s)) = f.above (.subGroup g s) := by
  rw [above]
  split_ifs with empty
  · rfl
  · rw [above, if_neg empty]

/-- A removal takes out one node and nothing else. -/
theorem eq_erase_of_apply {edit : Edit} (removes : edit.removes? = some n)
    (h : edit.apply f = .ok f') : f' = f.erase (f.dropped n) := by
  cases edit with
  | removeGroup g =>
    cases removes
    rw [Edit.apply, removeGroup] at h
    split_ifs at h
    exact (Except.ok.inj h).symm
  | removeSubGroup g s =>
    cases removes
    rw [dropped, above_above_subGroup]
    exact eq_erase_of_removeSubGroup h
  | removeCondition p =>
    cases removes
    exact eq_erase_of_removeCondition h
  | _ => cases removes

end Filter

end Removal
end RecordFilter
