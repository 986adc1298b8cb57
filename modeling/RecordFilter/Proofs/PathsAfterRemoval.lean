import RecordFilter.Proofs.Addressing

/-!
# Paths after a removal

Where the conditions are after one of them, a subgroup or a group is removed. Only one index of a
path changes, and only by one: that of the condition, of its subgroup or of its group, as the
removal of a condition takes out that condition alone, its subgroup, or its group
(`Filter.pathWithout`). Everything else stays in its order (`Filter.conditions_of_removes`).
-/
namespace RecordFilter

theorem isEmpty_eraseIdx_iff {α : Type} {l : List α} {i : Nat} (h : i < l.length) :
    (l.eraseIdx i).isEmpty = true ↔ ¬1 < l.length := by
  rw [List.isEmpty_iff_length_eq_zero, List.length_eraseIdx_of_lt h]
  omega

/-- What stays when paths change is in the order of before. -/
theorem map_snd_relocate (move : Path → Option Path) (located : List (Path × Condition)) :
    (relocate move located).map Prod.snd =
      (located.filter fun v => (move v.1).isSome).map Prod.snd := by
  induction located with
  | nil => rfl
  | cons v vs ih =>
    rw [relocate] at ih ⊢
    cases h : move v.1 <;> simp [h, ih]

namespace Filter

def subGroupCount (f : Filter) (g : Nat) : Nat :=
  (f.groups[g]?).elim 0 fun group => group.subGroups.length

def conditionCountOf (f : Filter) (g s : Nat) : Nat :=
  (f.subGroup? g s).elim 0 fun sub => sub.conditions.length

/-- The path of the condition at `q` after the condition at `p` is removed. Behind `p` the last
index is lowered if `p` is not alone in its subgroup, else that of the subgroup if this is not alone
in its group, else that of the group. -/
def pathWithout (f : Filter) (p q : Path) : Path :=
  if 1 < f.conditionCountOf p.group p.subGroup then
    if q.group = p.group ∧ q.subGroup = p.subGroup ∧ p.condition < q.condition then
      { q with condition := q.condition - 1 }
    else q
  else if 1 < f.subGroupCount p.group then
    if q.group = p.group ∧ p.subGroup < q.subGroup then { q with subGroup := q.subGroup - 1 }
    else q
  else if p.group < q.group then { q with group := q.group - 1 }
  else q

variable {f f' : Filter} {n : Node} {p q : Path} {c d : Condition} {g s : Nat}

theorem subGroupCount_of_group {group : Group} (present : f.groups[g]? = some group) :
    f.subGroupCount g = group.subGroups.length := by
  simp [subGroupCount, present]

theorem conditionCountOf_of_subGroup {sub : SubGroup} (present : f.subGroup? g s = some sub) :
    f.conditionCountOf g s = sub.conditions.length := by
  simp [conditionCountOf, present]

/-- A subgroup is taken out alone if it is not the only one in its group. -/
theorem above_subGroup (has : f.Has (.subGroup g s)) : f.above (.subGroup g s) =
    if 1 < f.subGroupCount g then .subGroup g s else .group g := by
  obtain ⟨group, hg, within⟩ := has.exists_group
  rw [subGroupCount_of_group hg, above, hg, Option.all_some]
  simp only [isEmpty_eraseIdx_iff within, ite_not]

/-- A condition is taken out alone if it is not the only one in its subgroup. -/
theorem above_condition (found : f.condition? p = some c) : f.above (.condition p) =
    if 1 < f.conditionCountOf p.group p.subGroup then .condition p
    else .subGroup p.group p.subGroup := by
  obtain ⟨sub, hs, hc⟩ := Option.bind_eq_some_iff.mp found
  obtain ⟨within, -⟩ := List.getElem?_eq_some_iff.mp hc
  rw [conditionCountOf_of_subGroup hs, above, hs, Option.all_some]
  simp only [isEmpty_eraseIdx_iff within, ite_not]

theorem dropped_condition (found : f.condition? p = some c) : f.dropped (.condition p) =
    if 1 < f.conditionCountOf p.group p.subGroup then .condition p
    else if 1 < f.subGroupCount p.group then .subGroup p.group p.subGroup
    else .group p.group := by
  have has : f.Has (.condition p) := Option.isSome_iff_exists.mpr ⟨c, found⟩
  rw [dropped, above_condition found]
  by_cases others : 1 < f.conditionCountOf p.group p.subGroup
  · rw [if_pos others, if_pos others, above_condition found, if_pos others]
  · rw [if_neg others, if_neg others, above_subGroup has.subGroup]

theorem Node.renumber_group {g : Nat} (outside : ¬(group g).Holds q) : (group g).renumber q =
    some (if g < q.group then { q with group := q.group - 1 } else q) := by
  rw [renumber, closeGap_of_ne outside]
  split_ifs <;> rfl

theorem Node.renumber_subGroup {g s : Nat} (outside : ¬(subGroup g s).Holds q) :
    (subGroup g s).renumber q =
      some (if q.group = g ∧ s < q.subGroup then { q with subGroup := q.subGroup - 1 } else q) := by
  rw [renumber]
  by_cases within : q.group = g
  · rw [if_pos within, closeGap_of_ne fun same => outside ⟨within, same⟩]
    subst within
    simp only [true_and]
    split_ifs <;> rfl
  · rw [if_neg within, if_neg fun h => within h.1]

theorem Node.renumber_condition (outside : ¬(condition p).Holds q) : (condition p).renumber q =
    some (if q.group = p.group ∧ q.subGroup = p.subGroup ∧ p.condition < q.condition then
      { q with condition := q.condition - 1 } else q) := by
  obtain ⟨g, s, i⟩ := q
  rw [renumber]
  by_cases within : g = p.group ∧ s = p.subGroup
  · obtain ⟨rfl, rfl⟩ := within
    have apart : i ≠ p.condition := fun same => outside (same ▸ rfl)
    rw [if_pos ⟨rfl, rfl⟩, closeGap_of_ne apart]
    simp only [true_and]
    split_ifs <;> rfl
  · rw [if_neg within, if_neg fun h => within ⟨h.1, h.2.1⟩]

/-- The path of a condition that stays. -/
theorem renumber_dropped (found : f.condition? p = some c) (other : f.condition? q = some d)
    (apart : q ≠ p) : (f.dropped (.condition p)).renumber q = some (f.pathWithout p q) := by
  have outside : ¬(f.dropped (.condition p)).Holds q := fun h => apart ((holds_dropped other).mp h)
  -- The counts that tell which node is dropped are those of the formula, so both split alike.
  rw [dropped_condition found] at outside ⊢
  rw [pathWithout]
  by_cases others : 1 < f.conditionCountOf p.group p.subGroup
  · rw [if_pos others] at outside ⊢
    rw [if_pos others]
    exact Node.renumber_condition outside
  · rw [if_neg others] at outside ⊢
    rw [if_neg others]
    by_cases subs : 1 < f.subGroupCount p.group
    · rw [if_pos subs] at outside ⊢
      rw [if_pos subs]
      exact Node.renumber_subGroup outside
    · rw [if_neg subs] at outside ⊢
      rw [if_neg subs]
      exact Node.renumber_group outside

/-- The conditions outside the node stay, in the order of before. -/
theorem map_snd_conditions_erase (f : Filter) (n : Node) :
    (f.erase (f.dropped n)).conditions.map Prod.snd =
      (f.conditions.filter fun v => ¬n.Holds v.1).map Prod.snd := by
  rw [conditions_erase, map_snd_relocate]
  refine congrArg (List.map Prod.snd) (List.filter_congr fun v member => ?_)
  have goes : (f.dropped n).renumber v.1 = none ↔ n.Holds v.1 :=
    Node.renumber_eq_none_iff.trans (holds_dropped (mem_conditions.mp member))
  cases h : (f.dropped n).renumber v.1 <;> simp_all

theorem condition?_erase : (f.erase n).condition? p = some c ↔
    ∃ q, f.condition? q = some c ∧ n.renumber q = some p := by
  simp only [← mem_conditions, conditions_erase, relocate, List.mem_filterMap,
    Option.map_eq_some_iff, Prod.mk.injEq]
  constructor
  · rintro ⟨⟨q, c⟩, member, p, moved, rfl, rfl⟩
    exact ⟨q, member, moved⟩
  · rintro ⟨q, member, moved⟩
    exact ⟨(q, c), member, p, moved, rfl, rfl⟩

/-- The conditions after one of them is removed are the others, at their paths without it. -/
theorem condition?_erase_dropped (found : f.condition? p = some c) :
    (f.erase (f.dropped (.condition p))).condition? q = some d ↔
      ∃ r, r ≠ p ∧ f.condition? r = some d ∧ q = f.pathWithout p r := by
  rw [condition?_erase]
  constructor
  · rintro ⟨r, other, moved⟩
    have apart : r ≠ p := by
      rintro rfl
      have gone := Node.renumber_eq_none_iff.mpr
        ((holds_dropped (n := .condition r) other).mpr rfl)
      cases gone.symm.trans moved
    rw [renumber_dropped found other apart] at moved
    exact ⟨r, apart, other, (Option.some.inj moved).symm⟩
  · rintro ⟨r, apart, other, rfl⟩
    exact ⟨r, other, renumber_dropped found other apart⟩

theorem addresses_of_removes {edit : Edit} (removes : edit.removes? = some n) :
    edit.addresses? = some n := by
  cases edit <;> cases removes <;> rfl

/-- The removal of a node that the filter has takes its conditions out of the list of conditions and
keeps the rest in order. After the removal of a condition every other one is found unchanged at its
path without it, and nothing else is found. -/
theorem conditions_of_removes {edit : Edit} (removes : edit.removes? = some n) (has : f.Has n) :
    ∃ f', edit.apply f = .ok f' ∧
      f'.conditions.map Prod.snd = (f.conditions.filter fun v => ¬n.Holds v.1).map Prod.snd ∧
      ∀ p, n = .condition p →
        (∀ q, q ≠ p → (f.condition? q).isSome →
          f'.condition? (f.pathWithout p q) = f.condition? q) ∧
        ∀ r c, f'.condition? r = some c →
          ∃ q, q ≠ p ∧ f.condition? q = some c ∧ r = f.pathWithout p q := by
  obtain ⟨f', applied⟩ := exists_apply_of_has (addresses_of_removes removes) has
  obtain rfl := eq_erase_of_apply removes applied
  refine ⟨_, applied, map_snd_conditions_erase f n, ?_⟩
  rintro p rfl
  obtain ⟨c, found⟩ := Option.isSome_iff_exists.mp has
  refine ⟨fun q apart stands => ?_, fun r d => (condition?_erase_dropped found).mp⟩
  obtain ⟨d, other⟩ := Option.isSome_iff_exists.mp stands
  rw [other]
  exact (condition?_erase_dropped found).mpr ⟨q, apart, other, rfl⟩

/-- The only condition of a subgroup is removed, with the subgroup; the group keeps an empty one and
another one. -/
theorem conditions_of_removes_hollow :
    let f : Filter := ⟨some .task, [⟨[]⟩, ⟨[⟨[.blank]⟩, ⟨[]⟩, ⟨[⟨"due", "before", .null⟩]⟩]⟩,
      ⟨[⟨[⟨"title", "in", .null⟩]⟩]⟩]⟩
    ∃ f', (Edit.removeCondition ⟨1, 0, 0⟩).apply f = .ok f' ∧
      f'.conditions.map Prod.snd = [⟨"due", "before", .null⟩, ⟨"title", "in", .null⟩] ∧
      f'.condition? ⟨1, 1, 0⟩ = some ⟨"due", "before", .null⟩ ∧
      f'.condition? ⟨2, 0, 0⟩ = some ⟨"title", "in", .null⟩ := by
  intro f
  have removes : (Edit.removeCondition ⟨1, 0, 0⟩).removes? = some (.condition ⟨1, 0, 0⟩) := rfl
  have has : f.Has (.condition ⟨1, 0, 0⟩) := rfl
  obtain ⟨f', applied, left, moved⟩ := conditions_of_removes removes has
  obtain ⟨found, -⟩ := moved _ rfl
  exact ⟨f', applied, left, found ⟨1, 2, 0⟩ (by decide) rfl, found ⟨2, 0, 0⟩ (by decide) rfl⟩

end Filter
end RecordFilter
