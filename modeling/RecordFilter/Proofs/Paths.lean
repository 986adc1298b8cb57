import RecordFilter.Filter.Basic

/-!
# Paths and the order of conditions

Paths are ordered by group, then by subgroup, then by condition. `Filter.conditions` lists exactly
the conditions that `Filter.condition?` finds, and lists them in that order.
-/
namespace RecordFilter

/-- Paths in the order in which their conditions stand in a filter. -/
instance : LT Path where
  lt p q := p.group < q.group ∨ p.group = q.group ∧
    (p.subGroup < q.subGroup ∨ p.subGroup = q.subGroup ∧ p.condition < q.condition)

theorem Path.lt_iff {p q : Path} : p < q ↔ p.group < q.group ∨ p.group = q.group ∧
    (p.subGroup < q.subGroup ∨ p.subGroup = q.subGroup ∧ p.condition < q.condition) :=
  Iff.rfl

instance (p q : Path) : Decidable (p < q) := decidable_of_iff _ Path.lt_iff.symm

theorem Path.lt_asymm {p q : Path} (h : p < q) : ¬q < p := by
  rw [lt_iff] at h ⊢
  omega

/-- There is a complete condition at the path. -/
def Filter.CompleteAt (f : Filter) (p : Path) : Prop :=
  ∃ c, f.condition? p = some c ∧ c.isComplete = true

theorem pairwise_zipIdx_snd {α : Type} (l : List α) :
    l.zipIdx.Pairwise fun x y => x.2 < y.2 := by
  have h : (l.zipIdx.map Prod.snd).Pairwise (· < ·) := by
    rw [List.zipIdx_map_snd]
    exact List.pairwise_lt_range'
  exact List.pairwise_map.mp h

theorem SubGroup.mem_located {sub : SubGroup} {g s : Nat} {p : Path} {c : Condition} :
    (p, c) ∈ sub.located g s ↔
      p.group = g ∧ p.subGroup = s ∧ sub.conditions[p.condition]? = some c := by
  simp only [located, List.mem_map, Prod.exists, Prod.mk.injEq, List.mem_zipIdx_iff_getElem?]
  constructor
  · rintro ⟨c, i, h, rfl, rfl⟩
    exact ⟨rfl, rfl, h⟩
  · rintro ⟨rfl, rfl, h⟩
    exact ⟨c, p.condition, h, rfl, rfl⟩

theorem Group.mem_located {group : Group} {g : Nat} {p : Path} {c : Condition} :
    (p, c) ∈ group.located g ↔ p.group = g ∧
      ∃ sub, group.subGroups[p.subGroup]? = some sub ∧ sub.conditions[p.condition]? = some c := by
  simp only [located, List.mem_flatMap, Prod.exists, SubGroup.mem_located,
    List.mem_zipIdx_iff_getElem?]
  constructor
  · rintro ⟨sub, s, h, hg, rfl, hc⟩
    exact ⟨hg, sub, h, hc⟩
  · rintro ⟨hg, sub, h, hc⟩
    exact ⟨sub, p.subGroup, h, hg, rfl, hc⟩

theorem Filter.condition?_eq_some_iff {f : Filter} {p : Path} {c : Condition} :
    f.condition? p = some c ↔ ∃ group sub, f.groups[p.group]? = some group ∧
      group.subGroups[p.subGroup]? = some sub ∧ sub.conditions[p.condition]? = some c := by
  simp only [condition?, subGroup?, bind, Option.bind_eq_some_iff]
  constructor
  · rintro ⟨sub, ⟨group, hg, hs⟩, hc⟩
    exact ⟨group, sub, hg, hs, hc⟩
  · rintro ⟨group, sub, hg, hs, hc⟩
    exact ⟨sub, ⟨group, hg, hs⟩, hc⟩

/-- The listed conditions are those that are found at their paths. -/
theorem Filter.mem_conditions {f : Filter} {p : Path} {c : Condition} :
    (p, c) ∈ f.conditions ↔ f.condition? p = some c := by
  simp only [conditions, List.mem_flatMap, Prod.exists, Group.mem_located,
    List.mem_zipIdx_iff_getElem?, condition?_eq_some_iff]
  constructor
  · rintro ⟨group, g, h, rfl, sub, hs, hc⟩
    exact ⟨group, sub, h, hs, hc⟩
  · rintro ⟨group, sub, h, hs, hc⟩
    exact ⟨group, p.group, h, rfl, sub, hs, hc⟩

theorem SubGroup.pairwise_located (sub : SubGroup) (g s : Nat) :
    (sub.located g s).Pairwise fun x y => x.1 < y.1 := by
  rw [located, List.pairwise_map]
  refine (pairwise_zipIdx_snd sub.conditions).imp fun h => ?_
  exact .inr ⟨rfl, .inr ⟨rfl, h⟩⟩

theorem Group.pairwise_located (group : Group) (g : Nat) :
    (group.located g).Pairwise fun x y => x.1 < y.1 := by
  rw [located, List.pairwise_flatMap]
  refine ⟨fun x _ => x.1.pairwise_located g x.2, (pairwise_zipIdx_snd group.subGroups).imp ?_⟩
  rintro x y h ⟨p, c⟩ hp ⟨q, d⟩ hq
  rw [SubGroup.mem_located] at hp hq
  change p < q
  rw [Path.lt_iff]
  omega

/-- The conditions are listed in the order of their paths. -/
theorem Filter.pairwise_conditions (f : Filter) :
    f.conditions.Pairwise fun x y => x.1 < y.1 := by
  rw [conditions, List.pairwise_flatMap]
  refine ⟨fun x _ => x.1.pairwise_located x.2, (pairwise_zipIdx_snd f.groups).imp ?_⟩
  rintro x y h ⟨p, c⟩ hp ⟨q, d⟩ hq
  rw [Group.mem_located] at hp hq
  change p < q
  rw [Path.lt_iff]
  omega

end RecordFilter
