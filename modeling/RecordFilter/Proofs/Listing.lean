import Mathlib.Data.Set.Card
import RecordFilter.Proofs.Paths

/-!
# Listing and looking up

`Filter.conditions` goes through the tree from left to right, `Filter.condition?` goes down to one
place in it. What the first lists with a path is what the second finds there, at every path and
whatever the shape of the tree. So the number of conditions is that of the paths at which one is
found, and a filter is blank if none of those found is complete.
-/
namespace RecordFilter

theorem Path.ne_of_lt {p q : Path} (h : p < q) : p ≠ q := by
  rintro rfl
  exact Path.lt_asymm h h

theorem Condition.isComplete_iff {c : Condition} :
    c.isComplete = true ↔ Text.trim c.property ≠ "" ∧ Text.trim c.operator ≠ "" := by
  simp [isComplete]

namespace Filter

variable {f : Filter} {p : Path}

/-- No path is listed twice. -/
theorem nodup_paths (f : Filter) : (f.conditions.map Prod.fst).Nodup := by
  rw [List.nodup_iff_pairwise_ne, List.pairwise_map]
  exact f.pairwise_conditions.imp Path.ne_of_lt

theorem mem_paths : p ∈ f.conditions.map Prod.fst ↔ (f.condition? p).isSome := by
  rw [List.mem_map, Option.isSome_iff_exists]
  constructor
  · rintro ⟨⟨q, c⟩, listed, rfl⟩
    exact ⟨c, mem_conditions.mp listed⟩
  · rintro ⟨c, found⟩
    exact ⟨(p, c), mem_conditions.mpr found, rfl⟩

/-- As many conditions are listed as there are paths at which one is found. -/
theorem encard_paths (f : Filter) :
    {p | (f.condition? p).isSome}.encard = f.conditionCount := by
  have paths : {p | (f.condition? p).isSome} =
      ((f.conditions.map Prod.fst).toFinset : Set Path) := by
    ext p
    simp only [Set.mem_ofPred_eq, List.coe_toFinset, mem_paths]
  rw [paths, Set.encard_coe_eq_coe_finsetCard, List.toFinset_card_of_nodup f.nodup_paths,
    List.length_map, conditionCount]

theorem isBlank_iff_not_completeAt : f.isBlank = true ↔ ¬∃ p, f.CompleteAt p := by
  have listed : (∃ p, f.CompleteAt p) ↔ ∃ v ∈ f.conditions, v.2.isComplete = true := by
    simp only [CompleteAt, Prod.exists, mem_conditions]
  rw [listed]
  simp [isBlank]

/-- The conditions are listed by strictly increasing paths. Exactly those are listed that are found
at their paths, whatever the path. Their number is that of the paths at which a condition is found,
and the filter is blank if at none of these there is one with a property and an operator. -/
theorem listed_iff_found (f : Filter) :
    f.conditions.Pairwise (fun v w => v.1 < w.1) ∧
    (∀ p c, (p, c) ∈ f.conditions ↔ f.condition? p = some c) ∧
    {p | (f.condition? p).isSome}.encard = f.conditionCount ∧
    (f.isBlank = true ↔ ¬∃ p c, f.condition? p = some c ∧
      Text.trim c.property ≠ "" ∧ Text.trim c.operator ≠ "") := by
  refine ⟨f.pairwise_conditions, fun p c => mem_conditions, f.encard_paths, ?_⟩
  rw [isBlank_iff_not_completeAt]
  simp only [CompleteAt, Condition.isComplete_iff]

-- An empty group, an empty subgroup, and a condition behind each of them.
example :
    let f : Filter := ⟨none, [⟨[]⟩, ⟨[⟨[]⟩, ⟨[.blank]⟩]⟩]⟩
    f.conditions.map Prod.fst = [⟨1, 1, 0⟩] ∧ f.condition? ⟨0, 0, 0⟩ = none ∧
      (f.condition? ⟨1, 1, 0⟩).isSome := by decide

end Filter
end RecordFilter
