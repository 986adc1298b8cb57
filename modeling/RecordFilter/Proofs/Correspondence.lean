import RecordFilter.Proofs.Typing

/-!
# Conditions and comparisons

A compiled filter has one comparison for each complete condition, in the order of the conditions.
`Filter.comparisons_compile` says where the parts of a comparison come from, and what the predicate
around the comparisons looks like: no node of it has fewer than two parts, and nodes are nested at
most three deep.
-/
namespace RecordFilter

/-- The comparison is that of the condition at the path: its column comes from the metadata of the
property, its operator from the list of the property type. -/
structure Comparison.StandsFor (rt : RecordType) (r : Resolver) (p : Path) (c : Condition)
    (m : Comparison) : Prop where
  path : m.path = p
  table : m.table = rt
  source : ∃ resolved op, c.Resolves rt r resolved ∧ m.column = resolved.column ∧
    c.Names resolved.type op ∧ m.op = op.sql

namespace Predicate

/-- Each node joins at least two parts. -/
inductive Branches : Predicate → Prop
  | compare (c : Comparison) : Branches (.compare c)
  | all {ps : List Predicate} (two : 2 ≤ ps.length) (parts : ∀ p ∈ ps, Branches p) :
      Branches (.all ps)
  | any {ps : List Predicate} (two : 2 ≤ ps.length) (parts : ∀ p ∈ ps, Branches p) :
      Branches (.any ps)

mutual

/-- The number of nodes around the innermost comparison. -/
def depth : Predicate → Nat
  | compare _ => 0
  | all ps | any ps => depthOf ps + 1

def depthOf : List Predicate → Nat
  | [] => 0
  | p :: ps => max (depth p) (depthOf ps)

end

theorem depthOf_le_iff {n : Nat} {ps : List Predicate} :
    depthOf ps ≤ n ↔ ∀ p ∈ ps, p.depth ≤ n := by
  induction ps with
  | nil => simp [depthOf]
  | cons p ps ih => rw [depthOf, Nat.max_le, ih, List.forall_mem_cons]

/-- A predicate of which each node joins at least two parts has a comparison. -/
theorem Branches.comparisons_ne_nil {p : Predicate} (h : p.Branches) : p.comparisons ≠ [] := by
  induction h with
  | compare c => simp [comparisons]
  | @all ps two _ ih | @any ps two _ ih =>
    obtain ⟨p, hp⟩ := List.exists_mem_of_length_pos (Nat.lt_of_lt_of_le Nat.zero_lt_two two)
    rw [comparisons, comparisonsOf_eq_flatMap]
    intro none
    exact ih p hp (List.flatMap_eq_nil_iff.mp none p hp)

section Fold

variable {combine : List Predicate → Predicate} {ps : List Predicate}

/-- Folding keeps the comparisons. -/
theorem comparisons_fold (kept : ∀ ps, (combine ps).comparisons = comparisonsOf ps) :
    (fold combine ps).toList.flatMap comparisons = ps.flatMap comparisons := by
  match ps with
  | [] => rfl
  | [p] => simp [fold]
  | p :: q :: ps => simp [fold, kept, comparisonsOf_eq_flatMap]

/-- Folding adds at most one level of nodes, and only nodes with at least two parts. -/
theorem branches_fold {n : Nat}
    (combined : ∀ ps, 2 ≤ ps.length → (∀ p ∈ ps, Branches p) → Branches (combine ps))
    (deeper : ∀ ps, (combine ps).depth = depthOf ps + 1)
    (h : ∀ p ∈ ps, p.Branches ∧ p.depth ≤ n) :
    ∀ p ∈ fold combine ps, p.Branches ∧ p.depth ≤ n + 1 := by
  refine forall_mem_fold (fun p hp => ⟨(h p hp).1, Nat.le_succ_of_le (h p hp).2⟩) fun two => ?_
  have depth : depthOf ps ≤ n := depthOf_le_iff.mpr fun p hp => (h p hp).2
  exact ⟨combined ps two fun p hp => (h p hp).1, deeper ps ▸ Nat.succ_le_succ depth⟩

end Fold

end Predicate

section Compiled

variable {rt : RecordType} {r : Resolver}

/-- The comparisons of a level of the tree are those of its members one after another. -/
theorem flatMap_comparisons_filterMap {α : Type} {part : α → Option Predicate}
    {located : α → List (Path × Condition)} {l : List α}
    (h : ∀ x ∈ l, (part x).toList.flatMap Predicate.comparisons =
      comparisonsOf rt r (located x)) :
    (l.filterMap part).flatMap Predicate.comparisons = comparisonsOf rt r (l.flatMap located) := by
  induction l with
  | nil => rfl
  | cons x l ih =>
    have head := h x List.mem_cons_self
    have tail := ih fun y hy => h y (List.mem_cons_of_mem x hy)
    rw [List.flatMap_cons, comparisonsOf_append, ← head, ← tail]
    cases hx : part x <;> simp [hx]

theorem SubGroup.comparisons_predicate (sub : SubGroup) (g s : Nat) :
    (sub.predicate rt r g s).toList.flatMap Predicate.comparisons =
      comparisonsOf rt r (sub.located g s) := by
  rw [predicate, Predicate.conj, Predicate.comparisons_fold fun _ => rfl, List.flatMap_map]
  simp [Predicate.comparisons, comparisonsOf]

theorem Group.comparisons_predicate (group : Group) (g : Nat) :
    (group.predicate rt r g).toList.flatMap Predicate.comparisons =
      comparisonsOf rt r (group.located g) := by
  rw [predicate, Predicate.disj, Predicate.comparisons_fold fun _ => rfl]
  exact flatMap_comparisons_filterMap fun x _ => SubGroup.comparisons_predicate x.1 g x.2

/-- The comparisons of a predicate are those of the conditions in order. -/
theorem Filter.comparisons_predicate (f : Filter) :
    (f.predicate rt r).toList.flatMap Predicate.comparisons = comparisonsOf rt r f.conditions := by
  rw [predicate, Predicate.conj, Predicate.comparisons_fold fun _ => rfl]
  exact flatMap_comparisons_filterMap fun x _ => Group.comparisons_predicate x.1 x.2

theorem SubGroup.branches_predicate {sub : SubGroup} {g s : Nat} :
    ∀ p ∈ sub.predicate rt r g s, p.Branches ∧ p.depth ≤ 1 := by
  refine Predicate.branches_fold (fun _ => .all) (fun _ => rfl) fun p hp => ?_
  obtain ⟨m, -, rfl⟩ := List.mem_map.mp hp
  exact ⟨.compare m, Nat.le_refl 0⟩

theorem Group.branches_predicate {group : Group} {g : Nat} :
    ∀ p ∈ group.predicate rt r g, p.Branches ∧ p.depth ≤ 2 := by
  refine Predicate.branches_fold (fun _ => .any) (fun _ => rfl) fun p hp => ?_
  obtain ⟨⟨sub, s⟩, -, hp⟩ := List.mem_filterMap.mp hp
  exact SubGroup.branches_predicate p hp

/-- Nodes are nested at most three deep: groups, subgroups and conditions. -/
theorem Filter.branches_predicate {f : Filter} :
    ∀ p ∈ f.predicate rt r, p.Branches ∧ p.depth ≤ 3 := by
  refine Predicate.branches_fold (fun _ => .all) (fun _ => rfl) fun p hp => ?_
  obtain ⟨⟨group, g⟩, -, hp⟩ := List.mem_filterMap.mp hp
  exact Group.branches_predicate p hp

theorem Condition.standsFor_of_comparison? {p : Path} {c : Condition} {m : Comparison}
    (h : c.comparison? rt r p = some m) : m.StandsFor rt r p c := by
  obtain ⟨-, resolved, op, params, known, named, -, rfl⟩ := comparison?_eq_some_iff.mp h
  rw [safe?_eq_some_iff] at known
  rw [find?_eq_some_iff] at named
  exact ⟨rfl, rfl, resolved, op, known, rfl, named, rfl⟩

/-- The comparisons of a query that was compiled are those of the conditions. -/
theorem Filter.comparisons_query (f : Filter) :
    (Query.mk rt (f.predicate rt r)).comparisons = comparisonsOf rt r f.conditions := by
  rw [← comparisons_predicate, Query.comparisons]
  cases f.predicate rt r <;> simp

theorem Filter.isBlank_iff {f : Filter} :
    f.isBlank = true ↔ f.conditions.filter (fun v => v.2.isComplete) = [] := by
  simp [isBlank, List.filter_eq_nil_iff]

/-- Where no condition is wrong, there is no predicate exactly if no condition is complete. -/
theorem Filter.predicate_eq_none_iff {f : Filter} (h : errorsOf rt r f.conditions = []) :
    f.predicate rt r = none ↔ f.isBlank = true := by
  have each := forall₂_comparisonsOf h
  rw [isBlank_iff]
  constructor
  · intro absent
    have empty : comparisonsOf rt r f.conditions = [] := by
      rw [← comparisons_predicate, absent]
      rfl
    rw [empty] at each
    exact List.forall₂_nil_right_iff.mp each
  · intro blank
    rw [blank, List.forall₂_nil_left_iff, ← comparisons_predicate] at each
    cases hp : f.predicate rt r with
    | none => rfl
    | some p =>
      -- A predicate would have a comparison, since no node of it is empty.
      have empty : p.comparisons = [] := by simpa [hp] using each
      exact absurd empty (branches_predicate p hp).1.comparisons_ne_nil

end Compiled

/-- The comparisons of a query that was compiled are those of the conditions at their paths. -/
theorem Filter.mem_comparisons_iff {f : Filter} {r : Resolver} {q : Query} {m : Comparison}
    (compiled : f.compile r = .ok q) :
    m ∈ q.comparisons ↔
      ∃ c, f.condition? m.path = some c ∧ c.comparison? q.recordType r m.path = some m := by
  obtain ⟨rt, -, -, rfl⟩ := compile_eq_ok_iff.mp compiled
  simp only [comparisons_query, comparisonsOf, List.mem_filterMap, Prod.exists, mem_conditions]
  constructor
  · rintro ⟨path, c, found, becomes⟩
    obtain rfl := Condition.path_of_comparison? becomes
    exact ⟨c, found, becomes⟩
  · rintro ⟨c, found, becomes⟩
    exact ⟨m.path, c, found, becomes⟩

/-- The comparisons of a compiled filter stand for its complete conditions, each for one and in
their order. Each node of the predicate joins at least two parts, nodes are nested at most three
deep, and there is no predicate exactly if no condition is complete. -/
theorem Filter.comparisons_compile {f : Filter} {r : Resolver} {q : Query}
    (h : f.compile r = .ok q) :
    ∃ rt, f.recordType = some rt ∧ q.recordType = rt ∧
      List.Forall₂ (fun v m => m.StandsFor rt r v.1 v.2)
        (f.conditions.filter fun v => v.2.isComplete) q.comparisons ∧
      q.comparisons.Pairwise (fun m m' => m.path < m'.path) ∧
      (∀ p, q.predicate = some p → p.Branches ∧ p.depth ≤ 3) ∧
      (q.predicate = none ↔ f.isBlank = true) := by
  obtain ⟨rt, hrt, errors, rfl⟩ := compile_eq_ok_iff.mp h
  have each := forall₂_comparisonsOf errors
  rw [comparisons_query]
  refine ⟨rt, hrt, rfl, each.imp fun v m => Condition.standsFor_of_comparison?, ?_,
    branches_predicate, predicate_eq_none_iff errors⟩
  refine f.pairwise_conditions.filterMap _ ?_
  rintro ⟨p, c⟩ ⟨p', c'⟩ lt m hm m' hm'
  rw [Condition.path_of_comparison? hm, Condition.path_of_comparison? hm']
  exact lt

theorem Filter.comparisons_compile_patchy :
    (Filter.patchy 18 65 "50%").compile .ageAndName =
        .ok ⟨.contact, some (.patchy 18 65 "%50\\%%")⟩ ∧
      ∃ rt, (Filter.patchy 18 65 "50%").recordType = some rt ∧
        List.Forall₂ (fun v m => m.StandsFor rt .ageAndName v.1 v.2)
          ((Filter.patchy 18 65 "50%").conditions.filter fun v => v.2.isComplete)
          (Predicate.patchy 18 65 "%50\\%%").comparisons := by
  have compiled : (Filter.patchy 18 65 "50%").compile .ageAndName =
    .ok ⟨.contact, some (.patchy 18 65 "%50\\%%")⟩ := rfl
  obtain ⟨rt, hrt, -, each, -⟩ := comparisons_compile compiled
  exact ⟨compiled, rt, hrt, each⟩

end RecordFilter
