import RecordFilter.Filter.Meaning
import RecordFilter.Proofs.Paths
import RecordFilter.Proofs.Walk
import RecordFilter.Query.Meaning

/-!
# Compiling keeps the meaning

`Filter.holds_iff` says in terms of paths when a filter holds. `Filter.holds_compile` says that the
query of a filter holds exactly then, whichever conditions hold: a subgroup without a complete
condition is no choice, and a group without one asks for nothing.
-/
namespace RecordFilter

section Located

variable {rt : RecordType} {r : Resolver}

/-- Where no condition is wrong, the comparisons are at the paths of the complete conditions. -/
theorem map_path_comparisons {visited : List (Path × Condition)}
    (h : errorsOf rt r visited = []) :
    (comparisonsOf rt r visited).map (·.path) =
      (visited.filter fun (_, c) => c.isComplete).map Prod.fst := by
  have paths : List.Forall₂ (fun v m => v.1 = m.path) (visited.filter fun v => v.2.isComplete)
      (comparisonsOf rt r visited) :=
    (forall₂_comparisonsOf h).imp fun _ _ hm => (Condition.path_of_comparison? hm).symm
  have same : List.Forall₂ Eq ((visited.filter fun v => v.2.isComplete).map Prod.fst)
      ((comparisonsOf rt r visited).map (·.path)) := by
    rwa [List.forall₂_map_left_iff, List.forall₂_map_right_iff]
  exact (List.forall₂_eq_eq_eq ▸ same).symm

/-- The predicate of a subgroup asks for all of its complete conditions, if there are any. -/
theorem SubGroup.map_holds_predicate {sub : SubGroup} {g s : Nat} (truth : Path → Bool)
    (h : errorsOf rt r (sub.located g s) = []) :
    (sub.predicate rt r g s).map (Predicate.holds truth) =
      if (sub.complete g s).isEmpty then none else some ((sub.complete g s).all truth) := by
  rw [predicate, complete, ← map_path_comparisons h, comparisonsOf]
  generalize (sub.located g s).filterMap _ = comparisons
  have whole := Predicate.holds_conj truth (comparisons.map .compare)
  cases comparisons with
  | nil => rfl
  | cons c cs =>
    cases hp : Predicate.conj ((c :: cs).map .compare) with
    | none => cases cs <;> cases hp
    | some p =>
      rw [hp] at whole
      simpa [Predicate.holds, List.all_map, Function.comp_def] using whole

/-- The subgroups that become predicates are those with a complete condition. -/
theorem Group.map_holds_parts {g : Nat} (truth : Path → Bool) {l : List (SubGroup × Nat)}
    (h : ∀ x ∈ l, errorsOf rt r (x.1.located g x.2) = []) :
    (l.filterMap fun (sub, s) => sub.predicate rt r g s).map (Predicate.holds truth) =
      ((l.map fun (sub, s) => sub.complete g s).filter (!·.isEmpty)).map (·.all truth) := by
  induction l with
  | nil => rfl
  | cons x l ih =>
    have head := SubGroup.map_holds_predicate truth (h x List.mem_cons_self)
    have tail := ih fun y hy => h y (List.mem_cons_of_mem x hy)
    cases he : (x.1.complete g x.2).isEmpty with
    | true =>
      have none : x.1.predicate rt r g x.2 = none := by simpa [he] using head
      simp [none, he, tail]
    | false =>
      rw [he, if_neg Bool.false_ne_true, Option.map_eq_some_iff] at head
      obtain ⟨p, hp, holds⟩ := head
      simp [hp, he, holds, tail]

/-- The predicate of a group asks for one of its choices, if there are any. -/
theorem Group.holds_predicate {group : Group} {g : Nat} (truth : Path → Bool)
    (h : errorsOf rt r (group.located g) = []) :
    (group.predicate rt r g).all (Predicate.holds truth) = group.holds truth g := by
  have parts := map_holds_parts truth (errorsOf_flatMap_eq_nil.mp h)
  have empty := congrArg List.isEmpty parts
  have any := congrArg (List.any · id) parts
  rw [List.isEmpty_map, List.isEmpty_map] at empty
  simp only [List.any_map, Function.id_comp] at any
  rw [predicate, Predicate.holds_disj, empty, any]
  rfl

/-- The predicate of a filter asks for all of its groups. -/
theorem Filter.holds_predicate {f : Filter} (truth : Path → Bool)
    (h : errorsOf rt r f.conditions = []) :
    (f.predicate rt r).all (Predicate.holds truth) = f.holds truth := by
  have groups := errorsOf_flatMap_eq_nil.mp h
  rw [predicate, Predicate.holds_conj, List.all_filterMap, holds]
  rw [Bool.eq_iff_iff, List.all_eq_true, List.all_eq_true]
  refine forall₂_congr fun x hx => ?_
  have group := Group.holds_predicate truth (groups x hx)
  simp only [← group]
  cases x.1.predicate rt r x.2 <;> simp

end Located

theorem SubGroup.mem_complete {sub : SubGroup} {g s : Nat} {p : Path} :
    p ∈ sub.complete g s ↔ ∃ i, p = ⟨g, s, i⟩ ∧
      ∃ c, sub.conditions[i]? = some c ∧ c.isComplete = true := by
  rw [complete, List.mem_map]
  constructor
  · rintro ⟨⟨p, c⟩, hp, rfl⟩
    rw [List.mem_filter, mem_located] at hp
    obtain ⟨⟨rfl, rfl, hc⟩, complete⟩ := hp
    exact ⟨p.condition, rfl, c, hc, complete⟩
  · rintro ⟨i, rfl, c, hc, complete⟩
    refine ⟨(⟨g, s, i⟩, c), ?_, rfl⟩
    rw [List.mem_filter, mem_located]
    exact ⟨⟨rfl, rfl, hc⟩, complete⟩

theorem Group.mem_complete {group : Group} {g : Nat} {choice : List Path} :
    choice ∈ group.complete g ↔ choice ≠ [] ∧
      ∃ s sub, group.subGroups[s]? = some sub ∧ SubGroup.complete sub g s = choice := by
  simp only [complete, List.mem_filter, List.mem_map, Prod.exists, List.mem_zipIdx_iff_getElem?,
    Bool.not_eq_true', List.isEmpty_eq_false_iff]
  constructor
  · rintro ⟨⟨sub, s, hs, rfl⟩, some⟩
    exact ⟨some, s, sub, hs, rfl⟩
  · rintro ⟨some, s, sub, hs, rfl⟩
    exact ⟨⟨sub, s, hs, rfl⟩, some⟩

theorem Group.holds_iff {truth : Path → Bool} {group : Group} {g : Nat} :
    group.holds truth g = true ↔
      (group.complete g ≠ [] → ∃ choice ∈ group.complete g, ∀ p ∈ choice, truth p = true) := by
  simp only [holds, Bool.or_eq_true, List.isEmpty_iff, List.any_eq_true, List.all_eq_true]
  exact Decidable.or_iff_not_imp_left

theorem Filter.completeAt_iff {f : Filter} {g s i : Nat} :
    f.CompleteAt ⟨g, s, i⟩ ↔ ∃ group sub, f.groups[g]? = some group ∧
      group.subGroups[s]? = some sub ∧ ⟨g, s, i⟩ ∈ sub.complete g s := by
  simp only [CompleteAt, condition?_eq_some_iff, SubGroup.mem_complete]
  constructor
  · rintro ⟨c, ⟨group, sub, hg, hs, hc⟩, complete⟩
    exact ⟨group, sub, hg, hs, i, rfl, c, hc, complete⟩
  · rintro ⟨group, sub, hg, hs, j, hp, c, hc, complete⟩
    obtain rfl : i = j := congrArg Path.condition hp
    exact ⟨c, ⟨group, sub, hg, hs, hc⟩, complete⟩

/-- A filter holds if each group with a complete condition has a subgroup with a complete condition
whose complete conditions all hold. -/
theorem Filter.holds_iff {f : Filter} {truth : Path → Bool} :
    f.holds truth = true ↔ ∀ g, (∃ s i, f.CompleteAt ⟨g, s, i⟩) →
      ∃ s, (∃ i, f.CompleteAt ⟨g, s, i⟩) ∧
        ∀ i, f.CompleteAt ⟨g, s, i⟩ → truth ⟨g, s, i⟩ = true := by
  simp only [holds, List.all_eq_true, Prod.forall, List.mem_zipIdx_iff_getElem?, Group.holds_iff]
  constructor
  · rintro h g ⟨s, i, hi⟩
    obtain ⟨group, sub, hg, hs, hi⟩ := completeAt_iff.mp hi
    have some : group.complete g ≠ [] :=
      List.ne_nil_of_mem (Group.mem_complete.mpr ⟨List.ne_nil_of_mem hi, s, sub, hs, rfl⟩)
    obtain ⟨choice, hc, all⟩ := h group g hg some
    obtain ⟨some, s, sub, hs, rfl⟩ := Group.mem_complete.mp hc
    obtain ⟨p, hp⟩ := List.exists_mem_of_ne_nil _ some
    obtain ⟨i, rfl, -⟩ := SubGroup.mem_complete.mp hp
    refine ⟨s, ⟨i, completeAt_iff.mpr ⟨group, sub, hg, hs, hp⟩⟩, fun j hj => ?_⟩
    obtain ⟨group', sub', hg', hs', hj⟩ := completeAt_iff.mp hj
    obtain rfl : group = group' := Option.some.inj (hg.symm.trans hg')
    obtain rfl : sub = sub' := Option.some.inj (hs.symm.trans hs')
    exact all _ hj
  · intro h group g hg some
    obtain ⟨choice, hc⟩ := List.exists_mem_of_ne_nil _ some
    obtain ⟨some, s, sub, hs, rfl⟩ := Group.mem_complete.mp hc
    obtain ⟨p, hp⟩ := List.exists_mem_of_ne_nil _ some
    obtain ⟨i, rfl, -⟩ := SubGroup.mem_complete.mp hp
    obtain ⟨s, ⟨i, hi⟩, all⟩ := h g ⟨s, i, completeAt_iff.mpr ⟨group, sub, hg, hs, hp⟩⟩
    obtain ⟨group', sub, hg', hs, hi⟩ := completeAt_iff.mp hi
    obtain rfl : group = group' := Option.some.inj (hg.symm.trans hg')
    refine ⟨sub.complete g s,
      Group.mem_complete.mpr ⟨List.ne_nil_of_mem hi, s, sub, hs, rfl⟩, fun p hp => ?_⟩
    obtain ⟨j, rfl, -⟩ := SubGroup.mem_complete.mp hp
    exact all j (completeAt_iff.mpr ⟨group, sub, hg, hs, hp⟩)

/-- The query of a filter asks for the same as the filter. -/
theorem Filter.holds_compile {f : Filter} {r : Resolver} {q : Query} (h : f.compile r = .ok q)
    (truth : Path → Bool) :
    q.holds truth = f.holds truth ∧
      (q.holds truth = true ↔ ∀ g, (∃ s i, f.CompleteAt ⟨g, s, i⟩) →
        ∃ s, (∃ i, f.CompleteAt ⟨g, s, i⟩) ∧
          ∀ i, f.CompleteAt ⟨g, s, i⟩ → truth ⟨g, s, i⟩ = true) := by
  obtain ⟨rt, -, none, rfl⟩ := compile_eq_ok_iff.mp h
  have same := holds_predicate truth none
  exact ⟨same, by rw [← holds_iff, ← same]; rfl⟩

theorem Filter.holds_compile_patchy :
    (Query.mk .contact (some (.patchy 18 65 "%50\\%%"))).holds (·.subGroup == 2) =
      (Filter.patchy 18 65 "50%").holds (·.subGroup == 2) :=
  (holds_compile (r := .ageAndName) rfl _).1

end RecordFilter
