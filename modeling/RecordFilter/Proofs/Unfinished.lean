import RecordFilter.Proofs.Correspondence
import RecordFilter.Proofs.Diagnosis
import RecordFilter.Proofs.Independence
import RecordFilter.Proofs.Renumbering

/-!
# Unfinished parts

Compiling takes nothing from a filter but its finished part: the complete conditions with their
paths, by subgroups and groups, and no subgroup or group without any. An addition does not change
the finished part. Pruning takes out everything else and changes the finished part in its paths
alone, of which nothing is written.
-/
namespace RecordFilter

section Level

variable {α β γ : Type} {part : α → Nat → List β} {l : List α}

/-- The parts of the members of a list at their indexes, empty parts left out. -/
def partsOf (part : α → Nat → List β) (l : List α) : List (List β) :=
  (l.zipIdx.map fun x => part x.1 x.2).filter (!·.isEmpty)

theorem flatten_partsOf : (partsOf part l).flatten = l.zipIdx.flatMap fun x => part x.1 x.2 := by
  rw [partsOf, List.flatten_filter_not_isEmpty, List.flatMap_def]

theorem filterMap_partsOf {F : List β → Option γ} (empty : F [] = none) :
    (partsOf part l).filterMap F = l.zipIdx.filterMap fun x => F (part x.1 x.2) := by
  rw [partsOf, List.filterMap_filter, List.filterMap_map]
  refine List.filterMap_congr fun x _ => ?_
  cases h : part x.1 x.2 <;> simp [h, empty]

/-- A member without a part adds nothing. -/
theorem partsOf_concat {a : α} (empty : ∀ n, part a n = []) :
    partsOf part (l ++ [a]) = partsOf part l := by
  simp [partsOf, List.zipIdx_append, empty]

/-- A change that keeps the part of a member keeps all parts. -/
theorem partsOf_modify {i : Nat} {change : α → α} (same : ∀ x, part (change x) i = part x i) :
    partsOf part (l.modify i change) = partsOf part l := by
  rw [partsOf, partsOf, zipIdx_modify, List.map_map]
  congr 1
  refine List.map_congr_left fun x _ => ?_
  by_cases here : x.2 = i
  · simp [here, same]
  · simp [here]

/-- Where parts do not depend on the index but for a view, no index is needed for the view. -/
theorem map_partsOf {view : β → γ} {plain : α → List γ}
    (h : ∀ x n, (part x n).map view = plain x) :
    (partsOf part l).map (List.map view) = (l.map plain).filter (!·.isEmpty) := by
  have whole : (l.zipIdx.map fun x => part x.1 x.2).map (List.map view) = l.map plain := by
    conv_rhs => rw [← List.zipIdx_map_fst 0 l]
    rw [List.map_map, List.map_map]
    exact List.map_congr_left fun x _ => h x.1 x.2
  rw [← whole, List.filter_map, partsOf]
  simp [Function.comp_def]

end Level

/-- The complete conditions of subgroup `s` of group `g` with their paths. -/
def SubGroup.finished (sub : SubGroup) (g s : Nat) : List (Path × Condition) :=
  (sub.located g s).filter fun v => v.2.isComplete

/-- The complete conditions of group `g` with their paths, subgroup by subgroup. -/
def Group.finished (group : Group) (g : Nat) : List (List (Path × Condition)) :=
  partsOf (SubGroup.finished · g) group.subGroups

/-- The complete conditions with their paths, by groups and subgroups. -/
def Filter.finished (f : Filter) : List (List (List (Path × Condition))) :=
  partsOf Group.finished f.groups

theorem Group.flatten_finished (group : Group) (g : Nat) :
    (group.finished g).flatten = (group.located g).filter fun v => v.2.isComplete := by
  rw [finished, flatten_partsOf, located, List.filter_flatMap]
  rfl

/-- The finished part has the complete conditions in order. -/
theorem Filter.flatten_finished (f : Filter) :
    f.finished.flatten.flatten = f.conditions.filter fun v => v.2.isComplete := by
  rw [finished, flatten_partsOf, conditions, List.filter_flatMap, List.flatMap_def,
    List.flatten_flatten, List.map_map, ← List.flatMap_def]
  exact List.flatMap_congr fun x _ => x.1.flatten_finished x.2

/-- What only complete conditions can give is given by the complete ones. -/
theorem filterMap_filter_isComplete {β : Type} {F : Path × Condition → Option β}
    (h : ∀ v, v.2.isComplete = false → F v = none) (visited : List (Path × Condition)) :
    (visited.filter fun v => v.2.isComplete).filterMap F = visited.filterMap F := by
  rw [List.filterMap_filter]
  refine List.filterMap_congr fun v _ => ?_
  cases complete : v.2.isComplete with
  | false => exact (h v complete).symm
  | true => rfl

section Compiled

variable (rt : RecordType) (r : Resolver)

theorem errorsOf_filter_isComplete (visited : List (Path × Condition)) :
    errorsOf rt r (visited.filter fun v => v.2.isComplete) = errorsOf rt r visited :=
  filterMap_filter_isComplete (fun _ => Condition.error?_of_not_isComplete) visited

theorem comparisonsOf_filter_isComplete (visited : List (Path × Condition)) :
    comparisonsOf rt r (visited.filter fun v => v.2.isComplete) = comparisonsOf rt r visited := by
  refine filterMap_filter_isComplete (fun v incomplete => ?_) visited
  simp [Condition.comparison?, Condition.compile_of_not_isComplete incomplete]

/-- The predicate of the finished part of a subgroup. -/
def Predicate.ofConditions (visited : List (Path × Condition)) : Option Predicate :=
  conj ((RecordFilter.comparisonsOf rt r visited).map .compare)

/-- The predicate of the finished part of a group. -/
def Predicate.ofSubGroups (subs : List (List (Path × Condition))) : Option Predicate :=
  disj (subs.filterMap (ofConditions rt r))

/-- The predicate of the finished part of a filter. -/
def Predicate.ofGroups (groups : List (List (List (Path × Condition)))) : Option Predicate :=
  conj (groups.filterMap (ofSubGroups rt r))

variable {rt r} {f f' : Filter}

theorem SubGroup.predicate_eq (sub : SubGroup) (g s : Nat) :
    sub.predicate rt r g s = Predicate.ofConditions rt r (sub.finished g s) := by
  rw [Predicate.ofConditions, finished, comparisonsOf_filter_isComplete]
  rfl

theorem Group.predicate_eq (group : Group) (g : Nat) :
    group.predicate rt r g = Predicate.ofSubGroups rt r (group.finished g) := by
  rw [Predicate.ofSubGroups, finished, filterMap_partsOf rfl, predicate]
  simp only [SubGroup.predicate_eq]

/-- The predicate of a filter is that of its finished part. -/
theorem Filter.predicate_eq (f : Filter) :
    f.predicate rt r = Predicate.ofGroups rt r f.finished := by
  rw [Predicate.ofGroups, finished, filterMap_partsOf rfl, predicate]
  simp only [Group.predicate_eq]

theorem Filter.errorsOf_conditions (f : Filter) :
    errorsOf rt r f.conditions = errorsOf rt r f.finished.flatten.flatten := by
  rw [flatten_finished, errorsOf_filter_isComplete]

/-- Filters with the same finished part compile to the same. -/
theorem Filter.compile_congr (recordType : f'.recordType = f.recordType)
    (finished : f'.finished = f.finished) :
    f'.compile r = f.compile r ∧ f'.diagnose r = f.diagnose r := by
  cases h : f.recordType with
  | none =>
    have h' := recordType.trans h
    rw [compile_of_none h, compile_of_none h', diagnose_of_none h, diagnose_of_none h']
    exact ⟨rfl, rfl⟩
  | some rt =>
    have h' := recordType.trans h
    have errors : errorsOf rt r f'.conditions = errorsOf rt r f.conditions := by
      rw [errorsOf_conditions, errorsOf_conditions, finished]
    have predicate : f'.predicate rt r = f.predicate rt r := by
      rw [predicate_eq, predicate_eq, finished]
    refine ⟨?_, by rw [diagnose_eq h, diagnose_eq h', errors]⟩
    cases first : (errorsOf rt r f.conditions).head? with
    | some e =>
      rw [compile_of_head?_errorsOf h first, compile_of_head?_errorsOf h' (errors ▸ first)]
    | none =>
      have none := List.head?_eq_none_iff.mp first
      rw [compile_of_errorsOf_eq_nil h none, compile_of_errorsOf_eq_nil h' (errors.trans none),
        predicate]

end Compiled

theorem SubGroup.finished_concat_blank (conditions : List Condition) (g s : Nat) :
    SubGroup.finished ⟨conditions ++ [.blank]⟩ g s = SubGroup.finished ⟨conditions⟩ g s := by
  have blank : Condition.blank.isComplete = false := rfl
  simp [finished, located, List.zipIdx_append, blank]

theorem SubGroup.finished_initial (g s : Nat) : SubGroup.initial.finished g s = [] :=
  finished_concat_blank [] g s

theorem Group.finished_initial (g : Nat) : Group.initial.finished g = [] :=
  partsOf_concat (l := []) (SubGroup.finished_initial g)

/-- An addition does not change the finished part. -/
theorem Filter.finished_of_adds {f f' : Filter} {edit : Edit} (adds : edit.adds = true)
    (h : edit.apply f = .ok f') : f'.recordType = f.recordType ∧ f'.finished = f.finished := by
  cases edit with
  | addGroup =>
    cases h
    exact ⟨rfl, partsOf_concat Group.finished_initial⟩
  | addSubGroup g =>
    rw [Edit.apply, addSubGroup] at h
    split_ifs at h
    cases h
    exact ⟨rfl, partsOf_modify fun group => partsOf_concat (SubGroup.finished_initial g)⟩
  | addCondition g s =>
    rw [Edit.apply, addCondition] at h
    split at h
    · cases h
    · split_ifs at h
      cases h
      exact ⟨rfl, partsOf_modify fun group => partsOf_modify fun sub =>
        SubGroup.finished_concat_blank sub.conditions g s⟩
  | _ => cases adds

/-- The subgroup without incomplete conditions. -/
def SubGroup.prune (sub : SubGroup) : SubGroup :=
  ⟨sub.conditions.filter (·.isComplete)⟩

/-- The group without incomplete conditions, and then without subgroups that have no conditions. -/
def Group.prune (group : Group) : Group :=
  ⟨(group.subGroups.map SubGroup.prune).filter fun sub => !sub.conditions.isEmpty⟩

/-- The filter without incomplete conditions, then without subgroups that have no conditions, and
then without groups that have no subgroups. -/
def Filter.prune (f : Filter) : Filter :=
  { f with groups := (f.groups.map Group.prune).filter fun group => !group.subGroups.isEmpty }

theorem filter_map_filter_map {α : Type} {prune : α → α} {keep : α → Bool}
    (idem : ∀ x, prune (prune x) = prune x) (l : List α) :
    (((l.map prune).filter keep).map prune).filter keep = (l.map prune).filter keep := by
  have pruned : ((l.map prune).filter keep).map prune = (l.map prune).filter keep := by
    refine (List.map_congr_left fun y hy => ?_).trans (List.map_id _)
    obtain ⟨x, -, rfl⟩ := List.mem_map.mp (List.mem_of_mem_filter hy)
    exact idem x
  rw [pruned, List.filter_filter]
  simp

theorem SubGroup.prune_prune (sub : SubGroup) : sub.prune.prune = sub.prune := by
  simp [prune]

theorem Group.prune_prune (group : Group) : group.prune.prune = group.prune :=
  congrArg Group.mk (filter_map_filter_map SubGroup.prune_prune _)

/-- Nothing unfinished is left after pruning. -/
theorem Filter.prune_prune (f : Filter) : f.prune.prune = f.prune :=
  congrArg (Filter.mk f.recordType) (filter_map_filter_map Group.prune_prune _)

theorem SubGroup.map_finished (sub : SubGroup) (g s : Nat) :
    (sub.finished g s).map Prod.snd = sub.prune.conditions := by
  have conditions : (sub.located g s).map Prod.snd = sub.conditions := by
    rw [located, List.map_map]
    exact List.zipIdx_map_fst 0 sub.conditions
  rw [prune, ← conditions, List.filter_map, finished]
  rfl

theorem Group.map_finished (group : Group) (g : Nat) :
    (group.finished g).map (List.map Prod.snd) = group.prune.subGroups.map (·.conditions) := by
  rw [finished, map_partsOf (SubGroup.map_finished · g), prune, List.filter_map, List.filter_map,
    List.map_map]
  rfl

/-- Without paths, the finished part is the pruned filter. -/
theorem Filter.map_finished (f : Filter) : f.finished.map (List.map (List.map Prod.snd)) =
    f.prune.groups.map fun group => group.subGroups.map (·.conditions) := by
  rw [finished, map_partsOf Group.map_finished, prune, List.filter_map, List.filter_map,
    List.map_map]
  simp [Function.comp_def]

theorem Filter.map_finished_prune (f : Filter) :
    f.prune.finished.map (List.map (List.map Prod.snd)) =
      f.finished.map (List.map (List.map Prod.snd)) := by
  rw [map_finished, map_finished, prune_prune]

section Alike

variable {rt : RecordType} {r : Resolver}

/-- A view of what parts give is determined by a key of the parts, if it is so for each. -/
theorem map_filterMap_of_map_eq {α β γ κ : Type} {key : α → κ} {F : α → Option β} {view : β → γ}
    (step : ∀ x y, key x = key y → (F x).map view = (F y).map view) {l l' : List α}
    (h : l.map key = l'.map key) : (l.filterMap F).map view = (l'.filterMap F).map view := by
  rw [← List.forall₂_eq_eq_eq, List.forall₂_map_left_iff, List.forall₂_map_right_iff] at h
  exact map_filterMap_of_forall₂ (h.imp step)

/-- Errors are the same at other paths but for the path. -/
theorem map_errorsOf_congr {visited visited' : List (Path × Condition)} (p : Path)
    (same : visited'.map Prod.snd = visited.map Prod.snd) :
    (errorsOf rt r visited').map (·.withPath p) = (errorsOf rt r visited).map (·.withPath p) := by
  refine map_filterMap_of_map_eq ?_ same
  rintro ⟨q, c⟩ ⟨q', c'⟩ ⟨⟩
  rw [← c.error?_withPath, ← c.error?_withPath]

/-- Comparisons are the same at other paths but for the path. -/
theorem map_comparisonsOf_congr {γ : Type} {view : Comparison → γ}
    (blind : ∀ m p, view (Comparison.withPath p m) = view m)
    {visited visited' : List (Path × Condition)}
    (same : visited'.map Prod.snd = visited.map Prod.snd) :
    (comparisonsOf rt r visited').map view = (comparisonsOf rt r visited).map view := by
  refine map_filterMap_of_map_eq ?_ same
  rintro ⟨p, c⟩ ⟨p', c'⟩ ⟨⟩
  change (c.comparison? rt r p).map view = (c.comparison? rt r p').map view
  rw [c.comparison?_withPath rt r p' p, Option.map_map]
  exact congrArg (Option.map · _) (funext fun m => blind m p)

namespace Predicate

variable {β : Type} {view : List Value → β}

theorem clause_ofConditions_congr {visited visited' : List (Path × Condition)}
    (same : visited'.map Prod.snd = visited.map Prod.snd) :
    (ofConditions rt r visited').map (clause view) =
      (ofConditions rt r visited).map (clause view) := by
  refine clause_conj_congr ?_
  rw [List.map_map, List.map_map]
  exact map_comparisonsOf_congr (fun _ _ => rfl) same

theorem clause_ofSubGroups_congr {subs subs' : List (List (Path × Condition))}
    (same : subs'.map (List.map Prod.snd) = subs.map (List.map Prod.snd)) :
    (ofSubGroups rt r subs').map (clause view) = (ofSubGroups rt r subs).map (clause view) :=
  clause_disj_congr (map_filterMap_of_map_eq (fun _ _ => clause_ofConditions_congr) same)

/-- The predicates of finished parts that differ in paths alone have the same clause. -/
theorem clause_ofGroups_congr {groups groups' : List (List (List (Path × Condition)))}
    (same : groups'.map (List.map (List.map Prod.snd)) =
      groups.map (List.map (List.map Prod.snd))) :
    (ofGroups rt r groups').map (clause view) = (ofGroups rt r groups).map (clause view) :=
  clause_conj_congr (map_filterMap_of_map_eq (fun _ _ => clause_ofSubGroups_congr) same)

end Predicate

namespace Filter

variable {f : Filter} {q q' : Query}

theorem map_flatten_finished_prune (f : Filter) :
    (f.prune.finished.flatten.flatten).map Prod.snd = f.finished.flatten.flatten.map Prod.snd := by
  have same := congrArg (fun groups => groups.flatten.flatten) f.map_finished_prune
  simpa [List.map_flatten] using same

/-- Pruning changes the paths of errors alone. -/
theorem map_diagnose_prune (f : Filter) (r : Resolver) (p : Path) :
    (f.prune.diagnose r).map (·.withPath p) = (f.diagnose r).map (·.withPath p) := by
  cases h : f.recordType with
  | none =>
    have h' : f.prune.recordType = none := h
    rw [diagnose_of_none h, diagnose_of_none h']
  | some rt =>
    have h' : f.prune.recordType = some rt := h
    rw [diagnose_eq h, diagnose_eq h', errorsOf_conditions, errorsOf_conditions]
    exact map_errorsOf_congr p f.map_flatten_finished_prune

/-- A filter compiles pruned exactly if it compiles. -/
theorem exists_compile_prune_iff (f : Filter) (r : Resolver) :
    (∃ q', f.prune.compile r = .ok q') ↔ ∃ q, f.compile r = .ok q := by
  rw [exists_compile_eq_ok_iff, exists_compile_eq_ok_iff, ← List.map_eq_nil_iff,
    map_diagnose_prune f r ⟨0, 0, 0⟩, List.map_eq_nil_iff]

/-- What is written for a filter is written for it pruned. -/
theorem write_prune (h : f.compile r = .ok q) (h' : f.prune.compile r = .ok q') (d : Dialect) :
    q'.select d = q.select d ∧ q'.whereClause d = q.whereClause d := by
  obtain ⟨rt, hrt, -, rfl⟩ := compile_eq_ok_iff.mp h
  obtain ⟨rt', hrt', -, rfl⟩ := compile_eq_ok_iff.mp h'
  obtain rfl : rt = rt' := Option.some.inj (hrt.symm.trans hrt')
  have outline : Query.outline ⟨rt, f.prune.predicate rt r⟩ =
      Query.outline ⟨rt, f.predicate rt r⟩ := by
    rw [predicate_eq, predicate_eq]
    exact Predicate.clause_ofGroups_congr f.map_finished_prune
  have params : (comparisonsOf rt r f.prune.conditions).map (·.params) =
      (comparisonsOf rt r f.conditions).map (·.params) := by
    rw [← comparisonsOf_filter_isComplete, ← comparisonsOf_filter_isComplete rt r f.conditions,
      ← flatten_finished, ← flatten_finished]
    exact map_comparisonsOf_congr (fun _ _ => rfl) f.map_flatten_finished_prune
  refine Query.write_congr ?_ outline ?_ d
  · rfl
  · rw [comparisons_query, comparisons_query, List.flatMap_def, List.flatMap_def, params]

end Filter

end Alike

/-- Unfinished parts of a filter are invisible. After the addition of a group, a subgroup or a
condition the filter compiles to the same query or error, and has the same errors. Pruned, it
compiles exactly if it did before, and then the same text is written in every dialect and the same
values are bound. -/
theorem Filter.compile_unfinished (f : Filter) (r : Resolver) :
    (∀ (edit : Edit) f', edit.adds = true → edit.apply f = .ok f' →
      f'.compile r = f.compile r ∧ f'.diagnose r = f.diagnose r) ∧
    ((∃ q', f.prune.compile r = .ok q') ↔ ∃ q, f.compile r = .ok q) ∧
    ∀ q q', f.compile r = .ok q → f.prune.compile r = .ok q' →
      ∀ d, q'.select d = q.select d ∧ q'.whereClause d = q.whereClause d := by
  refine ⟨fun edit f' adds h => ?_, f.exists_compile_prune_iff r, fun q q' => write_prune⟩
  obtain ⟨recordType, finished⟩ := finished_of_adds adds h
  exact compile_congr recordType finished

/-- `Filter.patchy` with one more blank condition, and without blank conditions. -/
theorem Filter.compile_unfinished_patchy :
    (∃ f', (Edit.addCondition 0 1).apply (.patchy 18 65 "50%") = .ok f' ∧
      f'.compile .ageAndName = .ok ⟨.contact, some (.patchy 18 65 "%50\\%%")⟩) ∧
    (Filter.patchy 18 65 "50%").prune.conditions.map Prod.fst = [⟨0, 0, 0⟩, ⟨0, 1, 0⟩] ∧
    ∃ q', (Filter.patchy 18 65 "50%").prune.compile .ageAndName = .ok q' ∧
      q'.select .mysql =
        (Query.mk .contact (some (.patchy 18 65 "%50\\%%"))).select .mysql := by
  obtain ⟨additions, iff, written⟩ := compile_unfinished (.patchy 18 65 "50%") .ageAndName
  have compiled : (Filter.patchy 18 65 "50%").compile .ageAndName = .ok _ := rfl
  obtain ⟨q', h⟩ := iff.mpr ⟨_, compiled⟩
  have applied : (Edit.addCondition 0 1).apply (.patchy 18 65 "50%") = .ok _ := rfl
  exact ⟨⟨_, applied, (additions _ _ rfl applied).1.trans compiled⟩, rfl, q', h,
    (written _ q' compiled h .mysql).1⟩

end RecordFilter
