import RecordFilter.Proofs.Correspondence
import RecordFilter.Proofs.Listing

/-!
# What is reported about conditions

Each condition of a filter leaves a trace: an incomplete one an event that says it was skipped, a
complete one a comparison or an error. `compile` reports what `diagnose` reports, but nothing from
behind the first wrong condition; if there is none, the skipped conditions and the compared ones
together are all of them, and a last event sums up the query.
-/
namespace RecordFilter

/-- The events with a message. -/
def Event.saying (text : String) (events : List Event) : List Event :=
  events.filter (·.message = text)

/-- The paths of the incomplete conditions in order. -/
def incompleteOf (visited : List (Path × Condition)) : List Path :=
  (visited.filter fun v => !v.2.isComplete).map Prod.fst

section Merge

variable {α : Type} {le : α → α → Bool} {x : α} {xs ys : List α}

theorem merge_cons_left (h : ∀ y ∈ ys, le x y = true) :
    (x :: xs).merge ys le = x :: xs.merge ys le := by
  cases ys with
  | nil => simp
  | cons y ys => rw [List.cons_merge_cons, if_pos (h y List.mem_cons_self)]

theorem merge_cons_right (h : ∀ y ∈ xs, le y x = false) :
    xs.merge (x :: ys) le = x :: xs.merge ys le := by
  cases xs with
  | nil => simp
  | cons y xs =>
    have behind : ¬le y x = true := by simp [h y List.mem_cons_self]
    rw [List.cons_merge_cons, if_neg behind]

end Merge

section Visited

variable {rt : RecordType} {r : Resolver} {visited : List (Path × Condition)} {p : Path}
  {c : Condition}

/-- But for rejected columns, a condition reports that it is skipped, if it is incomplete. -/
theorem Condition.saying_events {text : String} (c : Condition) (r : Resolver) (p : Path)
    (other : ∀ column, (Event.rejectedColumn rt column).message ≠ text) :
    Event.saying text (c.events rt r p) =
      Event.saying text (if c.isComplete then [] else [.skippedCondition p]) := by
  unfold Condition.events
  split
  · cases r rt (Text.trim c.property) with
    | none => rfl
    | some resolved =>
      dsimp only
      split
      · rfl
      · simp [Event.saying, other]
  · rfl

theorem incompleteOf_cons (v : Path × Condition) (visited : List (Path × Condition)) :
    incompleteOf (v :: visited) =
      if v.2.isComplete then incompleteOf visited else v.1 :: incompleteOf visited := by
  by_cases complete : v.2.isComplete = true <;> simp [incompleteOf, complete]

/-- But for rejected columns, the events of conditions are that the incomplete ones are skipped. -/
theorem saying_eventsOf {text : String} (r : Resolver) (visited : List (Path × Condition))
    (other : ∀ column, (Event.rejectedColumn rt column).message ≠ text) :
    Event.saying text (eventsOf rt r visited) =
      Event.saying text ((incompleteOf visited).map .skippedCondition) := by
  induction visited with
  | nil => rfl
  | cons v visited ih =>
    have head := v.2.saying_events r v.1 other
    rw [incompleteOf_cons]
    unfold Event.saying eventsOf at *
    rw [List.flatMap_cons, List.filter_append, head, ih]
    by_cases complete : v.2.isComplete = true
    · rw [if_pos complete, if_pos complete]
      rfl
    · rw [if_neg complete, if_neg complete, ← List.filter_append]
      rfl

theorem skips_eventsOf (rt : RecordType) (r : Resolver) (visited : List (Path × Condition)) :
    Event.saying "skipping incomplete condition" (eventsOf rt r visited) =
      (incompleteOf visited).map .skippedCondition := by
  rw [saying_eventsOf r visited (by simp [Event.message])]
  simp [Event.saying, Event.message]

theorem summaries_eventsOf (rt : RecordType) (r : Resolver) (visited : List (Path × Condition)) :
    Event.saying "compiled filter" (eventsOf rt r visited) = [] := by
  rw [saying_eventsOf r visited (by simp [Event.message])]
  simp [Event.saying, Event.message]

theorem mem_incompleteOf :
    p ∈ incompleteOf visited ↔ ∃ c, (p, c) ∈ visited ∧ c.isComplete = false := by
  simp [incompleteOf]

theorem mem_paths_comparisonsOf (h : p ∈ (comparisonsOf rt r visited).map (·.path)) :
    ∃ c, (p, c) ∈ visited ∧ c.isComplete = true := by
  obtain ⟨m, hm, rfl⟩ := List.mem_map.mp h
  obtain ⟨⟨q, c⟩, member, compares⟩ := List.mem_filterMap.mp hm
  have path := Condition.path_of_comparison? compares
  obtain ⟨complete, -⟩ := Condition.comparison?_eq_some_iff.mp compares
  subst path
  exact ⟨c, member, complete⟩

/-- Of conditions in the order of their paths, those that are incomplete and stand up to the first
wrong condition are those in front of its path. -/
theorem incompleteOf_untilError (sorted : visited.Pairwise fun v w => v.1 < w.1) {e : CompileError}
    (first : (errorsOf rt r visited).head? = some e) (path : e.path? = some p) :
    incompleteOf (untilError rt r visited) = (incompleteOf visited).takeWhile (· < p) := by
  induction visited with
  | nil => simp [errorsOf] at first
  | cons v visited ih =>
    obtain ⟨before, sorted⟩ := List.pairwise_cons.mp sorted
    rw [untilError, incompleteOf_cons, incompleteOf_cons]
    cases wrong : v.2.error? rt r v.1 with
    | some e' =>
      -- The walk ends here, and everything behind has a greater path.
      obtain rfl : e' = e := by simpa [errorsOf, wrong] using first
      obtain ⟨complete, here⟩ := Condition.isComplete_of_error? wrong
      obtain rfl : v.1 = p := Option.some.inj (here.symm.trans path)
      rw [if_pos complete, if_pos complete]
      have none : (incompleteOf visited).takeWhile (· < v.1) = [] := by
        refine List.takeWhile_eq_nil_iff.mpr fun nonempty => ?_
        obtain ⟨c, behind, -⟩ := mem_incompleteOf.mp (List.getElem_mem nonempty)
        simpa using Path.lt_asymm (before _ behind)
      simpa [incompleteOf] using none.symm
    | none =>
      have first : (errorsOf rt r visited).head? = some e := by simpa [errorsOf, wrong] using first
      have ahead : v.1 < p := by
        obtain ⟨⟨q, c⟩, member, he⟩ := List.mem_filterMap.mp (List.mem_of_head? first)
        obtain ⟨-, there⟩ := Condition.isComplete_of_error? he
        obtain rfl : q = p := Option.some.inj (there.symm.trans path)
        exact before _ member
      by_cases complete : v.2.isComplete = true <;> simp [complete, ahead, ih sorted first]

/-- Where no condition is wrong, the incomplete ones and the compared ones are all of them. -/
theorem merge_incompleteOf (sorted : visited.Pairwise fun v w => v.1 < w.1)
    (correct : errorsOf rt r visited = []) :
    (incompleteOf visited).merge ((comparisonsOf rt r visited).map (·.path)) (· < ·) =
      visited.map Prod.fst := by
  induction visited with
  | nil => simp [incompleteOf, comparisonsOf]
  | cons v visited ih =>
    obtain ⟨before, sorted⟩ := List.pairwise_cons.mp sorted
    rw [← List.singleton_append, errorsOf_append, List.append_eq_nil_iff,
      errorsOf_singleton] at correct
    obtain ⟨here, correct⟩ := correct
    have some := Condition.isSome_comparison? here
    rw [incompleteOf_cons, List.map_cons, ← ih sorted correct]
    cases compares : v.2.comparison? rt r v.1 with
    | none =>
      have incomplete : v.2.isComplete = false := by rw [← some, compares]; rfl
      have rest : comparisonsOf rt r (v :: visited) = comparisonsOf rt r visited :=
        List.filterMap_cons_none compares
      rw [incomplete, rest, if_neg Bool.false_ne_true]
      refine merge_cons_left fun q hq => ?_
      obtain ⟨c, behind, -⟩ := mem_paths_comparisonsOf hq
      simpa using before _ behind
    | some m =>
      have complete : v.2.isComplete = true := by rw [← some, compares]; rfl
      have rest : comparisonsOf rt r (v :: visited) = m :: comparisonsOf rt r visited :=
        List.filterMap_cons_some compares
      rw [complete, rest, if_pos rfl, List.map_cons, Condition.path_of_comparison? compares]
      refine merge_cons_right fun q hq => ?_
      obtain ⟨c, behind, -⟩ := mem_incompleteOf.mp hq
      simpa using Path.lt_asymm (before _ behind)

end Visited

namespace Filter

variable {f : Filter} {rt : RecordType} {r : Resolver} {e : CompileError}

theorem diagnoseEvents_eq (h : f.recordType = some rt) :
    f.diagnoseEvents r = eventsOf rt r f.conditions := by
  simp [diagnoseEvents, diagnoseRun, h, (walk_visits rt r f).noting]

theorem compileEvents_of_ok (h : f.recordType = some rt) {q : Query}
    (compiled : f.compile r = .ok q) : f.compileEvents r =
      eventsOf rt r f.conditions ++ [.compiled rt q.predicateCount q.paramCount] := by
  obtain ⟨rt', hrt, correct, rfl⟩ := compile_eq_ok_iff.mp compiled
  obtain rfl : rt = rt' := Option.some.inj (h.symm.trans hrt)
  simp [compileEvents, compileRun, h, (walk_visits rt r f).passing correct]

theorem compileEvents_of_error (h : f.recordType = some rt) (failed : f.compile r = .error e) :
    f.compileEvents r = eventsOf rt r (untilError rt r f.conditions) := by
  have first := (compile_eq_error_iff h).mp failed
  simp [compileEvents, compileRun, h, (walk_visits rt r f).stopping e first]

/-- No condition is both skipped and compared. -/
theorem disjoint_incompleteOf (f : Filter) :
    (incompleteOf f.conditions).Disjoint ((comparisonsOf rt r f.conditions).map (·.path)) := by
  intro p skipped compared
  obtain ⟨c, hc, incomplete⟩ := mem_incompleteOf.mp skipped
  obtain ⟨c', hc', complete⟩ := mem_paths_comparisonsOf compared
  obtain rfl : c = c' :=
    Option.some.inj ((mem_conditions.mp hc).symm.trans (mem_conditions.mp hc'))
  exact Bool.false_ne_true (incomplete.symm.trans complete)

/-- Of a filter with a record type, `diagnose` reports each incomplete condition as skipped, once
and in order, and no other. `compile` reports the same up to the first wrong condition, and sums up
no query then. If there is none, the paths of the skipped conditions and of the comparisons have
none in common and together, in order, are those of all conditions; the last event, and no other,
sums up the query with the numbers of its comparisons and of its bound values. -/
theorem reported (h : f.recordType = some rt) (r : Resolver) :
    Event.saying "skipping incomplete condition" (f.diagnoseEvents r) =
      (incompleteOf f.conditions).map .skippedCondition ∧
    (∀ e, f.compile r = .error e → ∃ p, (f.diagnose r).head? = some e ∧ e.path? = some p ∧
      Event.saying "skipping incomplete condition" (f.compileEvents r) =
        ((incompleteOf f.conditions).takeWhile (· < p)).map .skippedCondition ∧
      Event.saying "compiled filter" (f.compileEvents r) = []) ∧
    ∀ q, f.compile r = .ok q →
      Event.saying "skipping incomplete condition" (f.compileEvents r) =
        (incompleteOf f.conditions).map .skippedCondition ∧
      (incompleteOf f.conditions).Disjoint (q.comparisons.map (·.path)) ∧
      (incompleteOf f.conditions).merge (q.comparisons.map (·.path)) (· < ·) =
        f.conditions.map Prod.fst ∧
      ∃ walked, f.compileEvents r = walked ++ [.compiled rt q.predicateCount q.paramCount] ∧
        Event.saying "compiled filter" walked = [] := by
  refine ⟨?_, fun e failed => ?_, fun q compiled => ?_⟩
  · rw [diagnoseEvents_eq h, skips_eventsOf]
  · have first := (compile_eq_error_iff h).mp failed
    obtain ⟨⟨p, c⟩, -, wrong⟩ := List.mem_filterMap.mp (List.mem_of_head? first)
    obtain ⟨-, path⟩ := Condition.isComplete_of_error? wrong
    rw [compileEvents_of_error h failed, diagnose_eq h, skips_eventsOf, summaries_eventsOf,
      incompleteOf_untilError f.pairwise_conditions first path]
    exact ⟨p, first, path, rfl, rfl⟩
  · have events := compileEvents_of_ok h compiled
    obtain ⟨rt', hrt, correct, rfl⟩ := compile_eq_ok_iff.mp compiled
    obtain rfl : rt = rt' := Option.some.inj (h.symm.trans hrt)
    have skips := skips_eventsOf rt r f.conditions
    rw [comparisons_query, events]
    refine ⟨?_, f.disjoint_incompleteOf, merge_incompleteOf f.pairwise_conditions correct,
      _, rfl, summaries_eventsOf rt r f.conditions⟩
    unfold Event.saying at *
    rw [List.filter_append, skips]
    simp [Event.message]

/-- Ages are known and names are not: the blank condition behind the name is not reported. -/
theorem reported_patchy :
    let f := Filter.patchy 18 65 "50%"
    let ages : Resolver := .ofTypes fun _ key => if key = "age" then some .number else none
    f.recordType = some .contact ∧
    f.compile ages = .error (.unknownProperty ⟨0, 2, 0⟩ "name") ∧
    Event.saying "skipping incomplete condition" (f.compileEvents ages) =
      [.skippedCondition ⟨0, 0, 1⟩, .skippedCondition ⟨0, 1, 0⟩] ∧
    f.compile .ageAndName = .ok ⟨.contact, some (.patchy 18 65 "%50\\%%")⟩ ∧
    Event.saying "skipping incomplete condition" (f.compileEvents .ageAndName) =
      [.skippedCondition ⟨0, 0, 1⟩, .skippedCondition ⟨0, 1, 0⟩, .skippedCondition ⟨1, 0, 0⟩] ∧
    ∃ walked, f.compileEvents .ageAndName = walked ++ [.compiled .contact 2 3] := by
  intro f ages
  have failed : f.compile ages = .error (.unknownProperty ⟨0, 2, 0⟩ "name") := rfl
  have compiled : f.compile .ageAndName = .ok ⟨.contact, some (.patchy 18 65 "%50\\%%")⟩ := rfl
  obtain ⟨p, -, path, cut, -⟩ := (reported (f := f) rfl ages).2.1 _ failed
  obtain ⟨whole, -, -, walked, events, -⟩ := (reported (f := f) rfl .ageAndName).2.2 _ compiled
  obtain rfl : ⟨0, 2, 0⟩ = p := Option.some.inj path
  exact ⟨rfl, failed, cut.trans (by decide), compiled, whole.trans (by decide), walked, events⟩

end Filter
end RecordFilter
