import RecordFilter.Proofs.Paths
import RecordFilter.Proofs.Walk

/-!
# Compiling and diagnosing

`compile` stops at the first of the errors that `diagnose` lists. Each error is that of one complete
condition, and it is the one that compiling this condition without the others gives.
-/
namespace RecordFilter

namespace Filter

/-- The filter `f'` has the condition of `f` at `p`, and no other condition that is complete. -/
structure Isolates (f : Filter) (p : Path) (f' : Filter) : Prop where
  recordType : f'.recordType = f.recordType
  condition : f'.condition? p = f.condition? p
  others : ∀ q, f'.CompleteAt q → q = p

/-- The filter with all conditions but the one at `p` made blank. -/
def isolate (f : Filter) (p : Path) : Filter where
  recordType := f.recordType
  groups := f.groups.mapIdx fun g group => ⟨group.subGroups.mapIdx fun s sub =>
    ⟨sub.conditions.mapIdx fun i c => if (⟨g, s, i⟩ : Path) = p then c else .blank⟩⟩

theorem condition?_isolate (f : Filter) (p q : Path) :
    (f.isolate p).condition? q = (f.condition? q).map fun c => if q = p then c else .blank := by
  simp only [condition?, subGroup?, isolate, List.getElem?_mapIdx, bind]
  cases f.groups[q.group]? with
  | none => rfl
  | some group =>
    cases hs : group.subGroups[q.subGroup]? with
    | none => simp [hs]
    | some sub => simp [hs]

theorem isolates_isolate (f : Filter) (p : Path) : f.Isolates p (f.isolate p) where
  recordType := rfl
  condition := by simp [condition?_isolate]
  others := by
    rintro q ⟨c, hc, complete⟩
    rw [condition?_isolate, Option.map_eq_some_iff] at hc
    obtain ⟨c, -, rfl⟩ := hc
    by_cases same : q = p
    · exact same
    · rw [if_neg same] at complete
      exact absurd complete (by decide)

variable {f f' : Filter} {rt : RecordType} {r : Resolver} {p : Path} {e : CompileError}

theorem mem_errorsOf : e ∈ errorsOf rt r f.conditions ↔
    ∃ p c, f.condition? p = some c ∧ c.error? rt r p = some e := by
  simp only [errorsOf, List.mem_filterMap, Prod.exists, mem_conditions]

/-- An error bears the path of a complete condition. -/
theorem completeAt_of_mem_errorsOf (h : e ∈ errorsOf rt r f.conditions) :
    ∃ p, e.path? = some p ∧ f.CompleteAt p := by
  obtain ⟨p, c, hc, he⟩ := mem_errorsOf.mp h
  obtain ⟨complete, path⟩ := Condition.isComplete_of_error? he
  exact ⟨p, path, c, hc, complete⟩

/-- The error at a path is that of the condition there. -/
theorem mem_errorsOf_at : (e ∈ errorsOf rt r f.conditions ∧ e.path? = some p) ↔
    ∃ c, f.condition? p = some c ∧ c.error? rt r p = some e := by
  constructor
  · rintro ⟨h, path⟩
    obtain ⟨q, c, hc, he⟩ := mem_errorsOf.mp h
    obtain rfl : q = p := Option.some.inj ((Condition.isComplete_of_error? he).2.symm.trans path)
    exact ⟨c, hc, he⟩
  · rintro ⟨c, hc, he⟩
    exact ⟨mem_errorsOf.mpr ⟨p, c, hc, he⟩, (Condition.isComplete_of_error? he).2⟩

/-- The errors stand in the order of their paths. -/
theorem pairwise_errorsOf (f : Filter) : (errorsOf rt r f.conditions).Pairwise fun e e' =>
    ∃ p p', e.path? = some p ∧ e'.path? = some p' ∧ p < p' := by
  refine f.pairwise_conditions.filterMap _ ?_
  rintro ⟨p, c⟩ ⟨p', c'⟩ lt e he e' he'
  exact ⟨p, p', (Condition.isComplete_of_error? he).2, (Condition.isComplete_of_error? he').2, lt⟩

/-- With a single complete condition, compiling fails exactly with the error of that condition. -/
theorem Isolates.compile_eq_error_iff (h : f.Isolates p f') (hrt : f.recordType = some rt) :
    f'.compile r = .error e ↔ ∃ c, f.condition? p = some c ∧ c.error? rt r p = some e := by
  have at_p : ∀ e ∈ errorsOf rt r f'.conditions, e.path? = some p := by
    intro e he
    obtain ⟨q, path, complete⟩ := completeAt_of_mem_errorsOf he
    rw [path, h.others q complete]
  rw [Filter.compile_eq_error_iff (h.recordType.trans hrt), ← h.condition, ← mem_errorsOf_at]
  constructor
  · intro first
    have mem := List.mem_of_head? first
    exact ⟨mem, at_p e mem⟩
  · rintro ⟨mem, path⟩
    cases first : (errorsOf rt r f'.conditions).head? with
    | none => simp [List.head?_eq_none_iff.mp first] at mem
    | some e' =>
      have mem' := List.mem_of_head? first
      obtain ⟨c, hc, he⟩ := mem_errorsOf_at.mp ⟨mem, path⟩
      obtain ⟨c', hc', he'⟩ := mem_errorsOf_at.mp ⟨mem', at_p e' mem'⟩
      obtain rfl : c = c' := Option.some.inj (hc.symm.trans hc')
      exact he'.symm.trans he

/-- The result of `compile` is a query exactly if `diagnose` has no error. -/
theorem exists_compile_eq_ok_iff : (∃ q, f.compile r = .ok q) ↔ f.diagnose r = [] := by
  cases h : f.recordType with
  | none => simp [compile_of_none h, diagnose_of_none h]
  | some rt =>
    rw [diagnose_eq h]
    constructor
    · rintro ⟨q, hq⟩
      obtain ⟨rt', hrt, none, -⟩ := compile_eq_ok_iff.mp hq
      obtain rfl : rt = rt' := Option.some.inj (h.symm.trans hrt)
      exact none
    · exact fun none => ⟨_, compile_of_errorsOf_eq_nil h none⟩

/-- The error of `compile` is the first of `diagnose`. -/
theorem compile_eq_error_iff_head? : f.compile r = .error e ↔ (f.diagnose r).head? = some e := by
  cases h : f.recordType with
  | none => simp [compile_of_none h, diagnose_of_none h]
  | some rt => rw [diagnose_eq h, compile_eq_error_iff h]

end Filter

/-- What `compile` and `diagnose` find wrong is the same. The errors of a filter with a record type
stand in the order of their paths, each at a complete condition, and there it is the error of the
filter with no other complete condition. -/
theorem Filter.compile_diagnose (f : Filter) (r : Resolver) :
    ((∃ q, f.compile r = .ok q) ↔ f.diagnose r = []) ∧
    (∀ e, f.compile r = .error e ↔ (f.diagnose r).head? = some e) ∧
    (f.recordType.isSome = true →
      ((f.diagnose r).Pairwise fun e e' =>
        ∃ p p', e.path? = some p ∧ e'.path? = some p' ∧ p < p') ∧
      (∀ e ∈ f.diagnose r, ∃ p, e.path? = some p ∧ f.CompleteAt p) ∧
      ∀ p, f.CompleteAt p → f.Isolates p (f.isolate p) ∧ ∀ f', f.Isolates p f' →
        ∀ e, (e ∈ f.diagnose r ∧ e.path? = some p) ↔ f'.compile r = .error e) := by
  refine ⟨exists_compile_eq_ok_iff, fun e => compile_eq_error_iff_head?, fun some => ?_⟩
  obtain ⟨rt, h⟩ := Option.isSome_iff_exists.mp some
  rw [diagnose_eq h]
  refine ⟨pairwise_errorsOf f, fun e => completeAt_of_mem_errorsOf, fun p _ => ?_⟩
  refine ⟨isolates_isolate f p, fun f' isolates e => ?_⟩
  rw [mem_errorsOf_at, isolates.compile_eq_error_iff h]

theorem Filter.compile_diagnose_patchy :
    (Filter.patchy 18 65 "50%").CompleteAt ⟨0, 2, 0⟩ ∧
    ((CompileError.unknownProperty ⟨0, 2, 0⟩ "name" ∈
        (Filter.patchy 18 65 "50%").diagnose (fun _ _ => none) ∧
      (CompileError.unknownProperty ⟨0, 2, 0⟩ "name").path? = some ⟨0, 2, 0⟩) ↔
      ((Filter.patchy 18 65 "50%").isolate ⟨0, 2, 0⟩).compile (fun _ _ => none) =
        .error (.unknownProperty ⟨0, 2, 0⟩ "name")) := by
  have complete : (Filter.patchy 18 65 "50%").CompleteAt ⟨0, 2, 0⟩ := ⟨_, rfl, by decide⟩
  obtain ⟨isolates, same⟩ :=
    ((compile_diagnose (.patchy 18 65 "50%") fun _ _ => none).2.2 rfl).2.2 ⟨0, 2, 0⟩ complete
  exact ⟨complete, same _ isolates _⟩

end RecordFilter
