import RecordFilter.Proofs.Correspondence
import RecordFilter.Proofs.Diagnosis
import RecordFilter.Proofs.Renumbering

/-!
# Compiling after an edit

An edit changes what compiling gives only at the place of the edit. A change in place leaves the
errors and comparisons at all other paths as they are. A removal takes out those of the conditions
in the removed node, and the others stay as they are but for their paths.
-/
namespace RecordFilter

/-- The error with the path that its condition has when paths change; none if the condition does not
stay. -/
def CompileError.moved (move : Path → Option Path) (e : CompileError) : Option CompileError :=
  match e.path? with
  | none => some e
  | some p => (move p).map fun p' => e.withPath p'

def Comparison.moved (move : Path → Option Path) (m : Comparison) : Option Comparison :=
  (move m.path).map fun p => m.withPath p

/-- What is kept of the outcomes is the outcome of what stays. -/
theorem filter_filterMap_of {α β : Type} {out : α → Option β} {keep : β → Bool} {stay : α → Bool}
    (h : ∀ a b, out a = some b → keep b = stay a) (l : List α) :
    (l.filterMap out).filter keep = (l.filter stay).filterMap out := by
  induction l with
  | nil => rfl
  | cons a l ih =>
    cases ha : out a with
    | none => cases hs : stay a <;> simp [ha, hs, ih]
    | some b =>
      have kept := h a b ha
      cases hs : stay a <;> simp [ha, hs, ih, kept]

section Located

variable {rt : RecordType} {r : Resolver} {c : Condition} {p : Path}
  {located : List (Path × Condition)} {move : Path → Option Path}

/-- The error of a condition moves with it. -/
theorem Condition.error?_moved : ((move p).bind fun p' => c.error? rt r p') =
    (c.error? rt r p).bind (·.moved move) := by
  rw [funext fun p' => c.error?_withPath rt r p p']
  cases error : c.error? rt r p with
  | none => cases move p <;> rfl
  | some e =>
    have path := (isComplete_of_error? error).2
    cases h : move p <;> simp [CompileError.moved, path, h]

/-- The comparison of a condition moves with it. -/
theorem Condition.comparison?_moved : ((move p).bind fun p' => c.comparison? rt r p') =
    (c.comparison? rt r p).bind (·.moved move) := by
  rw [funext fun p' => c.comparison?_withPath rt r p p']
  cases comparison : c.comparison? rt r p with
  | none => cases move p <;> rfl
  | some m =>
    have path := path_of_comparison? comparison
    cases h : move p <;> simp [Comparison.moved, path, h]

/-- Where conditions move, what they give moves with them, if it is so for each. -/
theorem filterMap_relocate {β : Type} (give : Path → Condition → Option β) {moved : β → Option β}
    (h : ∀ p c, ((move p).bind fun p' => give p' c) = (give p c).bind moved)
    (located : List (Path × Condition)) :
    (relocate move located).filterMap (fun v => give v.1 v.2) =
      (located.filterMap fun v => give v.1 v.2).filterMap moved := by
  rw [relocate, List.filterMap_filterMap, List.filterMap_filterMap]
  refine List.filterMap_congr fun v _ => ?_
  rw [← h, Option.bind_map]
  rfl

theorem errorsOf_relocate (move : Path → Option Path) (located : List (Path × Condition)) :
    errorsOf rt r (relocate move located) = (errorsOf rt r located).filterMap (·.moved move) :=
  filterMap_relocate (fun p c => c.error? rt r p) (fun _ _ => Condition.error?_moved) located

theorem comparisonsOf_relocate (move : Path → Option Path) (located : List (Path × Condition)) :
    comparisonsOf rt r (relocate move located) =
      (comparisonsOf rt r located).filterMap (·.moved move) :=
  filterMap_relocate (fun p c => c.comparison? rt r p) (fun _ _ => Condition.comparison?_moved)
    located

/-- The errors at other paths are those of the conditions at other paths. -/
theorem filter_errorsOf (p : Path) (located : List (Path × Condition)) :
    (errorsOf rt r located).filter (·.path? ≠ some p) =
      errorsOf rt r (located.filter (·.1 ≠ p)) := by
  refine filter_filterMap_of (fun v e h => ?_) located
  simp [(Condition.isComplete_of_error? h).2]

/-- The comparisons at other paths are those of the conditions at other paths. -/
theorem filter_comparisonsOf (p : Path) (located : List (Path × Condition)) :
    (comparisonsOf rt r located).filter (·.path ≠ p) =
      comparisonsOf rt r (located.filter (·.1 ≠ p)) := by
  refine filter_filterMap_of (fun v m h => ?_) located
  simp [Condition.path_of_comparison? h]

end Located

namespace Filter

variable {f f' : Filter} {r : Resolver} {n : Node} {p : Path} {edit : Edit}
  {change : Condition → Condition} {q q' : Query}

theorem recordType_erase (f : Filter) (n : Node) : (f.erase n).recordType = f.recordType := by
  cases n <;> rfl

/-- The errors of the conditions that stay are those of before. -/
theorem diagnose_erase (f : Filter) (n : Node) (r : Resolver) :
    (f.erase n).diagnose r = (f.diagnose r).filterMap (·.moved n.renumber) := by
  cases h : f.recordType with
  | none =>
    rw [diagnose_of_none h, diagnose_of_none ((recordType_erase f n).trans h)]
    rfl
  | some rt =>
    rw [diagnose_eq h, diagnose_eq ((recordType_erase f n).trans h), conditions_erase,
      errorsOf_relocate]

/-- If the filter compiles, it compiles without the node too, to the comparisons of the conditions
that stay. -/
theorem compile_erase (n : Node) (h : f.compile r = .ok q) :
    ∃ q', (f.erase n).compile r = .ok q' ∧ q'.recordType = q.recordType ∧
      q'.comparisons = q.comparisons.filterMap (·.moved n.renumber) := by
  obtain ⟨rt, hrt, none, rfl⟩ := compile_eq_ok_iff.mp h
  have left : errorsOf rt r (f.erase n).conditions = [] := by
    rw [conditions_erase, errorsOf_relocate, none, List.filterMap_nil]
  refine ⟨_, compile_of_errorsOf_eq_nil ((recordType_erase f n).trans hrt) left, rfl, ?_⟩
  rw [comparisons_query, comparisons_query, conditions_erase, comparisonsOf_relocate]

/-- The errors at other paths are those of before. -/
theorem diagnose_modifyCondition (f : Filter) (p : Path) (change : Condition → Condition)
    (r : Resolver) : ((f.modifyCondition p change).diagnose r).filter (·.path? ≠ some p) =
      (f.diagnose r).filter (·.path? ≠ some p) := by
  cases h : f.recordType with
  | none =>
    have h' : (f.modifyCondition p change).recordType = none := h
    rw [diagnose_of_none h, diagnose_of_none h']
  | some rt =>
    have h' : (f.modifyCondition p change).recordType = some rt := h
    rw [diagnose_eq h, diagnose_eq h', filter_errorsOf, filter_errorsOf,
      conditions_modifyCondition_of_ne]

/-- The comparisons at other paths are those of before. -/
theorem comparisons_modifyCondition (h : f.compile r = .ok q)
    (h' : (f.modifyCondition p change).compile r = .ok q') :
    q'.comparisons.filter (·.path ≠ p) = q.comparisons.filter (·.path ≠ p) := by
  obtain ⟨rt, hrt, -, rfl⟩ := compile_eq_ok_iff.mp h
  obtain ⟨rt', hrt', -, rfl⟩ := compile_eq_ok_iff.mp h'
  obtain rfl : rt = rt' := Option.some.inj (hrt.symm.trans hrt')
  rw [comparisons_query, comparisons_query, filter_comparisonsOf, filter_comparisonsOf,
    conditions_modifyCondition_of_ne]

/-- A change in place changes one condition and nothing else. -/
theorem eq_modifyCondition_of_apply (sets : edit.sets? = some p) (h : edit.apply f = .ok f') :
    ∃ change, f' = f.modifyCondition p change := by
  cases edit with
  | setProperty q property | setOperator q operator | setValue q value =>
    cases sets
    simp only [Edit.apply, setProperty, setOperator, setValue, setCondition] at h
    split_ifs at h
    exact ⟨_, (Except.ok.inj h).symm⟩
  | _ => cases sets

end Filter

/-- An edit changes what compiling gives only at its place. After a change at a path, the errors and
the comparisons at all other paths are as before. After the removal of a node, the conditions
outside the node, their errors and their comparisons are as before, in the same order, with the
paths that the conditions have then; and the filter compiles if it did. -/
theorem Filter.compile_edit {f f' : Filter} {edit : Edit} (applied : edit.apply f = .ok f')
    (r : Resolver) :
    (∀ p, edit.sets? = some p →
      (f'.diagnose r).filter (·.path? ≠ some p) = (f.diagnose r).filter (·.path? ≠ some p) ∧
      ∀ q q', f.compile r = .ok q → f'.compile r = .ok q' →
        q'.comparisons.filter (·.path ≠ p) = q.comparisons.filter (·.path ≠ p)) ∧
    ∀ n, edit.removes? = some n →
      let move := (f.dropped n).renumber
      (∀ p c, f.condition? p = some c → (move p = none ↔ n.Holds p)) ∧
      f'.conditions = relocate move f.conditions ∧
      f'.diagnose r = (f.diagnose r).filterMap (·.moved move) ∧
      ∀ q, f.compile r = .ok q → ∃ q', f'.compile r = .ok q' ∧ q'.recordType = q.recordType ∧
        q'.comparisons = q.comparisons.filterMap (·.moved move) := by
  constructor
  · intro p sets
    obtain ⟨change, rfl⟩ := eq_modifyCondition_of_apply sets applied
    exact ⟨diagnose_modifyCondition f p change r, fun q q' => comparisons_modifyCondition⟩
  · intro n removes move
    obtain rfl := eq_erase_of_apply removes applied
    exact ⟨fun p c h => Node.renumber_eq_none_iff.trans (holds_dropped h), conditions_erase f _,
      diagnose_erase f _ r, fun q => compile_erase _⟩

/-- The blank condition between those of `Filter.patchy` is removed, and its subgroup with it. -/
theorem Filter.compile_edit_patchy :
    ∃ f', (Edit.removeCondition ⟨0, 1, 0⟩).apply (.patchy 18 65 "50%") = .ok f' ∧
      (∃ q', f'.compile .ageAndName = .ok q' ∧ q'.comparisons =
        (Predicate.patchy 18 65 "%50\\%%").comparisons.filterMap
          (·.moved (Node.subGroup 0 1).renumber)) ∧
      (f'.diagnose fun _ _ => none) = [.unknownProperty ⟨0, 0, 0⟩ "age",
        .unknownProperty ⟨0, 1, 0⟩ "name"] := by
  have applied : (Edit.removeCondition ⟨0, 1, 0⟩).apply (.patchy 18 65 "50%") = .ok _ := rfl
  obtain ⟨-, -, -, compiled⟩ := (compile_edit applied .ageAndName).2 _ rfl
  obtain ⟨q', h, -, comparisons⟩ := compiled _ rfl
  obtain ⟨-, -, errors, -⟩ := (compile_edit applied fun _ _ => none).2 _ rfl
  exact ⟨_, applied, ⟨q', h, comparisons⟩, errors⟩

end RecordFilter
