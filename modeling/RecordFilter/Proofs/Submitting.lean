import RecordFilter.Proofs.Correspondence
import RecordFilter.Proofs.Diagnosis
import RecordFilter.Submission

/-!
# What a gate answers

A gate answers in three ways: by a yes or no, by the list of errors, and by what it submits. The
answers agree, and of its settings they depend on the policy for empty filters alone.
-/
namespace RecordFilter

/-- A query asks for all records exactly if the filter has no complete condition. -/
theorem Filter.isEmpty_compile {f : Filter} {r : Resolver} {q : Query} (h : f.compile r = .ok q) :
    q.isEmpty = f.isBlank := by
  obtain ⟨rt, -, none, rfl⟩ := compile_eq_ok_iff.mp h
  rw [Bool.eq_iff_iff, Query.isEmpty, Option.isNone_iff_eq_none, predicate_eq_none_iff none]

namespace Gate

variable {gate : Gate} {f : Filter} {r : Resolver}

theorem allowsEmpty_iff {policy : EmptyPolicy} :
    policy.allowsEmpty = true ↔ policy = .matchAll := by
  cases policy <;> decide

theorem not_allowsEmpty_iff {policy : EmptyPolicy} :
    policy.allowsEmpty = false ↔ policy = .reject := by
  cases policy <;> decide

/-- Whether a filter that compiles is submitted: it is not blank, or the policy lets it match all
records. -/
def Lets (gate : Gate) (f : Filter) : Prop := f.isBlank = false ∨ gate.policy = .matchAll

theorem not_lets_iff : ¬gate.Lets f ↔ f.isBlank = true ∧ gate.policy = .reject := by
  rw [Lets, not_or, Bool.not_eq_false, ← allowsEmpty_iff, Bool.not_eq_true, not_allowsEmpty_iff]

theorem answers_of_error {e : CompileError} (h : f.compile r = .error e) :
    gate.accepts f r = false ∧ gate.submit f r = .error e := by
  simp only [accepts, submit, h, and_self]

/-- A filter that compiles is submitted and accepted, or neither. -/
theorem answers_of_ok (gate : Gate) {q : Query} (h : f.compile r = .ok q) :
    (gate.Lets f ∧ gate.accepts f r = true ∧ gate.submit f r = .ok (some q)) ∨
      (¬gate.Lets f ∧ gate.accepts f r = false ∧ gate.submit f r = .ok none) := by
  simp only [accepts, submit, h, Filter.isEmpty_compile h, not_lets_iff]
  rw [Lets, ← allowsEmpty_iff, ← not_allowsEmpty_iff]
  cases f.isBlank <;> cases gate.policy.allowsEmpty <;> simp

theorem errors_eq_nil_iff : gate.errors f r = [] ↔ ∃ q, f.compile r = .ok q :=
  Filter.exists_compile_eq_ok_iff.symm

/-- A gate accepts what has no errors and is let through. -/
theorem accepts_iff : gate.accepts f r = true ↔ gate.errors f r = [] ∧ gate.Lets f := by
  rw [errors_eq_nil_iff]
  cases h : f.compile r with
  | error e => simp [answers_of_error h]
  | ok q =>
    obtain ⟨lets, accepts, -⟩ | ⟨lets, accepts, -⟩ := answers_of_ok gate h <;>
      simp [lets, accepts]

/-- A gate submits the query of a filter that it accepts. -/
theorem submit_eq_some_iff {q : Query} :
    gate.submit f r = .ok (some q) ↔ gate.accepts f r = true ∧ f.compile r = .ok q := by
  cases h : f.compile r with
  | error e => simp [answers_of_error h]
  | ok q' =>
    obtain ⟨-, accepts, submit⟩ | ⟨-, accepts, submit⟩ := answers_of_ok gate h <;>
      simp [accepts, submit]

/-- A gate submits nothing if a blank filter without errors is not let through. -/
theorem submit_eq_none_iff :
    gate.submit f r = .ok none ↔ gate.errors f r = [] ∧ ¬gate.Lets f := by
  rw [errors_eq_nil_iff]
  cases h : f.compile r with
  | error e => simp [answers_of_error h]
  | ok q =>
    obtain ⟨lets, -, submit⟩ | ⟨lets, -, submit⟩ := answers_of_ok gate h <;>
      simp [lets, submit]

/-- Submitting fails with the first of the errors. -/
theorem submit_eq_error_iff {e : CompileError} :
    gate.submit f r = .error e ↔ (gate.errors f r).head? = some e := by
  rw [errors, ← Filter.compile_eq_error_iff_head?]
  cases h : f.compile r with
  | error e' => simp [answers_of_error h]
  | ok q =>
    obtain ⟨-, -, submit⟩ | ⟨-, -, submit⟩ := answers_of_ok gate h <;>
      simp [submit]

/-- The answers of a gate agree: it accepts exactly what it submits, and this is the query of the
filter; submitting fails exactly if there are errors, with the first of them; and nothing is
submitted exactly if a blank filter without errors is rejected. Dialect and logging do not change
any answer. -/
theorem answers_agree (gate : Gate) (f : Filter) (r : Resolver) :
    (gate.accepts f r = true ↔ ∃ q, gate.submit f r = .ok (some q)) ∧
    (∀ q, gate.submit f r = .ok (some q) ↔ gate.accepts f r = true ∧ f.compile r = .ok q) ∧
    ((∃ e, gate.submit f r = .error e) ↔ gate.errors f r ≠ []) ∧
    (∀ e, gate.submit f r = .error e ↔ (gate.errors f r).head? = some e) ∧
    (gate.submit f r = .ok none ↔
      gate.errors f r = [] ∧ f.isBlank = true ∧ gate.policy = .reject) ∧
    (gate.accepts f r = true ↔
      gate.errors f r = [] ∧ (f.isBlank = false ∨ gate.policy = .matchAll)) ∧
    ∀ dialect logSubmits,
      let other : Gate := { gate with dialect, logSubmits }
      other.accepts f r = gate.accepts f r ∧ other.errors f r = gate.errors f r ∧
        other.submit f r = gate.submit f r := by
  refine ⟨⟨fun accepts => ?submitted, ?accepted⟩, fun q => submit_eq_some_iff, ?failed,
    fun e => submit_eq_error_iff, ?nothing, accepts_iff, fun _ _ => ⟨rfl, rfl, rfl⟩⟩
  case submitted =>
    obtain ⟨q, h⟩ := errors_eq_nil_iff.mp (accepts_iff.mp accepts).1
    exact ⟨q, submit_eq_some_iff.mpr ⟨accepts, h⟩⟩
  case accepted =>
    rintro ⟨q, submit⟩
    exact (submit_eq_some_iff.mp submit).1
  case failed =>
    simp only [submit_eq_error_iff]
    rw [← Option.isSome_iff_exists, List.isSome_head?]
  case nothing => rw [submit_eq_none_iff, not_lets_iff]

end Gate
end RecordFilter
