import RecordFilter.Filter.Basic
import RecordFilter.Operator

/-!
# Predicates

A predicate is what a filter is compiled to: comparisons combined by `all` and `any`. `conj` and
`disj` fold a list of predicates: none of them gives no predicate, and a single one stands for
itself, so that empty parts of a filter vanish.
-/
namespace RecordFilter

/-- A comparison of a column with bound values, and the path of the condition it comes from. -/
structure Comparison where
  table : RecordType
  column : String
  op : SqlOp
  params : List Value
  path : Path

inductive Predicate where
  | compare (c : Comparison)
  | all (parts : List Predicate)
  | any (parts : List Predicate)

namespace Predicate

/-- Combines predicates by `combine` where there are at least two. -/
def fold (combine : List Predicate → Predicate) : List Predicate → Option Predicate
  | [] => none
  | [p] => some p
  | ps => some (combine ps)

/-- What folding gives is a single part that stands for itself, or at least two that are combined. -/
theorem forall_mem_fold {combine : List Predicate → Predicate} {P : Predicate → Prop}
    {ps : List Predicate} (sole : ∀ p ∈ ps, P p) (joined : 2 ≤ ps.length → P (combine ps)) :
    ∀ p ∈ fold combine ps, P p := by
  match ps with
  | [] => simp [fold]
  | [p] => simpa [fold] using sole
  | p :: q :: ps =>
    rintro _ ⟨rfl⟩
    exact joined (by simp)

/-- The predicate that holds if all of them hold. -/
def conj : List Predicate → Option Predicate := fold all

/-- The predicate that holds if one of them holds. -/
def disj : List Predicate → Option Predicate := fold any

mutual

/-- All comparisons, in the order in which they are written. -/
def comparisons : Predicate → List Comparison
  | compare c => [c]
  | all ps | any ps => comparisonsOf ps

def comparisonsOf : List Predicate → List Comparison
  | [] => []
  | p :: ps => comparisons p ++ comparisonsOf ps

end

theorem comparisonsOf_eq_flatMap (ps : List Predicate) :
    comparisonsOf ps = ps.flatMap comparisons := by
  induction ps with
  | nil => simp [comparisonsOf]
  | cons p ps ih => simp [comparisonsOf, ih]

/-- All bound values, in the order in which they are written. -/
def params (p : Predicate) : List Value :=
  p.comparisons.flatMap (·.params)

def paramCount (p : Predicate) : Nat := p.params.length

end Predicate
end RecordFilter
