import RecordFilter.Query.Basic

/-!
# The meaning of queries

`Predicate.holds` evaluates a predicate when it is known which conditions hold. The laws of `conj`
and `disj` say that combining predicates keeps their meaning, where no predicate at all holds.
-/
namespace RecordFilter

namespace Predicate

mutual

/-- Whether a predicate holds, given the conditions that do. -/
def holds (truth : Path → Bool) : Predicate → Bool
  | compare c => truth c.path
  | all ps => allHold truth ps
  | any ps => anyHolds truth ps

def allHold (truth : Path → Bool) : List Predicate → Bool
  | [] => true
  | p :: ps => holds truth p && allHold truth ps

def anyHolds (truth : Path → Bool) : List Predicate → Bool
  | [] => false
  | p :: ps => holds truth p || anyHolds truth ps

end

theorem allHold_eq_all (truth : Path → Bool) (ps : List Predicate) :
    allHold truth ps = ps.all (holds truth) := by
  induction ps with
  | nil => rfl
  | cons p ps ih => simp [allHold, ih]

theorem anyHolds_eq_any (truth : Path → Bool) (ps : List Predicate) :
    anyHolds truth ps = ps.any (holds truth) := by
  induction ps with
  | nil => rfl
  | cons p ps ih => simp [anyHolds, ih]

theorem holds_conj (truth : Path → Bool) (ps : List Predicate) :
    (conj ps).all (holds truth) = ps.all (holds truth) := by
  match ps with
  | [] => rfl
  | [p] => simp [conj, fold]
  | p :: q :: ps => simp [conj, fold, holds, allHold_eq_all]

theorem holds_disj (truth : Path → Bool) (ps : List Predicate) :
    (disj ps).all (holds truth) = (ps.isEmpty || ps.any (holds truth)) := by
  match ps with
  | [] => rfl
  | [p] => simp [disj, fold]
  | p :: q :: ps => simp [disj, fold, holds, anyHolds_eq_any]

end Predicate

/-- Whether a query asks for the record, given the conditions that hold of it. -/
def Query.holds (truth : Path → Bool) (q : Query) : Bool :=
  q.predicate.all (Predicate.holds truth)

end RecordFilter
