import RecordFilter.Query.Predicate
import RecordFilter.Sql.Builder

/-!
# Queries

A query asks for the records of one type that satisfy a predicate, or for all of them if there is
none. Each part of `all` and `any` is written in parentheses, so that the meaning of the text never
depends on precedence.
-/
namespace RecordFilter

open Sql (Builder)

/-- Writes a comparison: the column, the operator, and the placeholders of its values. -/
def Comparison.write (c : Comparison) (b : Builder) : Builder :=
  let b := (b.pushIdentifier c.column).push " "
  match c.op with
  | .like | .notLike =>
      (((b.push c.op.symbol).push " ").pushParams c.params).push (" " ++ b.dialect.likeEscape)
  | .isIn | .notIn =>
      (((b.push c.op.symbol).push " (").pushParams c.params).push ")"
  | .between => (b.push "BETWEEN ").pushJoined " AND " c.params
  | .eq | .notEq | .gt | .lt | .gte | .lte =>
      ((b.push c.op.symbol).push " ").pushParams c.params

namespace Predicate

mutual

def write (b : Builder) : Predicate → Builder
  | compare c => c.write b
  | all ps => writeJoined " AND " b ps
  | any ps => writeJoined " OR " b ps

/-- Writes predicates in parentheses with `separator` between them. -/
def writeJoined (separator : String) (b : Builder) : List Predicate → Builder
  | [] => b
  | [p] => (write (b.push "(") p).push ")"
  | p :: ps => writeJoined separator (((write (b.push "(") p).push ")").push separator) ps

end

end Predicate

/-- A query: the record type, and the predicate if there is one. -/
structure Query where
  recordType : RecordType
  predicate : Option Predicate

namespace Query

/-- Whether the query asks for all records. -/
def isEmpty (q : Query) : Bool := q.predicate.isNone

def comparisons (q : Query) : List Comparison :=
  match q.predicate with
  | some p => p.comparisons
  | none => []

/-- The number of comparisons. -/
def predicateCount (q : Query) : Nat := q.comparisons.length

def paramCount (q : Query) : Nat :=
  match q.predicate with
  | some p => p.paramCount
  | none => 0

/-- Appends the columns not yet listed. -/
def addColumns (listed : List String) (cs : List Comparison) : List String :=
  cs.foldl (fun listed c => if c.column ∈ listed then listed else listed ++ [c.column]) listed

/-- The columns in the order of their first use, each once. -/
def columns (q : Query) : List String := addColumns [] q.comparisons

/-- The condition of the statement; empty without a predicate. -/
def whereClause (q : Query) (d : Dialect) : Builder :=
  match q.predicate with
  | some p => p.write (Builder.start d)
  | none => Builder.start d

/-- The whole statement. -/
def select (q : Query) (d : Dialect) : Builder :=
  let b := ((Builder.start d).push "SELECT * FROM ").pushIdentifier q.recordType.table
  match q.predicate with
  | some p => p.write (b.push " WHERE ")
  | none => b

end Query

end RecordFilter
