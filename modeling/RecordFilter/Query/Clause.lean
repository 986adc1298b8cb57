import RecordFilter.Decimal.Numeral
import RecordFilter.Query.Basic

/-!
# Clauses: texts of conditions as a reader takes them

A clause is what the condition of a statement says: which columns are compared how and with what,
and how the comparisons are joined. `Clause.read?` takes the text of a condition apart by its
grammar alone. A clause is one comparison, or two or more clauses in parentheses, all joined by
`AND` or all by `OR`. A comparison is an identifier, an operator, and the placeholders that the
operator wants; a placeholder stands for the bound value at its position.
-/
namespace RecordFilter

/-- A clause; `β` is what is known of the values that a comparison binds. -/
inductive Clause (β : Type) where
  | compare (column : String) (op : SqlOp) (bound : β)
  | all (parts : List (Clause β))
  | any (parts : List (Clause β))

namespace Predicate

variable {β : Type}

mutual

/-- The predicate without tables and paths, and with a view of the bound values. -/
def clause (view : List Value → β) : Predicate → Clause β
  | compare c => .compare c.column c.op (view c.params)
  | all ps => .all (clauses view ps)
  | any ps => .any (clauses view ps)

def clauses (view : List Value → β) : List Predicate → List (Clause β)
  | [] => []
  | p :: ps => clause view p :: clauses view ps

end

theorem clauses_eq_map (view : List Value → β) (ps : List Predicate) :
    clauses view ps = ps.map (clause view) := by
  induction ps with
  | nil => rfl
  | cons p ps ih => rw [clauses, ih, List.map_cons]

end Predicate

/-- How the parts of a clause are joined. -/
inductive Joint where
  | both
  | either

namespace Joint

def text : Joint → String
  | both => " AND "
  | either => " OR "

def clause {β : Type} : Joint → List (Clause β) → Clause β
  | both => .all
  | either => .any

end Joint

namespace Clause

/-- What follows a part of the characters. -/
abbrev Rest (cs : List Char) := { rest : List Char // rest.length < cs.length }

/-- What follows a part of the characters that may be empty. -/
abbrev Tail (cs : List Char) := { rest : List Char // rest.length ≤ cs.length }

/-- The characters after a text that stands in front of them. -/
def after? : (text cs : List Char) → Option (Tail cs)
  | [], cs => some ⟨cs, Nat.le_refl _⟩
  | _ :: _, [] => none
  | t :: text, c :: cs =>
      if t = c then (after? text cs).map fun tail => ⟨tail.1, Nat.le_succ_of_le tail.2⟩ else none

/-- An identifier, bare or quoted. -/
def identifier? (d : Dialect) (cs : List Char) : Option (String × Rest cs) :=
  match h : Sql.takeQuoted d.quote cs with
  | some (name, rest) => some (String.ofList name, ⟨rest, Sql.length_takeQuoted h⟩)
  | none => match cs with
    | [] => none
    | c :: cs =>
        if Sql.isNameChar c then
          some (String.ofList (c :: cs.takeWhile Sql.isNameChar),
            ⟨cs.dropWhile Sql.isNameChar,
              Nat.lt_succ_of_le (List.dropWhile_sublist _).length_le⟩)
        else none

/-- A comparison operator and the blank after it. -/
def operator? (cs : List Char) : Option (SqlOp × Tail cs) :=
  SqlOp.all.findSome? fun op => (after? (op.symbol ++ " ").toList cs).map fun tail => (op, tail)

/-- The position that a placeholder names: its number, or the next one after the `met` placeholders
before it. -/
def mark? (d : Dialect) (met : Nat) (cs : List Char) : Option (Nat × Rest cs) :=
  match cs with
  | [] => none
  | c :: cs => match d with
    | .postgresql =>
        if c = '$' then
          some (Nat.ofDigitChars 10 (cs.takeWhile Char.isDigit) 0,
            ⟨cs.dropWhile Char.isDigit, Nat.lt_succ_of_le (List.dropWhile_sublist _).length_le⟩)
        else none
    | .mysql | .sqlite => if c = '?' then some (met + 1, ⟨cs, Nat.lt_succ_self _⟩) else none

section Bound

variable (d : Dialect) (bound : List Value)

/-- The value of a placeholder. Positions count from one. -/
def value? (met : Nat) (cs : List Char) : Option (Value × Rest cs) := do
  match ← mark? d met cs with
  | (0, _) => none
  | (k + 1, rest) => return (← bound[k]?, rest)

/-- The values of placeholders with commas between them, and how many placeholders are then met. -/
def values? (met : Nat) (cs : List Char) : Option (List Value × Nat × Rest cs) := do
  let (v, ⟨rest, h⟩) ← value? d bound met cs
  match after? ", ".toList rest with
  | none => return ([v], met + 1, ⟨rest, h⟩)
  | some ⟨tail, h₂⟩ => do
      let (vs, met, ⟨rest, h₃⟩) ← values? (met + 1) tail
      return (v :: vs, met, ⟨rest, by omega⟩)
termination_by cs.length

/-- What stands after an operator. -/
def operands? (op : SqlOp) (met : Nat) (cs : List Char) :
    Option (List Value × Nat × Rest cs) :=
  match op with
  | .like | .notLike => do
      let (v, ⟨rest, h⟩) ← value? d bound met cs
      let ⟨tail, h₂⟩ ← after? (" " ++ d.likeEscape).toList rest
      return ([v], met + 1, ⟨tail, by omega⟩)
  | .isIn | .notIn => do
      let ⟨tail, h⟩ ← after? "(".toList cs
      let (vs, met, ⟨rest, h₂⟩) ← values? d bound met tail
      let ⟨tail, h₃⟩ ← after? ")".toList rest
      return (vs, met, ⟨tail, by omega⟩)
  | .between => do
      let (v, ⟨rest, h⟩) ← value? d bound met cs
      let ⟨tail, h₂⟩ ← after? " AND ".toList rest
      let (w, ⟨rest, h₃⟩) ← value? d bound (met + 1) tail
      return ([v, w], met + 2, ⟨rest, by omega⟩)
  | .eq | .notEq | .gt | .lt | .gte | .lte => do
      let (v, rest) ← value? d bound met cs
      return ([v], met + 1, rest)

def comparison? (met : Nat) (cs : List Char) :
    Option (Clause (List Value) × Nat × Rest cs) := do
  let (column, ⟨rest, h⟩) ← identifier? d cs
  let ⟨tail, h₂⟩ ← after? " ".toList rest
  let (op, ⟨tail, h₃⟩) ← operator? tail
  let (vs, met, ⟨rest, h₄⟩) ← operands? d bound op met tail
  return (.compare column op vs, met, ⟨rest, by omega⟩)

def joint? (cs : List Char) : Option (Joint × Tail cs) :=
  [Joint.both, Joint.either].findSome? fun joint =>
    (after? joint.text.toList cs).map fun tail => (joint, tail)

mutual

/-- A clause: parts in parentheses, or a comparison. -/
def clause? (met : Nat) (cs : List Char) : Option (Clause (List Value) × Nat × Rest cs) :=
  match cs with
  | '(' :: inner => do
      let (part, met, ⟨rest, h⟩) ← clause? met inner
      let ⟨tail, h₂⟩ ← after? ")".toList rest
      let (joint, ⟨tail, h₃⟩) ← joint? tail
      let (parts, met, ⟨rest, h₄⟩) ← parts? joint met tail
      return (joint.clause (part :: parts), met, ⟨rest, by simp only [List.length_cons]; omega⟩)
  | cs => comparison? d bound met cs
termination_by cs.length

/-- One or more clauses in parentheses with the text of a joint between them. -/
def parts? (joint : Joint) (met : Nat) (cs : List Char) :
    Option (List (Clause (List Value)) × Nat × Rest cs) :=
  match cs with
  | '(' :: inner => do
      let (part, met, ⟨rest, h⟩) ← clause? met inner
      let ⟨tail, h₂⟩ ← after? ")".toList rest
      match after? joint.text.toList tail with
      | none => return ([part], met, ⟨tail, by simp only [List.length_cons]; omega⟩)
      | some ⟨tail, h₃⟩ => do
          let (parts, met, ⟨rest, h₄⟩) ← parts? joint met tail
          return (part :: parts, met, ⟨rest, by simp only [List.length_cons]; omega⟩)
  | _ => none
termination_by cs.length

end

end Bound

/-- The clause that a whole text is, given the values that are bound with it. Every value must have
a placeholder. -/
def read? (d : Dialect) (text : String) (bound : List Value) : Option (Clause (List Value)) :=
  match clause? d bound 0 text.toList with
  | some (clause, met, ⟨[], _⟩) => if met = bound.length then some clause else none
  | _ => none

end Clause

end RecordFilter
