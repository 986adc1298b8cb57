import RecordFilter.Proofs.Condition
import RecordFilter.Proofs.Sequences

/-!
# How many values a comparison binds

An operator of any property type binds as many values as its comparison in SQL takes: one, two for
`BETWEEN`, and for a list as many as the list has items. `Condition.length_params` carries this over
to the comparison that a condition becomes.
-/
namespace RecordFilter

/-- How many values a comparison of SQL takes. -/
def SqlOp.arity : SqlOp → Arity
  | .between => .pair
  | .isIn | .notIn => .list
  | .eq | .notEq | .gt | .lt | .gte | .lte | .like | .notLike => .scalar

theorem SqlOp.arity_eq_scalar {op : SqlOp} (notBetween : op ≠ .between) (notIn : op ≠ .isIn)
    (notNotIn : op ≠ .notIn) : op.arity = .scalar := by
  cases op with
  | between => exact absurd rfl notBetween
  | isIn => exact absurd rfl notIn
  | notIn => exact absurd rfl notNotIn
  | eq | notEq | gt | lt | gte | lte | like | notLike => rfl

/-- Whether a comparison of SQL can take `n` values. -/
def Arity.Admits (n : Nat) : Arity → Prop
  | scalar => n = 1
  | pair => n = 2
  | list => 1 ≤ n

/-- The number of items of a list; none for any other value. -/
def Value.size? (v : Value) : Option Nat := v.items?.map List.length

namespace Operator

/-- The comparison in SQL takes as many values as the operator. -/
theorem arity_sql {type : PropertyType} {op : Operator} (h : op ∈ ofType type) :
    op.sql.arity = op.arity := by
  have : ∀ type, ∀ op ∈ ofType type, op.sql.arity = op.arity := by
    intro type
    cases type <;> decide
  exact this type op h

theorem mem_of_find? {type : PropertyType} {key : String} {op : Operator}
    (h : find? type key = some op) : op ∈ ofType type :=
  List.mem_of_find?_eq_some h

/-- An operator of one value binds it coerced and with its wildcards; the others bind the items of a
list, coerced in their order. -/
theorem bind_eq_ok_iff {type : PropertyType} {op : Operator} {v : Value} {ps : List Value} :
    op.bind type v = .ok ps ↔
      (op.arity = .scalar ∧ ∃ w, type.coerce v = .ok w ∧ ps = [op.patterned w]) ∨
        (op.arity ≠ .scalar ∧ ∃ items, v.items? = some items ∧ op.arity.Admits items.length ∧
          items.mapM type.coerce = .ok ps) := by
  rw [bind]
  cases op.arity with
  | scalar =>
    cases type.coerce v <;> simp [Bind.bind, Except.bind, pure, Except.pure, eq_comm]
  | pair =>
    cases v.items? with
    | none => simp
    | some items => by_cases two : items.length = 2 <;> simp [Arity.Admits, two]
  | list =>
    cases v.items? with
    | none => simp
    | some items => by_cases none : items = [] <;> simp [Arity.Admits, none, Nat.one_le_iff_ne_zero]

/-- Binding a value gives as many as the operator takes, and for a list one for each item. -/
theorem length_bind {type : PropertyType} {op : Operator} {v : Value} {ps : List Value}
    (h : op.bind type v = .ok ps) : op.arity.Admits ps.length ∧
      (op.arity ≠ .scalar → v.size? = some ps.length) := by
  obtain ⟨scalar, w, -, rfl⟩ | ⟨-, items, hi, admits, hps⟩ := bind_eq_ok_iff.mp h
  · exact ⟨scalar ▸ rfl, fun h => absurd scalar h⟩
  · have same := (mapM_eq_ok_iff.mp hps).length_eq
    rw [Value.size?, hi, ← same]
    exact ⟨admits, fun _ => rfl⟩

end Operator

/-- A comparison binds as many values as its operator takes: for a list, one for each item. -/
theorem Condition.length_params {rt : RecordType} {r : Resolver} {path : Path} {c : Condition}
    {comparison : Comparison} (h : c.comparison? rt r path = some comparison) :
    comparison.op.arity.Admits comparison.params.length ∧
      (comparison.op.arity ≠ .scalar → c.value.size? = some comparison.params.length) := by
  obtain ⟨-, resolved, op, params, -, hop, hbind, rfl⟩ := comparison?_eq_some_iff.mp h
  have arity := Operator.arity_sql (Operator.mem_of_find? hop)
  rw [arity]
  exact Operator.length_bind hbind

end RecordFilter
