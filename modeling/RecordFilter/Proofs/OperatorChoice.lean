import RecordFilter.Proofs.InPlace

/-!
# Choosing another operator

A condition keeps its value if the operator chosen takes as many values as the one before. The two
are told by their texts as written, and no key has blanks around it. So this holds of texts that are
keys, but compiling also takes texts with blanks around a key. These count here as operators of no
known arity: the value goes if one of the two texts has blanks, whatever the operators take, and
stays if both have (`Filter.setOperator_of_keys`).
-/
namespace RecordFilter

namespace Operator

variable {type : PropertyType} {op : Operator} {s : String} {arity : Arity}

/-- No key has blanks around it. -/
theorem trim_key (member : op ∈ ofType type) : Text.trim op.key = op.key := by
  have all : ∀ type, ∀ op ∈ ofType type, Text.trim op.key = op.key := by
    intro type; cases type <;> decide
  exact all type op member

theorem trim_of_arityOfKey? (known : arityOfKey? s = some arity) : Text.trim s = s := by
  obtain ⟨op, found, -⟩ := Option.map_eq_some_iff.mp known
  obtain ⟨type, -, member⟩ := List.mem_flatMap.mp (List.mem_of_find?_eq_some found)
  have key : op.key = s := by simpa using List.find?_some found
  rw [← key]
  exact trim_key member

/-- With blanks around it a key names no operator. -/
theorem arityOfKey?_of_trim (member : op ∈ ofType type) (named : Text.trim s = op.key) :
    arityOfKey? s = if s = op.key then some op.arity else none := by
  by_cases written : s = op.key
  · rw [if_pos written, written]
    exact arityOfKey?_key member
  · rw [if_neg written, Option.eq_none_iff_forall_ne_some]
    intro arity known
    exact written ((trim_of_arityOfKey? known).symm.trans named)

end Operator

/-- The value that is left when another operator is chosen, for texts that name operators. -/
theorem Condition.withOperator_of_keys {c : Condition} {operator : String}
    {t t' : PropertyType} {old new : Operator} (before : old ∈ Operator.ofType t)
    (after : new ∈ Operator.ofType t') (named : Text.trim c.operator = old.key)
    (chosen : Text.trim operator = new.key) : c.withOperator operator =
      ⟨c.property, operator,
        if c.operator = old.key ∧ operator = new.key then
          if old.arity = new.arity then c.value else .null
        else if c.operator = old.key ∨ operator = new.key then .null
        else c.value⟩ := by
  rw [withOperator, Operator.arityOfKey?_of_trim before named,
    Operator.arityOfKey?_of_trim after chosen]
  by_cases written : c.operator = old.key <;> by_cases writtenNew : operator = new.key <;>
    simp [written, writtenNew]

namespace Filter

/-- Another operator is chosen, by texts that name operators once blanks are trimmed: the text is
stored as it is, and nothing else changes but perhaps the value of the condition. Between two keys
the value stays if the operators are of one arity and goes if not. It goes between a key and a text
with blanks, and stays between two texts with blanks. -/
theorem setOperator_of_keys {f : Filter} {p : Path} {c : Condition} {operator : String}
    {t t' : PropertyType} {old new : Operator} (found : f.condition? p = some c)
    (before : old ∈ Operator.ofType t) (after : new ∈ Operator.ofType t')
    (named : Text.trim c.operator = old.key) (chosen : Text.trim operator = new.key) :
    ∃ f', f.setOperator p operator = .ok f' ∧ f'.shape = f.shape ∧ f'.recordType = f.recordType ∧
      (∀ q, q ≠ p → f'.condition? q = f.condition? q) ∧
      f'.condition? p = some ⟨c.property, operator,
        if c.operator = old.key ∧ operator = new.key then
          if old.arity = new.arity then c.value else .null
        else if c.operator = old.key ∨ operator = new.key then .null
        else c.value⟩ := by
  have stands : (f.condition? p).isSome := Option.isSome_iff_exists.mpr ⟨c, found⟩
  have sets : (Edit.setOperator p operator).sets? = some p := rfl
  have applied := Edit.apply_of_sets sets stands
  refine ⟨_, applied, f.shape_modifyCondition p _, rfl,
    fun q => f.condition?_modifyCondition_of_ne, ?_⟩
  rw [f.condition?_modifyCondition_self, found]
  exact congrArg some (Condition.withOperator_of_keys before after named chosen)

/-- Two numbers are left as the value of an operator that takes one. -/
theorem setOperator_of_keys_padded :
    let f : Filter := ⟨some .contact, [⟨[⟨[⟨"age", " between ", .list [.int 18, .int 65]⟩]⟩]⟩]⟩
    ∃ f', f.setOperator ⟨0, 0, 0⟩ " greaterThan " = .ok f' ∧ f'.shape = [[1]] ∧
      f'.condition? ⟨0, 0, 0⟩ = some ⟨"age", " greaterThan ", .list [.int 18, .int 65]⟩ := by
  intro f
  have before : ⟨"between", "Between", .pair, .between, none⟩ ∈ Operator.ofType .number := by decide
  have after : ⟨"greaterThan", "Greater than", .scalar, .gt, none⟩ ∈ Operator.ofType .number := by
    decide
  have found : f.condition? ⟨0, 0, 0⟩ = some ⟨"age", " between ", .list [.int 18, .int 65]⟩ := rfl
  have chosen : Text.trim " greaterThan " = "greaterThan" := by decide
  obtain ⟨f', applied, shape, -, -, here⟩ :=
    setOperator_of_keys found before after (by decide) chosen
  exact ⟨f', applied, shape, here⟩

/-- The arities alone do not tell whether the value stays. It goes when `contains` is chosen after
`equals` with blanks around it, though each takes one value. -/
theorem not_setOperator_of_arities : ¬∀ (f : Filter) (p : Path) (c : Condition)
    (operator : String) (t t' : PropertyType) (old new : Operator), f.condition? p = some c →
    old ∈ Operator.ofType t → new ∈ Operator.ofType t' → Text.trim c.operator = old.key →
    Text.trim operator = new.key → ∃ f', f.setOperator p operator = .ok f' ∧
      f'.condition? p = some ⟨c.property, operator,
        if old.arity = new.arity then c.value else .null⟩ := by
  intro stays
  let c : Condition := ⟨"name", " equals ", .text "Acme"⟩
  have before : ⟨"equals", "Equals", .scalar, .eq, none⟩ ∈ Operator.ofType .text := by decide
  have after : ⟨"contains", "Contains", .scalar, .like, some .contains⟩ ∈
      Operator.ofType .text := by decide
  obtain ⟨f', applied, kept⟩ := stays ⟨some .contact, [⟨[⟨[c]⟩]⟩]⟩ ⟨0, 0, 0⟩ c "contains" .text
    .text _ _ rfl before after (by decide) (by decide)
  cases applied
  cases kept

end Filter
end RecordFilter
