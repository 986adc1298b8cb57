import Mathlib.Data.List.DropRight
import RecordFilter.Proofs.Correspondence

/-!
# The values that comparisons bind

Coercing makes a value one of the property type: texts for text, integers and finite numbers,
truth values, and texts without blanks around them that are dates. `Filter.params_compile` says that
a comparison of a compiled filter binds only such values, as many as its operator takes, and for a
list the values of its items in their order.
-/
namespace RecordFilter

/-- The values that are bound for a property type. -/
inductive PropertyType.Binds : PropertyType → Value → Prop
  | text (s : String) : Binds text (.text s)
  | integer (i : Int64) : Binds number (.int i)
  | float {x : Float} (finite : x.isFinite = true) : Binds number (.float x)
  | bool (b : Bool) : Binds boolean (.bool b)
  | date {s : String} (trimmed : Text.trim s = s) (spelled : Calendar.isDateValue s = true) :
      Binds date (.text s)

theorem Text.dropWhile_trimChars (cs : List Char) :
    (trimChars cs).dropWhile isBlank = trimChars cs := by
  -- Dropping blanks at the end leaves the first character, which is not blank, where it is.
  have front := List.dropWhile_idempotent isBlank cs
  have start : trimChars cs <+: cs.dropWhile isBlank :=
    List.rdropWhile_prefix isBlank (cs.dropWhile isBlank)
  rw [List.dropWhile_eq_self_iff] at front ⊢
  intro pos
  rw [start.getElem pos]
  exact front (Nat.lt_of_lt_of_le pos start.length_le)

theorem Text.trimChars_trimChars (cs : List Char) :
    trimChars (trimChars cs) = trimChars cs := by
  rw [trimChars, dropWhile_trimChars]
  exact List.rdropWhile_idempotent isBlank (cs.dropWhile isBlank)

/-- Trimming twice is trimming once. -/
theorem Text.trim_trim (s : String) : trim (trim s) = trim s := by
  rw [← String.toList_inj, toList_trim, toList_trim, trimChars_trimChars]

/-- A value that is bound is a single one, and a floating-point number among them is finite. -/
theorem PropertyType.Binds.isScalar {type : PropertyType} {v : Value} (h : type.Binds v) :
    v.isScalar = true ∧ ∀ x, v = .float x → x.isFinite = true := by
  cases h with
  | float finite =>
    refine ⟨rfl, fun x same => ?_⟩
    cases same
    exact finite
  | text | integer | bool | date => exact ⟨rfl, nofun⟩

namespace PropertyType

variable {type : PropertyType} {v w : Value} {s : String}

theorem binds_of_numberOf? (h : numberOf? s = some w) : number.Binds w := by
  rw [numberOf?] at h
  split at h
  · cases h
    exact .integer _
  · split at h
    · split at h
      · next finite =>
        cases h
        exact .float finite
      · cases h
    · cases h

theorem binds_of_booleanOf? (h : booleanOf? s = some w) : boolean.Binds w := by
  rw [booleanOf?] at h
  split at h
  · cases h
    exact .bool true
  · cases h
    exact .bool false
  · cases h

theorem binds_of_dateOf? (h : dateOf? s = some w) : date.Binds w := by
  rw [dateOf?] at h
  split at h
  · next spelled =>
    cases h
    exact .date (Text.trim_trim s) spelled
  · cases h

theorem binds_of_ofText? (h : type.ofText? s = some w) : type.Binds w := by
  cases type <;> simp only [ofText?] at h
  case text =>
    cases h
    exact .text s
  case number => exact binds_of_numberOf? h
  case boolean => exact binds_of_booleanOf? h
  case date => exact binds_of_dateOf? h

/-- A coerced value is one that is bound for the type. -/
theorem binds_of_coerce (h : type.coerce v = .ok w) : type.Binds w := by
  cases v with
  | null | list items | json j => cases h
  | text s =>
    simp only [coerce] at h
    split at h
    · next spelled =>
      cases h
      exact binds_of_ofText? spelled
    · cases h
  | bool b =>
    cases type <;> cases h
    · exact .text _
    · exact .bool b
  | int i =>
    cases type <;> cases h
    · exact .text _
    · exact .integer i
  | float x =>
    cases type <;> simp only [coerce] at h
    case text =>
      cases h
      exact .text _
    case number =>
      split at h
      · next finite =>
        cases h
        exact .float finite
      · cases h
    all_goals cases h

end PropertyType

namespace Operator

variable {type : PropertyType} {op : Operator} {v : Value} {ps : List Value}

/-- Only texts have operators with wildcards. -/
theorem wildcard_eq_none_or (mem : op ∈ ofType type) : op.wildcard = none ∨ type = .text := by
  have : ∀ type, ∀ op ∈ ofType type, op.wildcard = none ∨ type = .text := by
    intro type
    cases type <;> decide
  exact this type op mem

theorem patterned_of_plain (plain : op.wildcard = none) : op.patterned v = v := by
  simp only [patterned, plain]

theorem binds_patterned (mem : op ∈ ofType type) (h : type.Binds v) :
    type.Binds (op.patterned v) := by
  obtain plain | rfl := wildcard_eq_none_or mem
  · rwa [patterned_of_plain plain]
  · obtain ⟨s⟩ := h
    cases hw : op.wildcard with
    | none => simpa [patterned, hw] using PropertyType.Binds.text s
    | some w => simpa [patterned, hw] using PropertyType.Binds.text _

/-- The values of a condition are bound for the property type. -/
theorem binds_of_bind (mem : op ∈ ofType type) (h : op.bind type v = .ok ps) :
    ∀ w ∈ ps, type.Binds w := by
  obtain ⟨-, w, hw, rfl⟩ | ⟨-, items, -, -, hps⟩ := bind_eq_ok_iff.mp h
  · intro w' hw'
    rw [List.mem_singleton.mp hw']
    exact binds_patterned mem (PropertyType.binds_of_coerce hw)
  · have each : List.Forall₂ (fun w _ => type.Binds w ∧ True) ps items :=
      ((mapM_eq_ok_iff.mp hps).imp fun _ _ h => ⟨PropertyType.binds_of_coerce h, trivial⟩).flip
    exact ((List.forall₂_and_left ps items).mp each).1

end Operator

/-- The values of a comparison are bound for the property type; those of a list are its items. -/
theorem Condition.binds_params {rt : RecordType} {r : Resolver} {path : Path} {c : Condition}
    {m : Comparison} (h : c.comparison? rt r path = some m) :
    ∃ p, c.Resolves rt r p ∧ (∀ w ∈ m.params, p.type.Binds w) ∧
      (m.op.arity ≠ .scalar → ∃ items, c.value = .list items ∧
        List.Forall₂ (fun v w => p.type.coerce v = .ok w) items m.params) := by
  obtain ⟨-, p, op, params, known, hop, bound, rfl⟩ := comparison?_eq_some_iff.mp h
  have mem := Operator.mem_of_find? hop
  refine ⟨p, safe?_eq_some_iff.mp known, Operator.binds_of_bind mem bound, ?_⟩
  rw [Operator.arity_sql mem]
  intro several
  obtain ⟨scalar, -⟩ | ⟨-, items, hi, -, hps⟩ := Operator.bind_eq_ok_iff.mp bound
  · exact absurd scalar several
  · exact ⟨items, Value.items?_eq_some_iff.mp hi, mapM_eq_ok_iff.mp hps⟩

/-- `BETWEEN` binds two values, `IN` and `NOT IN` those of the items of the list in their order, and
any other comparison one value. They are of the type of the property. -/
theorem Filter.params_compile {f : Filter} {r : Resolver} {q : Query} {m : Comparison}
    (h : f.compile r = .ok q) (hm : m ∈ q.comparisons) :
    ∃ c p, f.condition? m.path = some c ∧ c.Resolves q.recordType r p ∧
      (m.op = .between → m.params.length = 2) ∧
      (m.op = .isIn ∨ m.op = .notIn → ∃ items, c.value = .list items ∧
        1 ≤ m.params.length ∧ m.params.length = items.length ∧
        List.Forall₂ (fun v w => p.type.coerce v = .ok w) items m.params) ∧
      (m.op ≠ .between → m.op ≠ .isIn → m.op ≠ .notIn → m.params.length = 1) ∧
      ∀ w ∈ m.params, p.type.Binds w ∧ w.isScalar = true ∧
        ∀ x, w = .float x → x.isFinite = true := by
  obtain ⟨rt, hrt, errors, rfl⟩ := compile_eq_ok_iff.mp h
  rw [comparisons_query, comparisonsOf, List.mem_filterMap] at hm
  obtain ⟨⟨path, c⟩, hc, hm⟩ := hm
  obtain rfl := Condition.path_of_comparison? hm
  have size := (Condition.length_params hm).1
  obtain ⟨p, known, binds, items⟩ := Condition.binds_params hm
  refine ⟨c, p, mem_conditions.mp hc, known, fun between => ?_, fun isList => ?_, ?_,
    fun w hw => ⟨binds w hw, (binds w hw).isScalar⟩⟩
  · rw [between] at size
    exact size
  · have list : m.op.arity = .list := by rcases isList with same | same <;> rw [same] <;> rfl
    rw [list] at size items
    obtain ⟨items, hi, each⟩ := items (by decide)
    exact ⟨items, hi, size, each.length_eq.symm, each⟩
  · intro notBetween notIn notNotIn
    rw [SqlOp.arity_eq_scalar notBetween notIn notNotIn] at size
    exact size

theorem Filter.params_compile_patchy :
    (Filter.patchy 18 65 "50%").compile .ageAndName =
        .ok ⟨.contact, some (.patchy 18 65 "%50\\%%")⟩ ∧
      ∃ c p, (Filter.patchy 18 65 "50%").condition? ⟨0, 2, 0⟩ = some c ∧
        c.Resolves .contact .ageAndName p ∧ p.type.Binds (.text "%50\\%%") := by
  have compiled : (Filter.patchy 18 65 "50%").compile .ageAndName =
    .ok ⟨.contact, some (.patchy 18 65 "%50\\%%")⟩ := rfl
  obtain ⟨c, p, hc, known, -, -, -, binds⟩ := params_compile compiled
    (List.mem_cons_of_mem _ List.mem_cons_self)
  exact ⟨compiled, c, p, hc, known, (binds _ List.mem_cons_self).1⟩

end RecordFilter
