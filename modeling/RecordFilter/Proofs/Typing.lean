import Mathlib
import RecordFilter.Proofs.Binding
import RecordFilter.Proofs.Diagnosis
import RecordFilter.Proofs.Numerals

/-!
# Well-typed filters

When a filter is well typed is said here without the compiler: which columns can be written, which
values a property type accepts, and which shape of value an operator takes. `compile` gives a query
for exactly the well-typed filters, and otherwise the error of the first condition that is ill
typed, of the kind of the first rule that it breaks.
-/
namespace RecordFilter

/-- An ASCII letter or the underscore. -/
def Sql.IsNameStart (c : Char) : Prop := 'A' ≤ c ∧ c ≤ 'Z' ∨ 'a' ≤ c ∧ c ≤ 'z' ∨ c = '_'

/-- A name of ASCII letters, digits and underscores without a digit in front, of at most 63 bytes. -/
def Sql.IsName (name : String) : Prop :=
  ∃ c cs, name.toList = c :: cs ∧ IsNameStart c ∧
    (∀ d ∈ cs, IsNameStart d ∨ '0' ≤ d ∧ d ≤ '9') ∧ name.utf8ByteSize ≤ 63

/-- The values that a property type accepts. -/
inductive PropertyType.Accepts : PropertyType → Value → Prop
  | textBool (b : Bool) : Accepts text (.bool b)
  | textInteger (i : Int64) : Accepts text (.int i)
  | textFloat (x : Float) : Accepts text (.float x)
  | textText (s : String) : Accepts text (.text s)
  | integer (i : Int64) : Accepts number (.int i)
  | float {x : Float} (finite : x.isFinite = true) : Accepts number (.float x)
  | integerText {s : String} {i : Int64}
      (spelled : Decimal.SpellsInteger (Text.trim s).toList i) : Accepts number (.text s)
  | floatText {s : String} {n : Decimal.Numeral}
      (spelled : Decimal.SpellsNumeral (Text.trim s).toList n)
      (finite : n.toFloat.isFinite = true) : Accepts number (.text s)
  | bool (b : Bool) : Accepts boolean (.bool b)
  | boolText {s : String} (b : Bool)
      (spelled : Text.sameLetters (Text.trim s) (if b then "true" else "false") = true) :
      Accepts boolean (.text s)
  | dateText {s : String} (spelled : Calendar.isDateValue (Text.trim s) = true) :
      Accepts date (.text s)

/-- The values that have the shape of an arity and parts that are accepted. -/
inductive Arity.Takes (accepted : Value → Prop) : Arity → Value → Prop
  | scalar {v : Value} (h : accepted v) : Takes accepted scalar v
  | pair {v w : Value} (hv : accepted v) (hw : accepted w) : Takes accepted pair (.list [v, w])
  | list {vs : List Value} (nonempty : vs ≠ []) (h : ∀ v ∈ vs, accepted v) :
      Takes accepted list (.list vs)

/-- The metadata of the property of a condition, whose column can be written. -/
def Condition.Resolves (rt : RecordType) (r : Resolver) (c : Condition) (p : ResolvedProperty) :
    Prop :=
  r rt (Text.trim c.property) = some p ∧ Sql.IsName p.column

/-- The operator of a condition, one of those of the property type. -/
def Condition.Names (c : Condition) (type : PropertyType) (op : Operator) : Prop :=
  op ∈ Operator.ofType type ∧ op.key = Text.trim c.operator

/-- The property is known, its type has the operator, and the operator takes the value. -/
def Condition.WellTyped (rt : RecordType) (r : Resolver) (c : Condition) : Prop :=
  ∃ p op, c.Resolves rt r p ∧ c.Names p.type op ∧ op.arity.Takes p.type.Accepts c.value

/-- The filter has a record type, and all of its complete conditions are well typed. -/
def Filter.WellTyped (r : Resolver) (f : Filter) : Prop :=
  ∃ rt, f.recordType = some rt ∧
    ∀ p c, f.condition? p = some c → c.isComplete = true → c.WellTyped rt r

/-- The error for the first of the three rules that a condition at a path breaks. -/
inductive Condition.Breaks (rt : RecordType) (r : Resolver) (path : Path) (c : Condition) :
    CompileError → Prop
  | property (unknown : ∀ p, ¬c.Resolves rt r p) :
      Breaks rt r path c (.unknownProperty path (Text.trim c.property))
  | operator {p : ResolvedProperty} (known : c.Resolves rt r p)
      (unknown : ∀ op, ¬c.Names p.type op) :
      Breaks rt r path c (.unknownOperator path (Text.trim c.property) (Text.trim c.operator))
  | value {p : ResolvedProperty} {op : Operator} (known : c.Resolves rt r p)
      (named : c.Names p.type op) (refused : ¬op.arity.Takes p.type.Accepts c.value)
      (fault : ValueFault) :
      Breaks rt r path c (.invalidValue path (Text.trim c.property) fault)

/-- The error of a missing record type, or that of the first complete condition which is not well
typed. -/
inductive Filter.Breaks (r : Resolver) (f : Filter) : CompileError → Prop
  | recordType (missing : f.recordType = none) : Breaks r f .emptyRecordType
  | condition {rt : RecordType} {p : Path} {c : Condition} {e : CompileError}
      (recordType : f.recordType = some rt) (found : f.condition? p = some c)
      (complete : c.isComplete = true) (broken : c.Breaks rt r p e)
      (first : ∀ q d, q < p → f.condition? q = some d → d.isComplete = true → d.WellTyped rt r) :
      Breaks r f e

section Columns

theorem Sql.isNameStart_iff {c : Char} : IsNameStart c ↔ (c.isAlpha || c == '_') = true := by
  simp [IsNameStart, Char.isAlpha, Char.isUpper, Char.isLower, or_assoc, Char.le_def]

theorem Sql.isNameChar_iff {c : Char} :
    isNameChar c = true ↔ IsNameStart c ∨ '0' ≤ c ∧ c ≤ '9' := by
  rw [isNameStart_iff]
  simp only [isNameChar, Char.isAlphanum, Char.isDigit, Bool.or_eq_true, Bool.and_eq_true,
    decide_eq_true_eq, Char.le_def]
  tauto

/-- The names that `isSafe` accepts are those of the grammar. -/
theorem Sql.isSafe_iff {name : String} : isSafe name = true ↔ IsName name := by
  rw [isSafe, IsName]
  cases name.toList with
  | nil => simp
  | cons c cs =>
    simp only [Bool.and_eq_true, decide_eq_true_eq, ← isNameStart_iff, List.all_eq_true,
      isNameChar_iff]
    constructor
    · rintro ⟨⟨start, size⟩, rest⟩
      exact ⟨c, cs, rfl, start, rest, size⟩
    · rintro ⟨c, cs, ⟨rfl, rfl⟩, start, rest, size⟩
      exact ⟨⟨start, size⟩, rest⟩

theorem Condition.safe?_eq_some_iff {rt : RecordType} {r : Resolver} {c : Condition}
    {p : ResolvedProperty} : r.safe? rt (Text.trim c.property) = some p ↔ c.Resolves rt r p := by
  rw [Resolver.safe?, Option.filter_eq_some_iff, Sql.isSafe_iff, Resolves]

end Columns

section Values

variable {type : PropertyType} {v : Value}

theorem Value.items?_eq_some_iff {items : List Value} :
    v.items? = some items ↔ v = .list items := by
  cases v <;> simp [items?]

namespace PropertyType

theorem exists_numberOf?_iff {s : String} :
    (∃ w, numberOf? s = some w) ↔ number.Accepts (.text s) := by
  constructor
  · rintro ⟨w, h⟩
    rw [numberOf?] at h
    cases hi : Decimal.readInteger? (Text.trim s) with
    | some i => exact .integerText (Decimal.readInteger?_eq_some_iff.mp hi)
    | none =>
      cases hx : Decimal.readFloat? (Text.trim s) with
      | none => simp [hi, hx] at h
      | some x =>
        simp only [hi, hx] at h
        split at h
        · next finite =>
          obtain ⟨⟨n, spelled, rfl⟩, -⟩ := Decimal.readFloat?_isFinite_iff.mp ⟨hx, finite⟩
          exact .floatText spelled finite
        · cases h
  · intro h
    rw [numberOf?]
    cases hi : Decimal.readInteger? (Text.trim s) with
    | some i => exact ⟨_, rfl⟩
    | none =>
      cases h with
      | integerText spelled =>
        rw [Decimal.readInteger?_eq_some_iff.mpr spelled] at hi
        cases hi
      | floatText spelled finite =>
        obtain ⟨read, -⟩ := Decimal.readFloat?_isFinite_iff.mpr ⟨⟨_, spelled, rfl⟩, finite⟩
        simp only [read, if_pos finite]
        exact ⟨_, rfl⟩

theorem sameLetters_iff {t : String} {b : Bool} :
    Text.sameLetters t (if b then "true" else "false") = true ↔
      Text.lowerAscii t = if b then "true" else "false" := by
  have low : Text.lowerAscii (if b then "true" else "false") = if b then "true" else "false" := by
    cases b <;> cbv
  rw [Text.sameLetters, beq_iff_eq, low]

theorem exists_booleanOf?_iff {s : String} :
    (∃ w, booleanOf? s = some w) ↔ boolean.Accepts (.text s) := by
  constructor
  · rintro ⟨w, h⟩
    rw [booleanOf?] at h
    split at h
    · next low => exact .boolText true (sameLetters_iff.mpr low)
    · next low => exact .boolText false (sameLetters_iff.mpr low)
    · cases h
  · intro h
    cases h with
    | boolText b spelled =>
      rw [booleanOf?, sameLetters_iff.mp spelled]
      cases b with
      | true => exact ⟨_, rfl⟩
      | false => exact ⟨_, rfl⟩

theorem exists_dateOf?_iff {s : String} :
    (∃ w, dateOf? s = some w) ↔ date.Accepts (.text s) := by
  constructor
  · rintro ⟨w, h⟩
    rw [dateOf?] at h
    split at h
    · next spelled => exact .dateText spelled
    · cases h
  · intro h
    cases h with
    | dateText spelled =>
      rw [dateOf?, if_pos spelled]
      exact ⟨_, rfl⟩

theorem exists_ofText?_iff {s : String} :
    (∃ w, type.ofText? s = some w) ↔ type.Accepts (.text s) := by
  cases type <;> simp only [ofText?]
  case text => exact ⟨fun _ => .textText s, fun _ => ⟨_, rfl⟩⟩
  case number => exact exists_numberOf?_iff
  case boolean => exact exists_booleanOf?_iff
  case date => exact exists_dateOf?_iff

/-- A value is coerced exactly if the type accepts it. -/
theorem exists_coerce_iff : (∃ w, type.coerce v = .ok w) ↔ type.Accepts v := by
  cases v with
  | text s =>
    rw [← exists_ofText?_iff]
    cases h : type.ofText? s <;> simp [coerce, h]
  | null | list items | json j =>
    constructor
    · rintro ⟨w, h⟩
      cases h
    · intro h
      cases h
  | bool b =>
    cases type <;> simp only [coerce]
    case text => exact ⟨fun _ => .textBool b, fun _ => ⟨_, rfl⟩⟩
    case boolean => exact ⟨fun _ => .bool b, fun _ => ⟨_, rfl⟩⟩
    all_goals exact ⟨nofun, nofun⟩
  | int i =>
    cases type <;> simp only [coerce]
    case text => exact ⟨fun _ => .textInteger i, fun _ => ⟨_, rfl⟩⟩
    case number => exact ⟨fun _ => .integer i, fun _ => ⟨_, rfl⟩⟩
    all_goals exact ⟨nofun, nofun⟩
  | float x =>
    cases type <;> simp only [coerce]
    case text => exact ⟨fun _ => .textFloat x, fun _ => ⟨_, rfl⟩⟩
    case number =>
      cases finite : x.isFinite with
      | true => exact ⟨fun _ => .float finite, fun _ => ⟨_, rfl⟩⟩
      | false => exact ⟨nofun, fun h => by cases h; simp_all⟩
    all_goals exact ⟨nofun, nofun⟩

end PropertyType

/-- Arities but the scalar one take a list of as many accepted items as they admit. -/
theorem Arity.takes_iff {accepted : Value → Prop} {a : Arity} : a.Takes accepted v ↔
    (a = scalar ∧ accepted v) ∨ (a ≠ scalar ∧ ∃ items, v.items? = some items ∧
      a.Admits items.length ∧ ∀ w ∈ items, accepted w) := by
  simp only [Value.items?_eq_some_iff]
  constructor
  · rintro (h | ⟨hv, hw⟩ | ⟨nonempty, h⟩)
    · exact .inl ⟨rfl, h⟩
    · exact .inr ⟨nofun, _, rfl, rfl, by simp [hv, hw]⟩
    · exact .inr ⟨nofun, _, rfl, List.length_pos_iff.mpr nonempty, h⟩
  · rintro (⟨rfl, h⟩ | ⟨several, items, rfl, admits, h⟩)
    · exact .scalar h
    · cases a with
      | scalar => exact absurd rfl several
      | pair =>
        obtain ⟨v, w, rfl⟩ := List.length_eq_two.mp admits
        exact .pair (h v (by simp)) (h w (by simp))
      | list => exact .list (List.length_pos_iff.mp admits) h

/-- A value is bound exactly if it has the shape that the operator takes. -/
theorem Operator.exists_bind_iff {op : Operator} :
    (∃ ps, op.bind type v = .ok ps) ↔ op.arity.Takes type.Accepts v := by
  simp only [bind_eq_ok_iff, Arity.takes_iff, ← PropertyType.exists_coerce_iff,
    mapM_eq_ok_iff, ← exists_forall₂_iff]
  constructor
  · rintro ⟨ps, ⟨scalar, w, hw, -⟩ | ⟨several, items, hi, admits, hps⟩⟩
    · exact .inl ⟨scalar, w, hw⟩
    · exact .inr ⟨several, items, hi, admits, ps, hps⟩
  · rintro (⟨scalar, w, hw⟩ | ⟨several, items, hi, admits, ps, hps⟩)
    · exact ⟨_, .inl ⟨scalar, w, hw, rfl⟩⟩
    · exact ⟨ps, .inr ⟨several, items, hi, admits, hps⟩⟩

end Values

section Operators

variable {type : PropertyType}

/-- The operators of a property type differ in their keys. -/
theorem Operator.find?_key {op : Operator} (h : op ∈ ofType type) :
    find? type op.key = some op := by
  have : ∀ type, ∀ op ∈ ofType type, find? type op.key = some op := by
    intro type
    cases type <;> decide
  exact this type op h

theorem Condition.find?_eq_some_iff {c : Condition} {op : Operator} :
    Operator.find? type (Text.trim c.operator) = some op ↔ c.Names type op := by
  constructor
  · intro h
    have mem := Operator.mem_of_find? h
    have key := List.find?_some h
    exact ⟨mem, by simpa using key⟩
  · rintro ⟨mem, key⟩
    rw [← key]
    exact Operator.find?_key mem

end Operators

namespace Condition

variable {rt : RecordType} {r : Resolver} {path : Path} {c : Condition} {p : ResolvedProperty}
  {op : Operator}

/-- A complete condition is not wrong exactly if it is well typed. -/
theorem error?_eq_none_iff (complete : c.isComplete = true) :
    c.error? rt r path = none ↔ c.WellTyped rt r := by
  have becomes := @comparison?_eq_some_iff rt r path c
  simp only [complete, true_and, safe?_eq_some_iff, find?_eq_some_iff] at becomes
  constructor
  · intro h
    have some := isSome_comparison? h
    rw [complete, Option.isSome_iff_exists] at some
    obtain ⟨comparison, hc⟩ := some
    obtain ⟨p, op, ps, known, named, bound, -⟩ := becomes.mp hc
    exact ⟨p, op, known, named, Operator.exists_bind_iff.mp ⟨ps, bound⟩⟩
  · rintro ⟨p, op, known, named, takes⟩
    obtain ⟨ps, bound⟩ := Operator.exists_bind_iff.mpr takes
    exact error?_of_comparison? (becomes.mpr ⟨p, op, ps, known, named, bound, rfl⟩)

/-- A complete condition whose property and operator are known compiles to what binding its value
gives. -/
theorem compile_eq_bind (complete : c.isComplete = true) (known : c.Resolves rt r p)
    (named : c.Names p.type op) : c.compile rt r path = match op.bind p.type c.value with
      | .error fault => .error (.invalidValue path (Text.trim c.property) fault)
      | .ok params => .ok (some ⟨rt, p.column, op.sql, params, path⟩) := by
  rw [← safe?_eq_some_iff] at known
  rw [← find?_eq_some_iff] at named
  cases bound : op.bind p.type c.value with
  | error fault => exact (Compiles.invalidValue complete known named bound).compile_eq
  | ok params => exact (Compiles.compared complete known named bound).compile_eq

/-- A complete condition whose property and operator are known becomes the comparison with the
values that the operator binds. -/
theorem comparison?_eq_some_iff_bind (complete : c.isComplete = true) (known : c.Resolves rt r p)
    (named : c.Names p.type op) {m : Comparison} : c.comparison? rt r path = some m ↔
      ∃ params, op.bind p.type c.value = .ok params ∧ m = ⟨rt, p.column, op.sql, params, path⟩ := by
  rw [comparison?, compile_eq_bind complete known named]
  cases op.bind p.type c.value <;> simp [eq_comm]

theorem compile_eq_ok_iff_coerce (complete : c.isComplete = true) (known : c.Resolves rt r p)
    (named : c.Names p.type op) (scalar : op.arity = .scalar) {m : Comparison} :
    c.compile rt r path = .ok (some m) ↔ ∃ w, p.type.coerce c.value = .ok w ∧
      m = ⟨rt, p.column, op.sql, [op.patterned w], path⟩ := by
  rw [compile_eq_ok_some_iff, comparison?_eq_some_iff_bind complete known named]
  simp only [Operator.bind_eq_ok_iff, scalar]
  simp

/-- The error of a condition is that of the first rule that it breaks. -/
theorem breaks_of_error? {e : CompileError} (h : c.error? rt r path = some e) :
    c.isComplete = true ∧ c.Breaks rt r path e := by
  rw [error?_eq_some_iff] at h
  obtain ⟨complete, ⟨unknown, rfl⟩ | ⟨p, known, ⟨unknown, rfl⟩ | ⟨op, fault, named, bound, rfl⟩⟩⟩ := h
  · refine ⟨complete, .property fun p known => ?_⟩
    rw [← safe?_eq_some_iff, unknown] at known
    cases known
  · rw [safe?_eq_some_iff] at known
    refine ⟨complete, .operator known fun op named => ?_⟩
    rw [← find?_eq_some_iff, unknown] at named
    cases named
  · rw [safe?_eq_some_iff] at known
    rw [find?_eq_some_iff] at named
    refine ⟨complete, .value known named (fun takes => ?_) fault⟩
    obtain ⟨ps, ok⟩ := Operator.exists_bind_iff.mpr takes
    rw [ok] at bound
    cases bound

end Condition

namespace Filter

variable {f : Filter} {rt : RecordType} {r : Resolver}

theorem errorsOf_eq_nil_iff : errorsOf rt r f.conditions = [] ↔
    ∀ p c, f.condition? p = some c → c.isComplete = true → c.WellTyped rt r := by
  simp only [errorsOf, List.filterMap_eq_nil_iff, Prod.forall, mem_conditions]
  refine forall₃_congr fun p c found => ?_
  cases complete : c.isComplete with
  | true => simp [Condition.error?_eq_none_iff complete]
  | false => simp [Condition.error?_of_not_isComplete complete]

/-- The first error is that of a condition before which no condition is wrong. -/
theorem exists_first_of_head?_errorsOf {e : CompileError}
    (h : (errorsOf rt r f.conditions).head? = some e) :
    ∃ p c, f.condition? p = some c ∧ c.error? rt r p = some e ∧
      ∀ q d, q < p → f.condition? q = some d → d.error? rt r q = none := by
  rw [errorsOf, List.head?_filterMap, List.findSome?_eq_some_iff] at h
  obtain ⟨before, ⟨p, c⟩, after, split, error, none⟩ := h
  have order := f.pairwise_conditions
  rw [split, List.pairwise_append, List.pairwise_cons] at order
  have found : (p, c) ∈ f.conditions := by simp [split]
  refine ⟨p, c, mem_conditions.mp found, error, fun q d lt hq => ?_⟩
  -- A condition at a smaller path stands before the split, because the paths are in order.
  rw [← mem_conditions, split, List.mem_append, List.mem_cons] at hq
  rcases hq with earlier | same | later
  · exact none (q, d) earlier
  · obtain rfl : q = p := congrArg Prod.fst same
    exact absurd lt (Path.lt_asymm lt)
  · exact absurd (order.2.1.1 (q, d) later) (Path.lt_asymm lt)

theorem exists_compile_iff_wellTyped : (∃ q, f.compile r = .ok q) ↔ f.WellTyped r := by
  constructor
  · rintro ⟨q, h⟩
    obtain ⟨rt, hrt, none, -⟩ := compile_eq_ok_iff.mp h
    exact ⟨rt, hrt, errorsOf_eq_nil_iff.mp none⟩
  · rintro ⟨rt, hrt, typed⟩
    exact ⟨_, compile_of_errorsOf_eq_nil hrt (errorsOf_eq_nil_iff.mpr typed)⟩

theorem breaks_of_compile_eq_error {e : CompileError} (h : f.compile r = .error e) :
    f.Breaks r e := by
  cases hrt : f.recordType with
  | none =>
    rw [compile_of_none hrt] at h
    cases h
    exact .recordType hrt
  | some rt =>
    rw [compile_eq_error_iff hrt] at h
    obtain ⟨p, c, found, error, first⟩ := exists_first_of_head?_errorsOf h
    obtain ⟨complete, broken⟩ := Condition.breaks_of_error? error
    refine .condition hrt found complete broken fun q d lt hq complete => ?_
    exact (Condition.error?_eq_none_iff complete).mp (first q d lt hq)

end Filter

/-- The well-typed filters are those that compile. Any other filter gives the error of its missing
record type, or else of its first complete condition that is not well typed. -/
theorem Filter.compile_wellTyped (f : Filter) (r : Resolver) :
    ((∃ q, f.compile r = .ok q) ↔ f.WellTyped r) ∧
      (¬f.WellTyped r → ∃ e, f.compile r = .error e ∧ f.Breaks r e) := by
  refine ⟨exists_compile_iff_wellTyped, fun illTyped => ?_⟩
  cases h : f.compile r with
  | ok q => exact absurd (exists_compile_iff_wellTyped.mp ⟨q, h⟩) illTyped
  | error e => exact ⟨e, rfl, breaks_of_compile_eq_error h⟩

/-- Ages are texts, for which there is no `between`, and names are not known. -/
def Resolver.ageAsText : Resolver := .ofTypes fun _ key => if key = "age" then some .text else none

theorem Filter.compile_wellTyped_patchy :
    ¬(Filter.patchy 18 65 "50%").WellTyped .ageAsText ∧
      (Filter.patchy 18 65 "50%").Breaks .ageAsText
        (.unknownOperator ⟨0, 0, 0⟩ "age" "between") := by
  have error : (Filter.patchy 18 65 "50%").compile .ageAsText =
    .error (.unknownOperator ⟨0, 0, 0⟩ "age" "between") := rfl
  obtain ⟨typed, broken⟩ := compile_wellTyped (.patchy 18 65 "50%") .ageAsText
  have illTyped : ¬(Filter.patchy 18 65 "50%").WellTyped .ageAsText := by
    intro h
    obtain ⟨q, hq⟩ := typed.mpr h
    cases error.symm.trans hq
  obtain ⟨e, he, breaks⟩ := broken illTyped
  cases error.symm.trans he
  exact ⟨illTyped, breaks⟩

end RecordFilter
