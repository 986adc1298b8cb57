import RecordFilter.Compile.Basic

/-!
# What one condition compiles to

A condition is incomplete, wrong, or becomes a comparison. `Condition.Compiles` lists the cases, and
the other lemmas are read off from it: `Condition.comparison?_eq_some_iff` says when a condition
becomes which comparison, and `Condition.error?_eq_some_iff` when it is wrong for which reason.
-/
namespace RecordFilter

/-- The same error for a condition at another path. -/
def CompileError.withPath (p : Path) : CompileError → CompileError
  | emptyRecordType => emptyRecordType
  | unknownProperty _ property => unknownProperty p property
  | unknownOperator _ property operator => unknownOperator p property operator
  | invalidValue _ property fault => invalidValue p property fault

/-- The same comparison for a condition at another path. -/
def Comparison.withPath (p : Path) (m : Comparison) : Comparison := { m with path := p }

namespace Condition

/-- The error of a condition, if it is wrong. -/
def error? (rt : RecordType) (r : Resolver) (path : Path) (c : Condition) : Option CompileError :=
  match c.compile rt r path with
  | .ok _ => none
  | .error e => some e

/-- What a condition adds to the predicate: nothing if it is incomplete or wrong. -/
def comparison? (rt : RecordType) (r : Resolver) (path : Path) (c : Condition) :
    Option Comparison :=
  match c.compile rt r path with
  | .ok comparison => comparison
  | .error _ => none

variable {rt : RecordType} {r : Resolver} {path : Path} {c : Condition}

/-- What a condition is compiled to: nothing if it is incomplete, else the error of its property, its
operator or its value, or a comparison. -/
inductive Compiles (rt : RecordType) (r : Resolver) (path : Path) (c : Condition) :
    Except CompileError (Option Comparison) → Prop
  | skipped (incomplete : c.isComplete = false) : Compiles rt r path c (.ok none)
  | unknownProperty (complete : c.isComplete = true)
      (unknown : r.safe? rt (Text.trim c.property) = none) :
      Compiles rt r path c (.error (.unknownProperty path (Text.trim c.property)))
  | unknownOperator {p : ResolvedProperty} (complete : c.isComplete = true)
      (known : r.safe? rt (Text.trim c.property) = some p)
      (unnamed : Operator.find? p.type (Text.trim c.operator) = none) :
      Compiles rt r path c
        (.error (.unknownOperator path (Text.trim c.property) (Text.trim c.operator)))
  | invalidValue {p : ResolvedProperty} {op : Operator} {fault : ValueFault}
      (complete : c.isComplete = true) (known : r.safe? rt (Text.trim c.property) = some p)
      (named : Operator.find? p.type (Text.trim c.operator) = some op)
      (unbound : op.bind p.type c.value = .error fault) :
      Compiles rt r path c (.error (.invalidValue path (Text.trim c.property) fault))
  | compared {p : ResolvedProperty} {op : Operator} {params : List Value}
      (complete : c.isComplete = true) (known : r.safe? rt (Text.trim c.property) = some p)
      (named : Operator.find? p.type (Text.trim c.operator) = some op)
      (bound : op.bind p.type c.value = .ok params) :
      Compiles rt r path c (.ok (some ⟨rt, p.column, op.sql, params, path⟩))

theorem Compiles.compile_eq {result : Except CompileError (Option Comparison)}
    (h : Compiles rt r path c result) : c.compile rt r path = result := by
  rw [compile]
  cases h with
  | skipped incomplete => simp [incomplete]
  | unknownProperty complete unknown => simp [complete, unknown]
  | unknownOperator complete known unnamed => simp [complete, known, unnamed]
  | invalidValue complete known named unbound => simp [complete, known, named, unbound]
  | compared complete known named bound => simp [complete, known, named, bound]

theorem exists_compiles (rt : RecordType) (r : Resolver) (path : Path) (c : Condition) :
    ∃ result, Compiles rt r path c result := by
  cases complete : c.isComplete with
  | false => exact ⟨_, .skipped complete⟩
  | true =>
    cases known : r.safe? rt (Text.trim c.property) with
    | none => exact ⟨_, .unknownProperty complete known⟩
    | some p =>
      cases named : Operator.find? p.type (Text.trim c.operator) with
      | none => exact ⟨_, .unknownOperator complete known named⟩
      | some op =>
        cases bound : op.bind p.type c.value with
        | error fault => exact ⟨_, .invalidValue complete known named bound⟩
        | ok params => exact ⟨_, .compared complete known named bound⟩

theorem compile_eq_iff {result : Except CompileError (Option Comparison)} :
    c.compile rt r path = result ↔ c.Compiles rt r path result := by
  constructor
  · rintro rfl
    obtain ⟨result, compiles⟩ := exists_compiles rt r path c
    rwa [compiles.compile_eq]
  · exact Compiles.compile_eq

theorem error?_eq_some_iff_compiles {e : CompileError} :
    c.error? rt r path = some e ↔ c.Compiles rt r path (.error e) := by
  rw [← compile_eq_iff, error?]
  cases c.compile rt r path <;> simp

theorem comparison?_eq_some_iff_compiles {m : Comparison} :
    c.comparison? rt r path = some m ↔ c.Compiles rt r path (.ok (some m)) := by
  rw [← compile_eq_iff, comparison?]
  cases c.compile rt r path <;> simp

theorem compile_eq_ok_some_iff {m : Comparison} :
    c.compile rt r path = .ok (some m) ↔ c.comparison? rt r path = some m :=
  compile_eq_iff.trans comparison?_eq_some_iff_compiles.symm

theorem compile_of_not_isComplete (h : c.isComplete = false) : c.compile rt r path = .ok none :=
  (Compiles.skipped h).compile_eq

/-- A complete condition becomes a comparison, or its error bears its path. -/
theorem compile_of_isComplete (rt : RecordType) (r : Resolver) (path : Path)
    (h : c.isComplete = true) :
    (∃ comparison, c.compile rt r path = .ok (some comparison)) ∨
      ∃ e, c.compile rt r path = .error e ∧ e.path? = some path := by
  obtain ⟨result, compiles⟩ := exists_compiles rt r path c
  rw [compiles.compile_eq]
  cases compiles with
  | skipped incomplete => simp [h] at incomplete
  | unknownProperty | unknownOperator | invalidValue => exact .inr ⟨_, rfl, rfl⟩
  | compared => exact .inl ⟨_, rfl⟩

/-- Only a complete condition is wrong, and its error bears its path. -/
theorem isComplete_of_error? {e : CompileError} (h : c.error? rt r path = some e) :
    c.isComplete = true ∧ e.path? = some path := by
  cases error?_eq_some_iff_compiles.mp h with
  | unknownProperty complete => exact ⟨complete, rfl⟩
  | unknownOperator complete => exact ⟨complete, rfl⟩
  | invalidValue complete => exact ⟨complete, rfl⟩

theorem error?_of_not_isComplete (h : c.isComplete = false) : c.error? rt r path = none := by
  rw [Option.eq_none_iff_forall_ne_some]
  intro e wrong
  exact absurd (isComplete_of_error? wrong).1 (by simp [h])

theorem comparison?_eq_some_iff {comparison : Comparison} :
    c.comparison? rt r path = some comparison ↔ c.isComplete = true ∧ ∃ resolved op params,
      r.safe? rt (Text.trim c.property) = some resolved ∧
      Operator.find? resolved.type (Text.trim c.operator) = some op ∧
      op.bind resolved.type c.value = .ok params ∧
      comparison = ⟨rt, resolved.column, op.sql, params, path⟩ := by
  rw [comparison?_eq_some_iff_compiles]
  constructor
  · intro h
    cases h with
    | compared complete known named bound => exact ⟨complete, _, _, _, known, named, bound, rfl⟩
  · rintro ⟨complete, p, op, params, known, named, bound, rfl⟩
    exact .compared complete known named bound

/-- A complete condition is wrong for one of three reasons: its property is not known by a safe
column, its operator is not one of the property type, or its value cannot be bound. -/
theorem error?_eq_some_iff {e : CompileError} :
    c.error? rt r path = some e ↔ c.isComplete = true ∧
      (r.safe? rt (Text.trim c.property) = none ∧
          e = .unknownProperty path (Text.trim c.property) ∨
        ∃ resolved, r.safe? rt (Text.trim c.property) = some resolved ∧
          (Operator.find? resolved.type (Text.trim c.operator) = none ∧
              e = .unknownOperator path (Text.trim c.property) (Text.trim c.operator) ∨
            ∃ op fault, Operator.find? resolved.type (Text.trim c.operator) = some op ∧
              op.bind resolved.type c.value = .error fault ∧
              e = .invalidValue path (Text.trim c.property) fault)) := by
  rw [error?_eq_some_iff_compiles]
  constructor
  · intro h
    cases h with
    | unknownProperty complete unknown => exact ⟨complete, .inl ⟨unknown, rfl⟩⟩
    | unknownOperator complete known unnamed =>
      exact ⟨complete, .inr ⟨_, known, .inl ⟨unnamed, rfl⟩⟩⟩
    | invalidValue complete known named unbound =>
      exact ⟨complete, .inr ⟨_, known, .inr ⟨_, _, named, unbound, rfl⟩⟩⟩
  · rintro ⟨complete, ⟨unknown, rfl⟩ | ⟨p, known, ⟨unnamed, rfl⟩ | ⟨op, fault, named, unbound, rfl⟩⟩⟩
    · exact .unknownProperty complete unknown
    · exact .unknownOperator complete known unnamed
    · exact .invalidValue complete known named unbound

/-- A condition that is not wrong becomes a comparison exactly if it is complete. -/
theorem isSome_comparison? (h : c.error? rt r path = none) :
    (c.comparison? rt r path).isSome = c.isComplete := by
  rw [Bool.eq_iff_iff, Option.isSome_iff_exists]
  constructor
  · rintro ⟨m, becomes⟩
    exact (comparison?_eq_some_iff.mp becomes).1
  · intro complete
    obtain ⟨m, ok⟩ | ⟨e, wrong, -⟩ := compile_of_isComplete rt r path complete
    · exact ⟨m, compile_eq_ok_some_iff.mp ok⟩
    · rw [compile_eq_iff, ← error?_eq_some_iff_compiles, h] at wrong
      cases wrong

theorem error?_of_comparison? {comparison : Comparison}
    (h : c.comparison? rt r path = some comparison) : c.error? rt r path = none := by
  rw [Option.eq_none_iff_forall_ne_some]
  intro e wrong
  rw [comparison?_eq_some_iff_compiles, ← compile_eq_iff] at h
  rw [error?_eq_some_iff_compiles, ← compile_eq_iff, h] at wrong
  cases wrong

theorem path_of_comparison? {comparison : Comparison}
    (h : c.comparison? rt r path = some comparison) : comparison.path = path := by
  obtain ⟨-, resolved, op, params, -, -, -, rfl⟩ := comparison?_eq_some_iff.mp h
  rfl

/-- A condition compiles to the same at another path, where only the path differs. -/
theorem compile_withPath (rt : RecordType) (r : Resolver) (c : Condition) (p p' : Path) :
    c.compile rt r p' = match c.compile rt r p with
      | .ok m => .ok (m.map (·.withPath p'))
      | .error e => .error (e.withPath p') := by
  obtain ⟨result, compiles⟩ := exists_compiles rt r p c
  rw [compiles.compile_eq]
  cases compiles with
  | skipped incomplete => exact (Compiles.skipped incomplete).compile_eq
  | unknownProperty complete unknown => exact (Compiles.unknownProperty complete unknown).compile_eq
  | unknownOperator complete known unnamed =>
    exact (Compiles.unknownOperator complete known unnamed).compile_eq
  | invalidValue complete known named unbound =>
    exact (Compiles.invalidValue complete known named unbound).compile_eq
  | compared complete known named bound =>
    exact (Compiles.compared complete known named bound).compile_eq

theorem error?_withPath (rt : RecordType) (r : Resolver) (c : Condition) (p p' : Path) :
    c.error? rt r p' = (c.error? rt r p).map (·.withPath p') := by
  rw [error?, error?, compile_withPath rt r c p p']
  cases c.compile rt r p <;> rfl

theorem comparison?_withPath (rt : RecordType) (r : Resolver) (c : Condition) (p p' : Path) :
    c.comparison? rt r p' = (c.comparison? rt r p).map (·.withPath p') := by
  rw [comparison?, comparison?, compile_withPath rt r c p p']
  cases c.compile rt r p <;> rfl

end Condition
end RecordFilter
