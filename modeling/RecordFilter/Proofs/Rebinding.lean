import RecordFilter.Proofs.BoundValues
import RecordFilter.Proofs.InPlace
import RecordFilter.Proofs.Resolving

/-!
# Binding what is bound

Coercing makes a value one that is bound for the property type, and such values are coerced to
themselves. So an operator without wildcards binds what it has bound once more as it is. A condition
may then be given its bound values in place of what was entered, and the filter around it compiles
to the same. Patterns are left out: what is bound for them is escaped, and would be escaped again.
-/
namespace RecordFilter

/-- The value of a condition that is made of bound values: the one value that a scalar operator
takes, and otherwise the list of them. -/
def Arity.valueOf : Arity → List Value → Value
  | scalar, ps => ps.headD .null
  | pair, ps | list, ps => .list ps

namespace PropertyType

variable {type : PropertyType} {v w : Value} {ps : List Value}

/-- A value that is bound for the type is coerced to itself. -/
theorem Binds.coerce_eq (h : type.Binds v) : type.coerce v = .ok v := by
  cases h with
  | text s => rfl
  | integer i => rfl
  | float finite => simp [coerce, finite]
  | bool b => rfl
  | date trimmed spelled => simp [coerce, ofText?, dateOf?, trimmed, spelled]

/-- Coercing twice is coercing once. -/
theorem coerce_coerce (h : type.coerce v = .ok w) : type.coerce w = .ok w :=
  (binds_of_coerce h).coerce_eq

theorem mapM_coerce_of_binds (h : ∀ w ∈ ps, type.Binds w) : ps.mapM type.coerce = .ok ps := by
  rw [mapM_eq_ok_iff, List.forall₂_same]
  exact fun w hw => (h w hw).coerce_eq

end PropertyType

namespace Operator

variable {type : PropertyType} {op : Operator} {v : Value} {ps : List Value}

/-- An operator without wildcards binds what it has bound as it is. -/
theorem bind_valueOf (member : op ∈ ofType type) (plain : op.wildcard = none)
    (h : op.bind type v = .ok ps) : op.bind type (op.arity.valueOf ps) = .ok ps := by
  have binds := binds_of_bind member h
  have admitted := (length_bind h).1
  rw [bind_eq_ok_iff]
  cases arity : op.arity with
  | scalar =>
    rw [arity] at admitted
    obtain ⟨w, rfl⟩ := List.length_eq_one_iff.mp admitted
    have fixed := (binds w List.mem_cons_self).coerce_eq
    exact .inl ⟨rfl, w, fixed, by rw [patterned_of_plain plain]⟩
  | pair | list =>
    rw [arity] at admitted
    exact .inr ⟨nofun, ps, rfl, admitted, PropertyType.mapM_coerce_of_binds binds⟩

end Operator

section Level

variable {m : Type → Type} [Monad m] [LawfulMonad m] {α β : Type} {l : List α} {i : Nat}
  {change : α → α}

/-- A change of one member that its step does not notice changes no step. -/
theorem mapM_zipIdx_modify (step : α → Nat → m β)
    (h : ∀ x, l[i]? = some x → step (change x) i = step x i) :
    ((l.modify i change).zipIdx.mapM fun x => step x.1 x.2) =
      l.zipIdx.mapM fun x => step x.1 x.2 := by
  rw [zipIdx_modify, List.mapM_map]
  refine mapM_congr fun (x, n) hx => ?_
  by_cases here : n = i
  · subst here
    simpa using h x (List.mem_zipIdx_iff_getElem?.mp hx)
  · simp [here]

end Level

section Walk

variable {rt : RecordType} {r : Resolver} {change : Condition → Condition} {g s i : Nat} {p : Path}

theorem SubGroup.walk_modify {sub : SubGroup} (h : ∀ c, sub.conditions[i]? = some c →
    (change c).visit rt r ⟨g, s, i⟩ = c.visit rt r ⟨g, s, i⟩) :
    SubGroup.walk rt r g s ⟨sub.conditions.modify i change⟩ = sub.walk rt r g s := by
  have conditions := mapM_zipIdx_modify (fun c i => Condition.visit rt r ⟨g, s, i⟩ c) h
  rw [walk, walk, conditions]

theorem Group.walk_modify {group : Group} {change : SubGroup → SubGroup}
    (h : ∀ sub, group.subGroups[s]? = some sub → (change sub).walk rt r g s = sub.walk rt r g s) :
    Group.walk rt r g ⟨group.subGroups.modify s change⟩ = group.walk rt r g := by
  have subGroups := mapM_zipIdx_modify (fun sub s => SubGroup.walk rt r g s sub) h
  rw [walk, walk, subGroups]

/-- A change in place that is not noticed where it is made is not noticed by the walk. -/
theorem Filter.walk_modifyCondition {f : Filter} (h : ∀ c, f.condition? p = some c →
    (change c).visit rt r p = c.visit rt r p) :
    (f.modifyCondition p change).walk rt r = f.walk rt r := by
  have groups := mapM_zipIdx_modify (fun group g => group.walk rt r g) fun group hg =>
    Group.walk_modify fun sub hs => SubGroup.walk_modify fun c hc =>
      h c (condition?_eq_some_iff.mpr ⟨group, sub, hg, hs, hc⟩)
  rw [walk, walk]
  exact congrArg (· >>= _) groups

end Walk

namespace Filter

variable {f : Filter} {rt : RecordType} {r : Resolver} {p : Path}

/-- Another value with which a condition compiles to the same does not change what the filter
compiles to. -/
theorem compile_setValue {c : Condition} {v : Value} (recordType : f.recordType = some rt)
    (found : f.condition? p = some c)
    (same : Condition.compile rt r p { c with value := v } = c.compile rt r p) :
    ∃ f', f.setValue p v = .ok f' ∧ f'.compile r = f.compile r ∧ f'.diagnose r = f.diagnose r := by
  have stands : (f.condition? p).isSome = true := by rw [found]; rfl
  have walked : (f.modifyCondition p fun c => { c with value := v }).walk rt r = f.walk rt r := by
    refine walk_modifyCondition fun c' found' => ?_
    obtain rfl := Option.some.inj (found.symm.trans found')
    rw [Condition.visit, Condition.visit, same]
    rfl
  have kept : (f.modifyCondition p fun c => { c with value := v }).recordType = some rt :=
    recordType
  refine ⟨f.modifyCondition p fun c => { c with value := v }, if_pos stands, ?_, ?_⟩
  · simp only [compile, compileRun, kept, recordType, walked]
  · simp only [diagnose, diagnoseRun, kept, recordType, walked]

end Filter

/-- Binding is idempotent. Where an operator without wildcards has bound values, the condition with
these values in place of its own becomes the same comparison, and a filter that has it at its place
the same query. A coerced value is coerced to itself. -/
theorem Condition.compile_rebound {rt : RecordType} {r : Resolver} {path : Path} {c : Condition}
    {p : ResolvedProperty} {op : Operator} {m : Comparison} (known : c.Resolves rt r p)
    (named : c.Names p.type op) (plain : op.wildcard = none)
    (becomes : c.compile rt r path = .ok (some m)) :
    Condition.compile rt r path { c with value := op.arity.valueOf m.params } = .ok (some m) ∧
    (∀ f : Filter, f.recordType = some rt → f.condition? path = some c →
      ∃ f', f.setValue path (op.arity.valueOf m.params) = .ok f' ∧
        f'.compile r = f.compile r ∧ f'.diagnose r = f.diagnose r) ∧
    ∀ (type : PropertyType) (v w : Value), type.coerce v = .ok w → type.coerce w = .ok w := by
  obtain ⟨complete, -⟩ := comparison?_eq_some_iff.mp (compile_eq_ok_some_iff.mp becomes)
  rw [compile_eq_ok_some_iff, comparison?_eq_some_iff_bind complete known named] at becomes
  obtain ⟨params, bound, rfl⟩ := becomes
  have becomes (v : Value) (bound : op.bind p.type v = .ok params) :
      Condition.compile rt r path { c with value := v } =
        .ok (some ⟨rt, p.column, op.sql, params, path⟩) := by
    rw [compile_eq_ok_some_iff]
    exact comparison?_eq_some_iff.mpr ⟨complete, p, op, params, safe?_eq_some_iff.mpr known,
      find?_eq_some_iff.mpr named, bound, rfl⟩
  have again := becomes _ (Operator.bind_valueOf named.1 plain bound)
  refine ⟨again, fun f recordType found => ?_, fun type v w => PropertyType.coerce_coerce⟩
  exact Filter.compile_setValue recordType found (again.trans (becomes c.value bound).symm)

/-- Ages in a range, of which one limit was entered as a text with blanks and a sign. -/
def Condition.agesBetween : Condition := ⟨"age", "between", .list [.text " +18 ", .int 65]⟩

theorem Condition.compile_rebound_between :
    agesBetween.compile .contact .ageAndName ⟨0, 0, 0⟩ =
      .ok (some ⟨.contact, "age", .between, [.int 18, .int 65], ⟨0, 0, 0⟩⟩) ∧
    ∃ f', Filter.setValue ⟨some .contact, [⟨[⟨[agesBetween]⟩]⟩]⟩ ⟨0, 0, 0⟩
        (.list [.int 18, .int 65]) = .ok f' ∧
      f'.compile .ageAndName =
        Filter.compile ⟨some .contact, [⟨[⟨[agesBetween]⟩]⟩]⟩ .ageAndName := by
  have known : agesBetween.Resolves .contact .ageAndName ⟨"age", .number⟩ :=
    safe?_eq_some_iff.mp rfl
  have named : agesBetween.Names .number ⟨"between", "Between", .pair, .between, none⟩ :=
    ⟨by decide, rfl⟩
  have becomes : agesBetween.compile .contact .ageAndName ⟨0, 0, 0⟩ =
      .ok (some ⟨.contact, "age", .between, [.int 18, .int 65], ⟨0, 0, 0⟩⟩) := by cbv
  obtain ⟨-, filters, -⟩ := compile_rebound known named rfl becomes
  obtain ⟨f', entered, compiled, -⟩ := filters ⟨some .contact, [⟨[⟨[agesBetween]⟩]⟩]⟩ rfl rfl
  exact ⟨becomes, f', entered, compiled⟩

end RecordFilter
