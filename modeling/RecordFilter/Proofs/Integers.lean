import RecordFilter.Proofs.BoundValues
import RecordFilter.Proofs.Patterns
import RecordFilter.Proofs.ValuesInText

/-!
# Integers

A value means an integer if it is the integer, or a text that spells it (`Value.Means`), and a
numeral denotes one if it has neither a point nor an exponent part (`Decimal.Numeral.Denotes`). An
integer is bound only where it is meant, so that no number is cut down to 64 bits: numbers that 64
bits do not hold are floating-point numbers, or errors. `Condition.compile_integer` says this of
values, of texts in them, of JSON literals, and of the JSON text of a filter.
-/
namespace RecordFilter

open Decimal (Numeral SpellsInteger SpellsNumeral)
open Json (Document)

/-- The integer that a value means as a number: itself, or the one that a text spells if the blanks
around it are dropped. -/
inductive Value.Means : Value → Int64 → Prop
  | int (n : Int64) : Means (.int n) n
  | text {s : String} {n : Int64} (spelled : SpellsInteger (Text.trim s).toList n) :
      Means (.text s) n

/-- The numeral has no point and no exponent part, and is the integer. -/
def Decimal.Numeral.Denotes (m : Numeral) (n : Int64) : Prop :=
  m.isWhole = true ∧ m.integer = n.toInt

/-- The literal is the integer in JSON, where a negative zero is none. -/
def Json.Denotes (m : Numeral) (n : Int64) : Prop :=
  m.Denotes n ∧ (m.negative = true → n ≠ 0)

namespace Decimal

theorem isWhole_iff {m : Numeral} : m.isWhole = true ↔ m.fraction = none ∧ m.exponent = none := by
  simp [Numeral.isWhole]

/-- A text spells one numeral at most. -/
theorem SpellsNumeral.unique {cs : List Char} {m k : Numeral} (hm : SpellsNumeral cs m)
    (hk : SpellsNumeral cs k) : m = k := by
  rw [← String.toList_ofList (l := cs), ← readNumeral?_eq_some_iff] at hm hk
  exact Option.some.inj (hm.symm.trans hk)

/-- A text that spells a numeral spells the integer that the numeral denotes, if it denotes one. -/
theorem SpellsNumeral.spellsInteger_iff {cs : List Char} {m : Numeral} (h : SpellsNumeral cs m)
    {n : Int64} : SpellsInteger cs n ↔ m.Denotes n := by
  constructor
  · rintro ⟨negative, sign, ds, hsign, nonempty, digits, hcs, hn⟩
    have plain : SpellsNumeral cs ⟨negative, ds, none, none⟩ :=
      ⟨sign, [], [], hsign, digits, .absent, .absent, by simp [Numeral.digits, nonempty],
        by simp [hcs]⟩
    obtain rfl := h.unique plain
    exact ⟨rfl, (integer_eq_signed negative ds).trans hn.symm⟩
  · rintro ⟨whole, same⟩
    obtain ⟨negative, ds, fraction, exponent⟩ := m
    obtain ⟨rfl, rfl⟩ := isWhole_iff.mp whole
    obtain ⟨sign, point, power, hsign, digits, hpoint, hpower, nonempty, hcs⟩ := h
    cases hpoint
    cases hpower
    refine ⟨negative, sign, ds, hsign, by simpa [Numeral.digits] using nonempty, digits,
      by simpa using hcs, ?_⟩
    rw [← same, integer_eq_signed]

end Decimal

namespace Value

/-- The value that a JSON literal stands for. -/
def ofNumeral? (m : Numeral) : Option Value :=
  (Json.Number.ofNumeral? m).map fun x => ofJson (.number x)

theorem ofDocument?_number (room : Nat) (m : Numeral) :
    ofDocument? room (.number m) = ofNumeral? m := by
  rw [ofDocument?, Json.ofDocument?, Option.map_map]
  rfl

theorem integer_of_negative {m : Numeral} (sign : m.negative = true) :
    m.integer = -(m.coefficient : Int) := by
  rw [Numeral.integer, if_pos sign]

theorem integer_of_not_negative {m : Numeral} (sign : m.negative = false) :
    m.integer = m.coefficient := by
  rw [Numeral.integer, if_neg (by simp [sign])]

/-- A natural number of 64 bits that is read as an integer is that integer. -/
theorem toInt_toInt64 {k : Nat} (fits : k < UInt64.size)
    (small : UInt64.ofNat k ≤ Int64.maxValue.toUInt64) : (UInt64.ofNat k).toInt64.toInt = k := by
  have size : (UInt64.ofNat k).toNat = k := UInt64.toNat_ofNat_of_lt' fits
  have limit : Int64.maxValue.toUInt64.toNat = 2 ^ 63 - 1 := rfl
  rw [UInt64.le_iff_toNat_le, size, limit] at small
  calc (UInt64.ofNat k).toInt64.toInt = (Int64.ofNat k).toInt := by rw [UInt64.toInt64_ofNat']
    _ = k := Int64.toInt_ofNat_of_lt (by omega)

/-- A literal stands for the integer that it denotes, as `n.toJson` does. -/
theorem ofNumeral?_of_denotes {m : Numeral} {n : Int64} (denotes : Json.Denotes m n) :
    ofNumeral? m = some (.int n) := by
  obtain ⟨⟨whole, same⟩, sign⟩ := denotes
  have number : Json.Number.ofNumeral? m =
      some (if n < 0 then .negative n else .natural n.toInt.toNat.toUInt64) := by
    cases hm : m.negative with
    | true =>
      have size := integer_of_negative hm
      have nonzero : n.toInt ≠ 0 := fun zero => sign hm (Int64.toInt_inj.mp zero)
      have below : n.toInt < 0 := by omega
      rw [if_pos (Int64.lt_iff_toInt_lt.mpr below)]
      exact Json.Number.ofNumeral?_eq_negative whole hm same below
    | false =>
      have size := integer_of_not_negative hm
      have above : 0 ≤ n.toInt := by omega
      rw [if_neg fun below => Int.not_lt.mpr above (Int64.lt_iff_toInt_lt.mp below)]
      refine Json.Number.ofNumeral?_eq_natural whole hm ?_
      rw [same, Json.Number.toNat_natural above, Int.toNat_of_nonneg above]
  rw [ofNumeral?, number, Option.map_some, ← ofJson_toJson_int n, toJson]

theorem ofNumeral?_eq_int_iff {m : Numeral} {n : Int64} :
    ofNumeral? m = some (.int n) ↔ Json.Denotes m n := by
  refine ⟨fun h => ?_, ofNumeral?_of_denotes⟩
  obtain ⟨x, hx, hn⟩ := Option.map_eq_some_iff.mp h
  rw [Json.Number.ofNumeral?] at hx
  split at hx
  · next natural =>
    obtain ⟨whole, sign, fits⟩ := natural
    cases hx
    rw [ofJson] at hn
    split at hn
    · next small =>
      cases hn
      have size := integer_of_not_negative sign
      refine ⟨⟨whole, ?_⟩, fun negative => absurd (sign.symm.trans negative) (by decide)⟩
      rw [toInt_toInt64 fits small]
      omega
    · cases hn
  · split at hx
    · next negative =>
      obtain ⟨whole, below, low⟩ := negative
      cases hx
      cases hn
      have same : (Int64.ofInt m.integer).toInt = m.integer :=
        Int64.toInt_ofInt_of_le low (by omega)
      refine ⟨⟨whole, same.symm⟩, fun _ zero => ?_⟩
      rw [zero] at same
      exact absurd same (ne_of_gt below)
    · obtain ⟨y, -, rfl⟩ := Option.map_eq_some_iff.mp hx
      cases hn

theorem int_or_float_of_ofNumeral? {m : Numeral} {v : Value} (h : ofNumeral? m = some v) :
    (∃ n, v = .int n) ∨ ∃ x, v = .float x := by
  obtain ⟨x, -, rfl⟩ := Option.map_eq_some_iff.mp h
  cases x with
  | natural n =>
    rw [ofJson]
    split
    · exact .inl ⟨_, rfl⟩
    · exact .inr ⟨_, rfl⟩
  | negative i => exact .inl ⟨i, rfl⟩
  | float x => exact .inr ⟨x, rfl⟩

theorem means_iff_of_ofNumeral? {m : Numeral} {v : Value} {n : Int64} (h : ofNumeral? m = some v) :
    v.Means n ↔ Json.Denotes m n := by
  rw [← ofNumeral?_eq_int_iff, h, Option.some.injEq]
  constructor
  · intro means
    cases means with
    | int => rfl
    | text =>
      obtain ⟨k, same⟩ | ⟨x, same⟩ := int_or_float_of_ofNumeral? h <;> cases same
  · rintro rfl
    exact .int n

/-- A text that is a literal is read as the value of the literal. -/
theorem ofText?_of_spells {s : String} {m : Numeral} (h : Json.Spells s.toList m) :
    ofText? s = ofNumeral? m := by
  have scanned := Json.scans_word h.ne_nil h.all_isWordChar
    (Json.wordToken?_of_numeral? h.numeral?) [] [] fun _ h => absurd h (Option.not_mem_none _)
  have read : Document.read? s = some (.number m) := by
    rw [List.append_nil, List.append_nil] at scanned
    rw [Document.read?, Json.Token.scan?, scanned]
    rfl
  rw [ofText?, Json.read?, read, Option.bind_some]
  exact ofDocument?_number _ m

/-- An integer is written as its decimal numeral. -/
theorem toText_int (n : Int64) : (int n).toText = n.toInt.repr := by
  rw [toText, toJson, Json.render, Json.write, String.empty_append]
  split
  · rfl
  · next above =>
    have above : 0 ≤ n.toInt := Int.not_lt.mp fun below => above (Int64.lt_iff_toInt_lt.mpr below)
    rw [Json.Number.write, Json.Number.toNat_natural above, Int.repr_eq_if, if_pos above]

/-- The decimal numeral of an integer is read as the integer. -/
theorem ofText?_repr (n : Int64) : ofText? n.toInt.repr = some (.int n) := by
  have read := Json.read?_render (numbers_toJson (.int n)) (Nat.zero_le _)
  rw [← toText_int, ofText?, toText, read, Option.map_some]
  exact congrArg some (ofJson_toJson_int n)

end Value

namespace PropertyType

variable {type : PropertyType} {v w : Value} {n : Int64}

theorem numberOf?_eq_int_iff {s : String} :
    numberOf? s = some (.int n) ↔ SpellsInteger (Text.trim s).toList n := by
  rw [← Decimal.readInteger?_eq_some_iff, numberOf?]
  cases Decimal.readInteger? (Text.trim s) with
  | some i => simp
  | none =>
    cases Decimal.readFloat? (Text.trim s) with
    | none => simp
    | some x => by_cases finite : x.isFinite = true <;> simp [finite]

/-- Only a property of numbers is given an integer, and only by a value that means it. -/
theorem coerce_eq_int_iff : type.coerce v = .ok (.int n) ↔ type = .number ∧ v.Means n := by
  constructor
  · intro h
    obtain rfl : type = .number := by
      cases binds_of_coerce h
      rfl
    refine ⟨rfl, ?_⟩
    cases v with
    | int i =>
      cases h
      exact .int n
    | text s =>
      simp only [coerce] at h
      split at h
      · next spelled =>
        cases h
        exact .text (numberOf?_eq_int_iff.mp spelled)
      · cases h
    | float x =>
      simp only [coerce] at h
      split at h <;> cases h
    | null | bool b | list items | json j => cases h
  · rintro ⟨rfl, means⟩
    cases means with
    | int => rfl
    | text spelled => simp [coerce, ofText?, numberOf?_eq_int_iff.mpr spelled]

/-- A property of texts is given the decimal numeral of an integer. -/
theorem coerce_int_text (n : Int64) : text.coerce (.int n) = .ok (.text n.toInt.repr) := by
  rw [coerce_text rfl, Value.display, Value.displayTo, String.empty_append]

/-- On a property of numbers a value that means no integer gives a finite floating-point number, if
it gives anything. -/
theorem coerce_number (h : number.coerce v = .ok w) (none : ∀ n, ¬v.Means n) :
    ∃ x, w = .float x ∧ x.isFinite = true := by
  cases binds_of_coerce h with
  | integer n => exact absurd (coerce_eq_int_iff.mp h).2 (none n)
  | @float x finite => exact ⟨x, rfl, finite⟩

end PropertyType

theorem Sql.escapeChars_eq_self {cs : List Char}
    (literal : ∀ c ∈ cs, ¬(c = '\\' ∨ c = '%' ∨ c = '_')) : escapeChars cs = cs := by
  induction cs with
  | nil => rfl
  | cons c cs ih =>
    obtain ⟨first, others⟩ := List.forall_mem_cons.mp literal
    rw [escapeChars_cons, if_neg first, ih others, List.singleton_append]

/-- Nothing in the decimal numeral of an integer means something in a pattern. -/
theorem Sql.escapePattern_repr (i : Int) : escapePattern i.repr = i.repr := by
  have digit {n : Nat} : ∀ c ∈ n.repr.toList, ¬(c = '\\' ∨ c = '%' ∨ c = '_') := by
    intro c mem
    rw [Nat.toList_repr] at mem
    have digit := Decimal.areDigits_toDigits n c mem
    rintro (rfl | rfl | rfl) <;> exact absurd digit (by decide)
  have literal : ∀ c ∈ i.repr.toList, ¬(c = '\\' ∨ c = '%' ∨ c = '_') := by
    rw [Int.repr_eq_if]
    split
    · exact digit
    · rw [String.toList_append, List.forall_mem_append]
      refine ⟨fun c mem => ?_, digit⟩
      obtain rfl : c = '-' := by simpa using mem
      decide
  rw [escapePattern, escapeChars_eq_self literal, String.ofList_toList]

/-- The text of a value stands in the pattern of an operator, between its wildcards if it has
any. -/
theorem Operator.patterned_text (op : Operator) (s : String) : op.patterned (.text s) =
    .text (op.wildcard.elim s fun w => w.apply (Sql.escapePattern s)) := by
  cases h : op.wildcard <;> simp [patterned, h]

theorem Operator.patterned_eq_int_iff {op : Operator} {v : Value} {n : Int64} :
    op.patterned v = .int n ↔ v = .int n := by
  cases h : op.wildcard <;> cases v <;> simp [patterned, h]

namespace Condition

variable {rt : RecordType} {r : Resolver} {path : Path} {c : Condition} {p : ResolvedProperty}
  {op : Operator}

/-- On a property of numbers a single value becomes an integer exactly if it means one, and
otherwise a finite floating-point number or an error. -/
theorem compile_number (complete : c.isComplete = true) (known : c.Resolves rt r p)
    (named : c.Names p.type op) (scalar : op.arity = .scalar) (number : p.type = .number)
    (path : Path) : (∀ n, c.compile rt r path = .ok (some ⟨rt, p.column, op.sql, [.int n], path⟩) ↔
      c.value.Means n) ∧
    ((∀ n, ¬c.value.Means n) → (∃ e, c.compile rt r path = .error e) ∨
      ∃ x, x.isFinite = true ∧
        c.compile rt r path = .ok (some ⟨rt, p.column, op.sql, [.float x], path⟩)) := by
  have plain (w : Value) : op.patterned w = w := by
    obtain none | text := Operator.wildcard_eq_none_or named.1
    · simp [Operator.patterned, none]
    · cases number.symm.trans text
  have becomes (w : Value) :
      c.compile rt r path = .ok (some ⟨rt, p.column, op.sql, [w], path⟩) ↔
        PropertyType.number.coerce c.value = .ok w := by
    rw [compile_eq_ok_iff_coerce complete known named scalar, number]
    simp [plain, eq_comm]
  refine ⟨fun n => ?_, fun none => ?_⟩
  · rw [becomes, PropertyType.coerce_eq_int_iff]
    simp
  · obtain ⟨m, ok⟩ | ⟨e, he, -⟩ := compile_of_isComplete rt r path complete
    · obtain ⟨w, coerced, -⟩ := (compile_eq_ok_iff_coerce complete known named scalar).mp ok
      rw [number] at coerced
      obtain ⟨x, rfl, finite⟩ := PropertyType.coerce_number coerced none
      exact .inr ⟨x, finite, (becomes _).mpr coerced⟩
    · exact .inl ⟨e, he⟩

/-- On a property of texts an integer is bound as its decimal numeral. -/
theorem compile_text (complete : c.isComplete = true) (known : c.Resolves rt r p)
    (named : c.Names p.type op) (scalar : op.arity = .scalar) (text : p.type = .text) {n : Int64}
    (value : c.value = .int n) : c.compile rt r path = .ok (some ⟨rt, p.column, op.sql,
      [.text (op.wildcard.elim n.toInt.repr fun w => w.apply n.toInt.repr)], path⟩) := by
  have coerced : p.type.coerce c.value = .ok (.text n.toInt.repr) := by
    rw [text, value, PropertyType.coerce_int_text]
  refine (compile_eq_ok_iff_coerce complete known named scalar).mpr ⟨_, coerced, ?_⟩
  rw [Operator.patterned_text, Sql.escapePattern_repr]

/-- In a list on a property of texts each integer is bound as its decimal numeral, in its place. -/
theorem params_of_text_list (complete : c.isComplete = true) (known : c.Resolves rt r p)
    (named : c.Names p.type op) (several : op.arity ≠ .scalar) (text : p.type = .text)
    {items : List Value} (value : c.value = .list items) {m : Comparison}
    (becomes : c.compile rt r path = .ok (some m)) {i : Nat} {n : Int64}
    (item : items[i]? = some (.int n)) : m.params[i]? = some (.text n.toInt.repr) := by
  rw [compile_eq_ok_some_iff, comparison?_eq_some_iff_bind complete known named] at becomes
  obtain ⟨params, bound, rfl⟩ := becomes
  obtain ⟨scalar, -⟩ | ⟨-, items', hitems, -, all⟩ := Operator.bind_eq_ok_iff.mp bound
  · exact absurd scalar several
  · obtain rfl : items = items' := by simpa [value, Value.items?] using hitems
    obtain ⟨w, stands, coerced⟩ := exists_getElem?_of_forall₂ (mapM_eq_ok_iff.mp all) item
    rw [text, PropertyType.coerce_int_text] at coerced
    cases coerced
    exact stands

end Condition

namespace Filter

/-- The comparison that a condition becomes is one of the query. -/
theorem mem_comparisons {f : Filter} {r : Resolver} {q : Query} {rt : RecordType} {path : Path}
    {c : Condition} {m : Comparison} (recordType : f.recordType = some rt)
    (found : f.condition? path = some c) (compiled : f.compile r = .ok q)
    (becomes : c.compile rt r path = .ok (some m)) : m ∈ q.comparisons := by
  obtain ⟨rt', hrt', -, rfl⟩ := compile_eq_ok_iff.mp compiled
  obtain rfl : rt = rt' := Option.some.inj (recordType.symm.trans hrt')
  rw [Condition.compile_eq_ok_some_iff] at becomes
  obtain rfl := Condition.path_of_comparison? becomes
  exact (mem_comparisons_iff compiled).mpr ⟨c, found, becomes⟩

/-- Every integer that a query binds is meant by the value of a condition on a property of numbers,
or by an item of its list. -/
theorem means_of_mem_params {f : Filter} {r : Resolver} {q : Query} {m : Comparison} {n : Int64}
    (compiled : f.compile r = .ok q) (member : m ∈ q.comparisons) (bound : .int n ∈ m.params) :
    ∃ c p, f.condition? m.path = some c ∧ c.Resolves q.recordType r p ∧ p.type = .number ∧
      (c.value.Means n ∨ ∃ items, c.value = .list items ∧ ∃ v ∈ items, v.Means n) := by
  obtain ⟨c, found, becomes⟩ := (mem_comparisons_iff compiled).mp member
  obtain ⟨-, p, op, params, known, named, hparams, same⟩ :=
    Condition.comparison?_eq_some_iff.mp becomes
  rw [Condition.safe?_eq_some_iff] at known
  replace bound : .int n ∈ params := by rwa [same] at bound
  obtain ⟨-, w, coerced, rfl⟩ | ⟨-, items, hitems, -, all⟩ := Operator.bind_eq_ok_iff.mp hparams
  · have same : op.patterned w = .int n := (List.mem_singleton.mp bound).symm
    rw [Operator.patterned_eq_int_iff.mp same, PropertyType.coerce_eq_int_iff] at coerced
    exact ⟨c, p, found, known, coerced.1, .inl coerced.2⟩
  · obtain ⟨v, mem, coerced⟩ := exists_mem_of_forall₂ (mapM_eq_ok_iff.mp all) bound
    rw [PropertyType.coerce_eq_int_iff] at coerced
    exact ⟨c, p, found, known, coerced.1,
      .inr ⟨items, Value.items?_eq_some_iff.mp hitems, v, mem, coerced.2⟩⟩

end Filter

/-- Integers are bound exactly. On a property of numbers a single value becomes an integer exactly if
it means one, and a finite floating-point number or an error otherwise; a property of texts is given
the decimal numeral. A text with blanks around a numeral means the integer that the numeral denotes,
and so does a JSON literal, alone or in the text of a filter, unless it is a negative zero. Integers
are written as their decimal numerals, and a query has no integers but those that are meant. -/
theorem Condition.compile_integer {rt : RecordType} {r : Resolver} {c : Condition}
    {p : ResolvedProperty} {op : Operator} (complete : c.isComplete = true)
    (known : c.Resolves rt r p) (named : c.Names p.type op) :
    (p.type = .number → op.arity = .scalar →
      (∀ path n, c.compile rt r path = .ok (some ⟨rt, p.column, op.sql, [.int n], path⟩) ↔
        c.value.Means n) ∧
      (∀ (f : Filter) path q n, f.recordType = some rt → f.condition? path = some c →
        f.compile r = .ok q → c.value.Means n →
        ⟨rt, p.column, op.sql, [.int n], path⟩ ∈ q.comparisons) ∧
      ∀ path, (∀ n, ¬c.value.Means n) → (∃ e, c.compile rt r path = .error e) ∨
        ∃ x, x.isFinite = true ∧
          c.compile rt r path = .ok (some ⟨rt, p.column, op.sql, [.float x], path⟩)) ∧
    (p.type = .text → op.arity = .scalar → ∀ path n, c.value = .int n →
      c.compile rt r path = .ok (some ⟨rt, p.column, op.sql,
        [.text (op.wildcard.elim n.toInt.repr fun w => w.apply n.toInt.repr)], path⟩)) ∧
    (p.type = .text → op.arity ≠ .scalar → ∀ path (items : List Value) (m : Comparison) (i : Nat) n,
      c.value = .list items → c.compile rt r path = .ok (some m) →
      items[i]? = some (.int n) → m.params[i]? = some (.text n.toInt.repr)) ∧
    -- Numerals in texts, and literals in JSON texts.
    (∀ s m, SpellsNumeral (Text.trim s).toList m → ∀ n, (Value.text s).Means n ↔ m.Denotes n) ∧
    (∀ s m, Json.Spells s.toList m →
      (∀ n, Value.ofText? s = some (.int n) ↔ Json.Denotes m n) ∧
      ∀ v, Value.ofText? s = some v → (∃ n, v = .int n) ∨ ∃ x, v = .float x) ∧
    (∀ t f d path m, Filter.ofText t = .ok f → Document.read? t = some d →
      Filter.valueDocument? d path = some (.number m) →
      ∃ b, f.condition? path = some b ∧ ∀ n, b.value.Means n ↔ Json.Denotes m n) ∧
    -- What is written.
    (∀ n : Int64, Value.ofText? n.toInt.repr = some (.int n) ∧
      (Value.int n).toText = n.toInt.repr) ∧
    (∀ (f : Filter) path, (f.condition? path).isSome = true → ∃ front back : String, ∀ n : Int64,
      (f.setValue path (.int n)).map Filter.toText = .ok (front ++ n.toInt.repr ++ back)) ∧
    -- No other integers are bound.
    ∀ (f : Filter) r q m n, f.compile r = .ok q → m ∈ q.comparisons → .int n ∈ m.params →
      ∃ b p, f.condition? m.path = some b ∧ b.Resolves q.recordType r p ∧ p.type = .number ∧
        (b.value.Means n ∨ ∃ items, b.value = .list items ∧ ∃ v ∈ items, v.Means n) := by
  refine ⟨fun number scalar => ⟨fun path n => ?_,
    fun f path q n recordType found compiled means => ?_, fun path => ?_⟩,
    fun text scalar path n => compile_text complete known named scalar text,
    fun text several path items m i n value becomes =>
      params_of_text_list complete known named several text value becomes,
    ?_, ?_, ?_, ?_, ?_, fun f r q m n => Filter.means_of_mem_params⟩
  · exact (compile_number complete known named scalar number path).1 n
  · have becomes := ((compile_number complete known named scalar number path).1 n).mpr means
    exact Filter.mem_comparisons recordType found compiled becomes
  · exact (compile_number complete known named scalar number path).2
  · intro s m spelled n
    rw [← spelled.spellsInteger_iff]
    exact ⟨fun | .text spells => spells, .text⟩
  · intro s m spelled
    rw [Value.ofText?_of_spells spelled]
    exact ⟨fun n => Value.ofNumeral?_eq_int_iff, fun v => Value.int_or_float_of_ofNumeral?⟩
  · intro t f d path m accepted read stands
    obtain ⟨b, found, value⟩ := Filter.exists_condition_of_ofText accepted read stands
    rw [Value.ofDocument?_number] at value
    exact ⟨b, found, fun n => Value.means_iff_of_ofNumeral? value⟩
  · exact fun n => ⟨Value.ofText?_repr n, Value.toText_int n⟩
  · intro f path stands
    obtain ⟨front, back, written⟩ := Filter.exists_toText_setValue stands
    exact ⟨front, back, fun n => by rw [written, Value.toText_int]⟩

/-- The least integer, with leading zeros and blanks, and the literal after the greatest one. -/
theorem Condition.compile_integer_least :
    Condition.compile .contact .ageAndName ⟨0, 0, 0⟩
        ⟨"age", "equals", .text " -0009223372036854775808 "⟩ =
      .ok (some ⟨.contact, "age", .eq, [.int Int64.minValue], ⟨0, 0, 0⟩⟩) ∧
    ∀ n, Value.ofText? "9223372036854775808" ≠ some (.int n) := by
  have known : Condition.Resolves .contact .ageAndName
      ⟨"age", "equals", .text " -0009223372036854775808 "⟩ ⟨"age", .number⟩ :=
    safe?_eq_some_iff.mp rfl
  have named : Condition.Names ⟨"age", "equals", .text " -0009223372036854775808 "⟩ .number
      ⟨"equals", "Equals", .scalar, .eq, none⟩ :=
    ⟨by decide, rfl⟩
  obtain ⟨numbers, -, -, -, literals, -⟩ := compile_integer (by decide) known named
  have means : (Value.text " -0009223372036854775808 ").Means Int64.minValue :=
    .text (Decimal.readInteger?_eq_some_iff.mp (by decide))
  have digits : Decimal.AreDigits "9223372036854775808".toList :=
    List.all_eq_true.mp (by decide)
  have spelled : Json.Spells "9223372036854775808".toList
      ⟨false, "9223372036854775808".toList, none, none⟩ :=
    ⟨[], [], ⟨digits, .inr (by decide)⟩, .absent, by simp, .absent, rfl⟩
  refine ⟨((numbers rfl rfl).1 _ _).mpr means, fun n read => ?_⟩
  obtain ⟨⟨-, same⟩, -⟩ := ((literals _ _ spelled).1 n).mp read
  have upper : n.toInt ≤ 2 ^ 63 - 1 := n.toInt_le
  rw [← same] at upper
  exact absurd upper (by decide)

end RecordFilter
