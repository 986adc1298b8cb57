import RecordFilter.Proofs.Binding
import RecordFilter.Proofs.Numerals
import RecordFilter.Proofs.Rendering
import RecordFilter.Proofs.Walk

/-!
# Written conditions read back

`Clause.read?` takes a text apart by the grammar alone, and what it reads back from the text of a
compiled filter is the clause of its predicate. Each lemma says that one reader takes exactly the
text written for it and leaves the text that follows. A part of a clause ends at its own closing
parenthesis, because no reader takes a parenthesis that it has not opened.
-/
namespace RecordFilter

namespace Clause

variable {cs rest : List Char}

theorem after?_append (text rest : List Char) :
    ∃ le, after? text (text ++ rest) = some ⟨rest, le⟩ := by
  induction text with
  | nil => exact ⟨Nat.le_refl _, rfl⟩
  | cons t text ih =>
    obtain ⟨le, h⟩ := ih
    exact ⟨Nat.le_succ_of_le le, by simp [after?, h]⟩

theorem after?_eq_some {text : List Char} (h : cs = text ++ rest) :
    ∃ le, after? text cs = some ⟨rest, le⟩ := by
  subst h
  exact after?_append text rest

theorem after?_eq_none {text : List Char} (h : text.head? ≠ none)
    (differ : text.head? ≠ cs.head?) : after? text cs = none := by
  cases text with
  | nil => exact absurd rfl h
  | cons t text =>
    cases cs with
    | nil => rfl
    | cons c cs =>
      have differ : t ≠ c := by simpa using differ
      simp [after?, differ]

theorem quote_ne_of_isNameChar (d : Dialect) {c : Char} (h : Sql.isNameChar c = true) :
    c ≠ d.quote := by
  rintro rfl
  cases d <;> exact absurd h (by decide)

theorem identifier?_of_takeQuoted {d : Dialect} {name : List Char}
    (h : Sql.takeQuoted d.quote cs = some (name, rest)) :
    identifier? d cs = some (String.ofList name, ⟨rest, Sql.length_takeQuoted h⟩) := by
  unfold identifier?
  split
  · next taken =>
    cases h.symm.trans taken
    rfl
  · next none => cases h.symm.trans none

theorem identifier?_of_isNameChar (d : Dialect) (cs : List Char) {c : Char}
    (h : Sql.isNameChar c = true) :
    ∃ lt, identifier? d (c :: cs) = some (String.ofList (c :: cs.takeWhile Sql.isNameChar),
      ⟨cs.dropWhile Sql.isNameChar, lt⟩) := by
  have none : Sql.takeQuoted d.quote (c :: cs) = none := if_neg (quote_ne_of_isNameChar d h)
  unfold identifier?
  split
  · next taken => cases none.symm.trans taken
  · exact ⟨Nat.lt_succ_of_le (List.dropWhile_sublist _).length_le, if_pos h⟩

/-- A name reads back, bare or in quotes. -/
theorem identifier?_eq_some (d : Dialect) {name : String} (h : name ≠ "")
    (hcs : cs = (Sql.identifier d name).toList ++ ' ' :: rest) :
    ∃ lt, identifier? d cs = some (name, ⟨' ' :: rest, lt⟩) := by
  obtain quoted | ⟨bare, c, tail, hname, first, others⟩ := Sql.identifier_cases d h
  · rw [quoted] at hcs
    subst hcs
    have blank : (' ' :: rest).head? ≠ some d.quote := by cases d <;> simp [Dialect.quote]
    have read := identifier?_of_takeQuoted (Sql.takeQuoted_quoted name blank)
    rw [String.ofList_toList] at read
    exact ⟨_, read⟩
  · rw [bare, hname] at hcs
    subst hcs
    obtain ⟨lt, read⟩ := identifier?_of_isNameChar d (tail ++ ' ' :: rest) first
    have taken : (tail ++ ' ' :: rest).takeWhile Sql.isNameChar = tail := by
      rw [List.takeWhile_append_of_pos others]
      simp [Sql.isNameChar]
    have left : (tail ++ ' ' :: rest).dropWhile Sql.isNameChar = ' ' :: rest := by
      rw [List.dropWhile_append_of_pos others]
      simp [Sql.isNameChar]
    simp only [taken, left, ← hname, String.ofList_toList] at read
    exact ⟨_, read⟩

theorem operator?_eq_some (op : SqlOp) (h : cs = (op.symbol ++ " ").toList ++ rest) :
    ∃ le, operator? cs = some (op, ⟨rest, le⟩) := by
  subst h
  cases op <;> exact ⟨(List.suffix_append _ rest).length_le, rfl⟩

/-- A number written in front of something else than a digit reads back. -/
theorem takeWhile_isDigit_repr (k : Nat) (hrest : ∀ c ∈ rest.head?, c.isDigit = false) :
    (k.repr.toList ++ rest).takeWhile Char.isDigit = k.repr.toList ∧
      (k.repr.toList ++ rest).dropWhile Char.isDigit = rest := by
  have digits := Decimal.takeDigits_of_areDigits (Decimal.areDigits_toDigits k) hrest
  rw [← Nat.toList_repr] at digits
  exact Prod.mk.inj digits

theorem mark?_eq_some {d : Dialect} {k : Nat} (h : cs = (d.placeholder (k + 1)).toList ++ rest)
    (hrest : ∀ c ∈ rest.head?, c.isDigit = false) :
    ∃ lt, mark? d k cs = some (k + 1, ⟨rest, lt⟩) := by
  subst h
  cases d with
  | postgresql =>
    have number : Nat.ofDigitChars 10 (k + 1).repr.toList 0 = k + 1 := by
      rw [Nat.toList_repr, Nat.ofDigitChars_ten_toDigits]
    obtain ⟨taken, left⟩ := takeWhile_isDigit_repr (k + 1) hrest
    have text : (Dialect.postgresql.placeholder (k + 1)).toList ++ rest =
        '$' :: ((k + 1).repr.toList ++ rest) := by simp [Dialect.placeholder]
    have lt : rest.length < ('$' :: ((k + 1).repr.toList ++ rest)).length := by
      rw [List.length_cons, List.length_append]
      omega
    rw [text]
    exact ⟨lt, by simp only [mark?, taken, left, number, if_true]⟩
  | mysql | sqlite => exact ⟨by simp [Dialect.placeholder], by simp [mark?, Dialect.placeholder]⟩

section Bound

variable {d : Dialect} {bound vs post : List Value} {v : Value} {k : Nat}

theorem value?_eq_some (h : cs = (d.placeholder (k + 1)).toList ++ rest)
    (hrest : ∀ c ∈ rest.head?, c.isDigit = false) (hbound : bound.drop k = v :: post) :
    ∃ lt, value? d bound k cs = some (v, ⟨rest, lt⟩) := by
  obtain ⟨lt, mark⟩ := mark?_eq_some h hrest
  have get : bound[k]? = some v := by
    rw [← List.head?_drop, hbound, List.head?_cons]
  exact ⟨lt, by simp [value?, mark, get]⟩

theorem values?_eq_some (nonempty : vs ≠ []) (hbound : bound.drop k = vs ++ post)
    (h : cs = markChars d ", " k vs.length ++ ')' :: rest) :
    ∃ lt, values? d bound k cs = some (vs, k + vs.length, ⟨')' :: rest, lt⟩) := by
  induction vs generalizing k cs with
  | nil => exact absurd rfl nonempty
  | cons v vs ih =>
    cases vs with
    | nil =>
      obtain ⟨lt, read⟩ := value?_eq_some h (by simp) hbound
      have last : after? ", ".toList (')' :: rest) = none := after?_eq_none (by simp) (by simp)
      refine ⟨lt, ?_⟩
      rw [values?, read]
      simp only [Option.bind_eq_bind, Option.bind_some, last]
      rfl
    | cons w vs =>
      obtain ⟨tail, htail⟩ : ∃ t, t = markChars d ", " (k + 1) (w :: vs).length ++ ')' :: rest :=
        ⟨_, rfl⟩
      have text : cs = (d.placeholder (k + 1)).toList ++ (", ".toList ++ tail) := by
        rw [h, htail]
        simp only [List.length_cons, markChars, List.append_assoc]
      obtain ⟨lt, read⟩ := value?_eq_some text (by simp) hbound
      obtain ⟨le, comma⟩ := after?_append ", ".toList tail
      have next : bound.drop (k + 1) = (w :: vs) ++ post := by
        rw [← List.drop_drop, hbound]
        rfl
      obtain ⟨lt', others⟩ := ih (by simp) next htail
      have met : k + 1 + (w :: vs).length = k + (v :: w :: vs).length := by
        simp only [List.length_cons]
        omega
      refine ⟨by omega, ?_⟩
      rw [values?, read]
      simp only [Option.bind_eq_bind, Option.bind_some, comma, others, met]
      rfl

theorem isDigit_of_closing (hrest : ∀ c ∈ rest.head?, c = ')') :
    ∀ c ∈ rest.head?, c.isDigit = false := by
  intro c hc
  rw [hrest c hc]
  rfl

/-- What is written after an operator reads back as the values at the positions of its
placeholders. -/
theorem operands?_eq_some {op : SqlOp} (admits : op.arity.Admits vs.length)
    (hbound : bound.drop k = vs ++ post) (h : cs = operandChars d k op vs.length ++ rest)
    (hrest : ∀ c ∈ rest.head?, c = ')') :
    ∃ lt, operands? d bound op k cs = some (vs, k + vs.length, ⟨rest, lt⟩) := by
  cases op with
  | eq | notEq | gt | lt | gte | lte =>
    obtain ⟨v, rfl⟩ := List.length_eq_one_iff.mp admits
    obtain ⟨lt, read⟩ := value?_eq_some h (isDigit_of_closing hrest) hbound
    exact ⟨lt, by simp [operands?, read]⟩
  | like | notLike =>
    obtain ⟨v, rfl⟩ := List.length_eq_one_iff.mp admits
    have text : cs = (d.placeholder (k + 1)).toList ++ ((" " ++ d.likeEscape).toList ++ rest) := by
      rw [h, operandChars, List.append_assoc]
      rfl
    obtain ⟨lt, read⟩ := value?_eq_some text (by simp) hbound
    obtain ⟨le, escape⟩ := after?_append (" " ++ d.likeEscape).toList rest
    refine ⟨by omega, ?_⟩
    rw [operands?, read]
    simp only [Option.bind_eq_bind, Option.bind_some, escape]
    rfl
  | isIn | notIn =>
    have nonempty : vs ≠ [] := List.length_pos_iff.mp admits
    obtain ⟨list, hlist⟩ : ∃ t, t = markChars d ", " k vs.length ++ ')' :: rest := ⟨_, rfl⟩
    have text : cs = "(".toList ++ list := by
      rw [h, hlist, operandChars]
      simp
    obtain ⟨le, opening⟩ := after?_eq_some text
    obtain ⟨lt, read⟩ := values?_eq_some nonempty hbound hlist
    obtain ⟨le', closing⟩ : ∃ le, after? ")".toList (')' :: rest) = some ⟨rest, le⟩ :=
      after?_append ")".toList rest
    refine ⟨by omega, ?_⟩
    simp only [operands?, Option.bind_eq_bind, Option.bind_some, opening, read, closing]
    rfl
  | between =>
    obtain ⟨v, w, rfl⟩ := List.length_eq_two.mp admits
    obtain ⟨last, hlast⟩ : ∃ t, t = (d.placeholder (k + 1 + 1)).toList ++ rest := ⟨_, rfl⟩
    have text : cs = (d.placeholder (k + 1)).toList ++ (" AND ".toList ++ last) := by
      rw [h, hlast, operandChars]
      simp [markChars]
    obtain ⟨lt, read⟩ := value?_eq_some text (by simp) hbound
    obtain ⟨le, between⟩ := after?_append " AND ".toList last
    have next : bound.drop (k + 1) = w :: post := by
      rw [← List.drop_drop, hbound]
      rfl
    obtain ⟨lt', read'⟩ := value?_eq_some hlast (isDigit_of_closing hrest) next
    refine ⟨by omega, ?_⟩
    rw [operands?, read]
    simp only [Option.bind_eq_bind, Option.bind_some, between, read']
    rfl

theorem comparison?_eq_some {op : SqlOp} {column : String} (named : column ≠ "")
    (admits : op.arity.Admits vs.length) (hbound : bound.drop k = vs ++ post)
    (h : cs = chars d k (.compare column op vs.length) ++ rest)
    (hrest : ∀ c ∈ rest.head?, c = ')') :
    ∃ lt, comparison? d bound k cs = some (.compare column op vs, k + vs.length, ⟨rest, lt⟩) := by
  obtain ⟨operands, hoperands⟩ : ∃ t, t = operandChars d k op vs.length ++ rest := ⟨_, rfl⟩
  obtain ⟨tail, htail⟩ : ∃ t, t = (op.symbol ++ " ").toList ++ operands := ⟨_, rfl⟩
  have text : cs = (Sql.identifier d column).toList ++ ' ' :: tail := by
    simp [h, chars, htail, hoperands]
  obtain ⟨lt, name⟩ := identifier?_eq_some d named text
  obtain ⟨le, blank⟩ : ∃ le, after? " ".toList (' ' :: tail) = some ⟨tail, le⟩ :=
    after?_append " ".toList tail
  obtain ⟨le', operator⟩ := operator?_eq_some op htail
  obtain ⟨lt', values⟩ := operands?_eq_some admits hbound hoperands hrest
  refine ⟨by omega, ?_⟩
  simp only [comparison?, Option.bind_eq_bind, Option.bind_some, name, blank, operator, values]
  rfl

theorem joint?_eq_some (joint : Joint) (h : cs = joint.text.toList ++ rest) :
    ∃ le, joint? cs = some (joint, ⟨rest, le⟩) := by
  subst h
  cases joint <;> exact ⟨(List.suffix_append _ rest).length_le, rfl⟩

/-- An identifier does not start with a parenthesis. -/
theorem identifier_ne_parenthesis (d : Dialect) {name : String} (named : name ≠ "") :
    ∃ c cs, (Sql.identifier d name).toList = c :: cs ∧ c ≠ '(' := by
  obtain quoted | ⟨bare, c, cs, hname, first, -⟩ := Sql.identifier_cases d named
  · rw [quoted]
    exact ⟨d.quote, _, String.toList_ofList, by cases d <;> decide⟩
  · refine ⟨c, cs, by rw [bare, hname], ?_⟩
    rintro rfl
    exact absurd first (by decide)

/-- Whether the text of a predicate reads back as its clause, whatever values are bound before and
after its own, at the end of a text or in front of a closing parenthesis. -/
def Reads (d : Dialect) (bound : List Value) (p : Predicate) : Prop :=
  ∀ ⦃k : Nat⦄ ⦃cs rest : List Char⦄ ⦃post : List Value⦄, bound.drop k = p.params ++ post →
    cs = p.outline.chars d k ++ rest → (∀ c ∈ rest.head?, c = ')') →
      ∃ lt, clause? d bound k cs = some (p.clause id, k + p.params.length, ⟨rest, lt⟩)

theorem reads_compare {c : Comparison} (named : c.column ≠ "")
    (admits : c.op.arity.Admits c.params.length) : Reads d bound (.compare c) := by
  intro k cs rest post hbound h hrest
  have params : (Predicate.compare c).params = c.params := by
    simp [Predicate.params, Predicate.comparisons]
  rw [params] at hbound ⊢
  obtain ⟨lt, read⟩ := comparison?_eq_some named admits hbound h hrest
  refine ⟨lt, ?_⟩
  rw [clause?, read]
  · rfl
  · rintro inner rfl
    obtain ⟨first, name, text, ne⟩ := identifier_ne_parenthesis d named
    rw [Predicate.outline, Predicate.clause, chars, text] at h
    exact ne (List.cons.inj h).1.symm

/-- A predicate in parentheses reads back up to the closing one. -/
theorem part_eq_some {p : Predicate} (reads : Reads d bound p)
    (hbound : bound.drop k = p.params ++ post)
    (h : cs = "(".toList ++ (p.outline.chars d k ++ (")".toList ++ rest))) :
    ∃ inner lt le, cs = '(' :: inner ∧
      clause? d bound k inner = some (p.clause id, k + p.params.length, ⟨')' :: rest, lt⟩) ∧
      after? ")".toList (')' :: rest) = some ⟨rest, le⟩ := by
  obtain ⟨inner, hinner⟩ : ∃ t, t = p.outline.chars d k ++ ')' :: rest := ⟨_, rfl⟩
  obtain ⟨lt, read⟩ := reads hbound hinner (by simp)
  obtain ⟨le, closing⟩ : ∃ le, after? ")".toList (')' :: rest) = some ⟨rest, le⟩ :=
    after?_append ")".toList rest
  exact ⟨inner, lt, le, by rw [h, hinner]; rfl, read, closing⟩

theorem params_cons (p : Predicate) (ps : List Predicate) :
    (Predicate.comparisonsOf (p :: ps)).flatMap (·.params) =
      p.params ++ (Predicate.comparisonsOf ps).flatMap (·.params) := by
  rw [Predicate.comparisonsOf, List.flatMap_append, Predicate.params]

/-- Of joined predicates the first reads back, and the joint and the others are left. -/
theorem first_eq_some (joint : Joint) {p q : Predicate} {ps : List Predicate}
    (reads : Reads d bound p)
    (hbound : bound.drop k = p.params ++
      ((Predicate.comparisonsOf (q :: ps)).flatMap (·.params) ++ post))
    (h : cs = joinedChars d joint.text k (Predicate.clauses List.length (p :: q :: ps)) ++ rest) :
    ∃ inner tail others lt le, cs = '(' :: inner ∧
      clause? d bound k inner = some (p.clause id, k + p.params.length, ⟨')' :: tail, lt⟩) ∧
      after? ")".toList (')' :: tail) = some ⟨tail, le⟩ ∧
      tail = joint.text.toList ++ others ∧
      others = joinedChars d joint.text (k + p.params.length)
        (Predicate.clauses List.length (q :: ps)) ++ rest ∧
      bound.drop (k + p.params.length) =
        (Predicate.comparisonsOf (q :: ps)).flatMap (·.params) ++ post := by
  obtain ⟨others, hothers⟩ : ∃ t, t = joinedChars d joint.text (k + p.params.length)
    (Predicate.clauses List.length (q :: ps)) ++ rest := ⟨_, rfl⟩
  obtain ⟨tail, htail⟩ : ∃ t, t = joint.text.toList ++ others := ⟨_, rfl⟩
  have text : cs = "(".toList ++ (p.outline.chars d k ++ (")".toList ++ tail)) := by
    rw [h, htail, hothers, ← Predicate.size_clause]
    simp [Predicate.clauses, joinedChars]
  obtain ⟨inner, lt, le, hinner, read, closing⟩ := part_eq_some reads hbound text
  have next : bound.drop (k + p.params.length) =
      (Predicate.comparisonsOf (q :: ps)).flatMap (·.params) ++ post := by
    rw [← List.drop_drop, hbound, List.drop_left]
  exact ⟨inner, tail, others, lt, le, hinner, read, closing, htail, hothers, next⟩

theorem parts?_eq_some (joint : Joint) {ps : List Predicate} (nonempty : ps ≠ [])
    (reads : ∀ p ∈ ps, Reads d bound p)
    (hbound : bound.drop k = (Predicate.comparisonsOf ps).flatMap (·.params) ++ post)
    (h : cs = joinedChars d joint.text k (Predicate.clauses List.length ps) ++ rest)
    (hrest : ∀ c ∈ rest.head?, c = ')') :
    ∃ lt, parts? d bound joint k cs = some (Predicate.clauses id ps,
      k + ((Predicate.comparisonsOf ps).flatMap (·.params)).length, ⟨rest, lt⟩) := by
  induction ps generalizing k cs with
  | nil => exact absurd rfl nonempty
  | cons p ps ih =>
    have first := reads p List.mem_cons_self
    rw [params_cons, List.append_assoc] at hbound
    rw [params_cons, List.length_append, ← Nat.add_assoc, Predicate.clauses]
    cases ps with
    | nil =>
      have text : cs = "(".toList ++ (p.outline.chars d k ++ (")".toList ++ rest)) := by
        rw [h]
        simp [Predicate.clauses, joinedChars]
      obtain ⟨inner, lt, le, rfl, read, closing⟩ := part_eq_some first hbound text
      -- No part follows the last one: a joint starts with a blank, and what follows does not.
      have blank : joint.text.toList.head? = some ' ' := by cases joint <;> rfl
      have last : after? joint.text.toList rest = none := by
        refine after?_eq_none (by simp [blank]) ?_
        rw [blank]
        exact fun same => absurd (hrest ' ' same.symm) (by decide)
      refine ⟨by simp only [List.length_cons] at *; omega, ?_⟩
      rw [parts?, read]
      simp only [Option.bind_eq_bind, Option.bind_some, closing, last]
      rfl
    | cons q ps =>
      obtain ⟨inner, tail, others, lt, le, rfl, read, closing, htail, hothers, next⟩ :=
        first_eq_some joint first hbound h
      obtain ⟨le', separator⟩ := after?_eq_some htail
      obtain ⟨lt', parts⟩ := ih (by simp) (fun p hp => reads p (List.mem_cons_of_mem _ hp)) next
        hothers
      refine ⟨by simp only [List.length_cons] at *; omega, ?_⟩
      rw [parts?, read]
      simp only [Option.bind_eq_bind, Option.bind_some, closing, separator, parts]
      rfl

/-- Two or more joined predicates read back as their joined clauses. -/
theorem clause?_joined (joint : Joint) {ps : List Predicate} (two : 2 ≤ ps.length)
    (reads : ∀ p ∈ ps, Reads d bound p)
    (hbound : bound.drop k = (Predicate.comparisonsOf ps).flatMap (·.params) ++ post)
    (h : cs = joinedChars d joint.text k (Predicate.clauses List.length ps) ++ rest)
    (hrest : ∀ c ∈ rest.head?, c = ')') :
    ∃ lt, clause? d bound k cs = some (joint.clause (Predicate.clauses id ps),
      k + ((Predicate.comparisonsOf ps).flatMap (·.params)).length, ⟨rest, lt⟩) := by
  match ps with
  | p :: q :: ps =>
    rw [params_cons, List.append_assoc] at hbound
    rw [params_cons, List.length_append, ← Nat.add_assoc, Predicate.clauses]
    obtain ⟨inner, tail, others, lt, le, rfl, read, closing, htail, hothers, next⟩ :=
      first_eq_some joint (reads p List.mem_cons_self) hbound h
    obtain ⟨le', separator⟩ := joint?_eq_some joint htail
    obtain ⟨lt', parts⟩ := parts?_eq_some joint (by simp)
      (fun part h => reads part (List.mem_cons_of_mem p h)) next hothers hrest
    refine ⟨by simp only [List.length_cons] at *; omega, ?_⟩
    rw [clause?, read]
    simp only [Option.bind_eq_bind, Option.bind_some, closing, separator, parts]
    rfl

end Bound

end Clause

namespace Predicate

/-- The predicates whose text a reader can take apart: columns have names, comparisons bind as many
values as their operators take, and at least two parts are joined. -/
inductive Readable : Predicate → Prop
  | compare {c : Comparison} (named : c.column ≠ "")
      (admits : c.op.arity.Admits c.params.length) : Readable (.compare c)
  | all {ps : List Predicate} (two : 2 ≤ ps.length) (parts : ∀ p ∈ ps, Readable p) :
      Readable (.all ps)
  | any {ps : List Predicate} (two : 2 ≤ ps.length) (parts : ∀ p ∈ ps, Readable p) :
      Readable (.any ps)

theorem Readable.reads {d : Dialect} {bound : List Value} {p : Predicate} (h : p.Readable) :
    Clause.Reads d bound p := by
  induction h with
  | compare named admits => exact Clause.reads_compare named admits
  | all two _ ih =>
    intro k cs rest post hbound h hrest
    rw [params, comparisons] at hbound ⊢
    exact Clause.clause?_joined .both two ih hbound h hrest
  | any two _ ih =>
    intro k cs rest post hbound h hrest
    rw [params, comparisons] at hbound ⊢
    exact Clause.clause?_joined .either two ih hbound h hrest

/-- The text of a readable predicate and its values read back as its clause. -/
theorem Readable.read? {p : Predicate} (h : p.Readable) (d : Dialect) :
    Clause.read? d (p.write (Sql.Builder.start d)).sql
      (p.write (Sql.Builder.start d)).params.toList = some (p.clause id) := by
  have adds := p.adds_write (Sql.Builder.start d)
  have values : (p.write (Sql.Builder.start d)).params.toList = p.params := adds.params
  have reads : Clause.Reads d p.params p := h.reads
  obtain ⟨lt, read⟩ := reads (k := 0) (List.append_nil _).symm
    (adds.sql.trans (List.append_nil _).symm) (by simp)
  rw [Clause.read?, values, read]
  simp

theorem readable_fold {combine : List Predicate → Predicate}
    (combined : ∀ ps, 2 ≤ ps.length → (∀ p ∈ ps, Readable p) → Readable (combine ps))
    {ps : List Predicate} (h : ∀ p ∈ ps, Readable p) : ∀ p ∈ fold combine ps, Readable p :=
  forall_mem_fold h fun two => combined ps two h

theorem readable_conj {ps : List Predicate} (h : ∀ p ∈ ps, Readable p) :
    ∀ p ∈ conj ps, Readable p :=
  readable_fold (fun _ => .all) h

theorem readable_disj {ps : List Predicate} (h : ∀ p ∈ ps, Readable p) :
    ∀ p ∈ disj ps, Readable p :=
  readable_fold (fun _ => .any) h

end Predicate

section Compiled

variable {rt : RecordType} {r : Resolver}

/-- The comparison of a condition reads back: its column is safe, and its values are as many as its
operator takes. -/
theorem Condition.readable_comparison {path : Path} {c : Condition} {comparison : Comparison}
    (h : c.comparison? rt r path = some comparison) : (Predicate.compare comparison).Readable := by
  have admits := (length_params h).1
  obtain ⟨-, resolved, op, params, hr, -, -, rfl⟩ := comparison?_eq_some_iff.mp h
  rw [Resolver.safe?, Option.filter_eq_some_iff] at hr
  exact .compare (Sql.ne_empty_of_isSafe hr.2) admits

theorem SubGroup.readable_predicate {sub : SubGroup} {g s : Nat} :
    ∀ p ∈ sub.predicate rt r g s, p.Readable := by
  refine Predicate.readable_conj fun p hp => ?_
  obtain ⟨comparison, hc, rfl⟩ := List.mem_map.mp hp
  obtain ⟨⟨path, c⟩, -, hc⟩ := List.mem_filterMap.mp hc
  exact Condition.readable_comparison hc

theorem Group.readable_predicate {group : Group} {g : Nat} :
    ∀ p ∈ group.predicate rt r g, p.Readable := by
  refine Predicate.readable_disj fun p hp => ?_
  obtain ⟨⟨sub, s⟩, -, hp⟩ := List.mem_filterMap.mp hp
  exact SubGroup.readable_predicate p hp

/-- What a filter compiles to is readable. -/
theorem Filter.readable_predicate {f : Filter} : ∀ p ∈ f.predicate rt r, p.Readable := by
  refine Predicate.readable_conj fun p hp => ?_
  obtain ⟨⟨group, g⟩, -, hp⟩ := List.mem_filterMap.mp hp
  exact Group.readable_predicate p hp

end Compiled

/-- The condition of a compiled filter reads back as its predicate without tables and paths. -/
theorem Filter.read?_written {f : Filter} {r : Resolver} {q : Query} {p : Predicate}
    (h : f.compile r = .ok q) (hp : q.predicate = some p) (d : Dialect) :
    Clause.read? d (q.whereClause d).sql (q.whereClause d).params.toList = some (p.clause id) := by
  obtain ⟨rt, -, -, rfl⟩ := compile_eq_ok_iff.mp h
  rw [Query.whereClause, hp]
  exact (readable_predicate p hp).read? d

/-- The condition of a compiled filter reads back as its predicate without tables and paths. So the
texts of all dialects say the same, and the text with its values fixes the predicate. -/
theorem Filter.read?_whereClause {f : Filter} {r : Resolver} {q : Query} {p : Predicate}
    (h : f.compile r = .ok q) (hp : q.predicate = some p) :
    (∀ d, Clause.read? d (q.whereClause d).sql (q.whereClause d).params.toList =
      some (p.clause id)) ∧
    (∀ d d', Clause.read? d (q.whereClause d).sql (q.whereClause d).params.toList =
      Clause.read? d' (q.whereClause d').sql (q.whereClause d').params.toList) ∧
    ∀ (f' : Filter) (r' : Resolver) (q' : Query) (p' : Predicate) (d : Dialect),
      f'.compile r' = .ok q' → q'.predicate = some p' →
      (q.whereClause d).sql = (q'.whereClause d).sql →
      (q.whereClause d).params = (q'.whereClause d).params → p.clause id = p'.clause id := by
  have read := read?_written h hp
  refine ⟨read, fun d d' => (read d).trans (read d').symm, ?_⟩
  intro f' r' q' p' d h' hp' sql params
  have read' := read?_written h' hp' d
  rw [← sql, ← params, read d] at read'
  exact Option.some.inj read'

theorem Filter.read?_whereClause_patchy :
    Clause.read? .postgresql "(age BETWEEN $1 AND $2) OR (name LIKE $3 ESCAPE '\\')"
      [.int 18, .int 65, .text "%50\\%%"] =
      some ((Predicate.patchy 18 65 "%50\\%%").clause id) :=
  (read?_whereClause (f := .patchy 18 65 "50%") (r := .ageAndName)
    (q := ⟨.contact, some (.patchy 18 65 "%50\\%%")⟩) rfl rfl).1 .postgresql

end RecordFilter
