import Mathlib.Algebra.GroupWithZero.Nat
import RecordFilter.Proofs.Readback

/-!
# Placeholders and values in step

`Sql.Step` is one use of a builder, and `Step.texts` says what each of several steps writes: only
the number of values bound before a step enters its text. For a predicate the placeholders are
counted in the text that was written. `Sql.marks` reads their numbers off any text, passing over
quoted names and literals, and finds one placeholder for each value, in order. The columns of a
predicate may hold any characters here, so the count must not be led astray by what stands between
quotes.
-/
namespace RecordFilter

namespace Sql

/-- One use of a builder. -/
inductive Step where
  | push (s : String)
  | identifier (name : String)
  | param (v : Value)
  | params (vs : List Value)

namespace Step

def values : Step → List Value
  | push _ | identifier _ => []
  | param v => [v]
  | params vs => vs

/-- The text of a step before which `n` values are bound. -/
def text (d : Dialect) (n : Nat) : Step → String
  | push s => s
  | identifier name => Sql.identifier d name
  | param _ => d.placeholder (n + 1)
  | params vs => ", ".intercalate ((List.range' (n + 1) vs.length).map d.placeholder)

def texts (d : Dialect) (n : Nat) (steps : List Step) : List String :=
  steps.mapIdx fun i step => step.text d (n + ((steps.take i).flatMap values).length)

theorem texts_cons (d : Dialect) (n : Nat) (step : Step) (steps : List Step) :
    texts d n (step :: steps) = step.text d n :: texts d (n + step.values.length) steps := by
  simp [texts, List.mapIdx_cons, Nat.add_assoc]

end Step

namespace Builder

def step (b : Builder) : Step → Builder
  | .push s => b.push s
  | .identifier name => b.pushIdentifier name
  | .param v => b.pushParam v
  | .params vs => b.pushParams vs

def run (b : Builder) (steps : List Step) : Builder := steps.foldl step b

end Builder
end Sql

/-- The placeholders of joined values are those of the numbers that follow. -/
theorem Clause.markChars_eq (d : Dialect) (separator : String) (k n : Nat) :
    markChars d separator k n =
      (separator.intercalate ((List.range' (k + 1) n).map d.placeholder)).toList := by
  fun_induction markChars d separator k n with
  | case1 => simp
  | case2 => simp
  | case3 k n ih => simp [ih, List.range'_succ]

namespace Sql.Builder

theorem adds_step (b : Builder) (step : Step) :
    Adds b (b.step step) (step.text b.dialect b.params.size).toList step.values := by
  cases step with
  | push s => exact b.adds_push s
  | identifier name => exact b.adds_push _
  | param v => exact b.adds_pushParam v
  | params vs => exact (adds_pushJoined ", " b vs).cast (Clause.markChars_eq ..) rfl

/-- Steps append their texts and bind their values. -/
theorem adds_run (b : Builder) (steps : List Step) :
    Adds b (b.run steps) (String.join (Step.texts b.dialect b.params.size steps)).toList
      (steps.flatMap Step.values) := by
  induction steps generalizing b with
  | nil => exact ⟨rfl, (List.append_nil _).symm, (List.append_nil _).symm⟩
  | cons step steps ih =>
    have first := b.adds_step step
    have others := ih (b.step step)
    rw [first.dialect, first.size] at others
    refine (first.trans others).cast ?_ List.flatMap_cons.symm
    rw [Step.texts_cons, String.join_cons, String.toList_append]

end Sql.Builder

namespace Sql

/-- The numbers of the placeholders in a text before which `met` of them stand. Names and literals
in quotes are passed over. -/
def marks (d : Dialect) (met : Nat) : List Char → List Nat
  | [] => []
  | c :: cs =>
    match Clause.mark? d met (c :: cs) with
    | some (k, ⟨rest, _⟩) => k :: marks d (met + 1) rest
    | none =>
      if c = d.quote ∨ c = '\'' then
        match h : takeUnquoted c cs with
        | some (_, rest) =>
          have := length_takeUnquoted h
          marks d met rest
        | none => [] -- What follows a quote that is left open cannot be told apart.
      else marks d met cs
termination_by cs => cs.length
decreasing_by all_goals simp only [List.length_cons] at *; omega

variable {d : Dialect} {met k m n : Nat} {cs s t u rest : List Char} {c : Char}

theorem marks_nil : marks d met [] = [] := by rw [marks]

theorem marks_of_mark? {lt : rest.length < cs.length}
    (h : Clause.mark? d met cs = some (k, ⟨rest, lt⟩)) :
    marks d met cs = k :: marks d (met + 1) rest := by
  cases cs with
  | nil => exact absurd lt (Nat.not_lt_zero _)
  | cons c cs => rw [marks, h]

/-- A character that starts neither a placeholder nor a quoted part. -/
def isPlain (c : Char) : Bool := !(['$', '?', '\'', '"', '\x60'].contains c)

theorem marks_cons_of_isPlain (plain : isPlain c = true) :
    marks d met (c :: cs) = marks d met cs := by
  have differs : c ≠ '$' ∧ c ≠ '?' ∧ c ≠ '\'' ∧ c ≠ '"' ∧ c ≠ '\x60' := by
    simpa [isPlain, and_assoc] using plain
  obtain ⟨dollar, question, literal, double, back⟩ := differs
  have unmarked : Clause.mark? d met (c :: cs) = none := by
    cases d <;> simp [Clause.mark?, dollar, question]
  have unquoted : ¬(c = d.quote ∨ c = '\'') := by
    cases d <;> simp [Dialect.quote, literal, double, back]
  rw [marks, unmarked]
  exact if_neg unquoted

theorem marks_append_of_isPlain (plain : s.all isPlain = true) :
    marks d met (s ++ rest) = marks d met rest := by
  induction s with
  | nil => rfl
  | cons c s ih =>
    rw [List.all_cons, Bool.and_eq_true] at plain
    rw [List.cons_append, marks_cons_of_isPlain plain.1, ih plain.2]

/-- A part in quotes has no placeholders, whatever it holds. -/
theorem marks_quoted (quote : c = d.quote ∨ c = '\'') (name : List Char)
    (hrest : rest.head? ≠ some c) :
    marks d met (c :: (doubled c name ++ c :: rest)) = marks d met rest := by
  have unmarked : Clause.mark? d met (c :: (doubled c name ++ c :: rest)) = none := by
    cases d <;> obtain rfl | rfl := quote <;> rfl
  rw [marks, unmarked]
  simp only [quote, if_true]
  split
  · next taken =>
    rw [takeUnquoted_doubled name hrest] at taken
    cases taken
    rfl
  · next none => cases none.symm.trans (takeUnquoted_doubled name hrest)

/-- A character with which a number or a part in quotes cannot go on. -/
def isBreak (c : Char) : Bool := [' ', ',', ')'].contains c

/-- A text of plain characters that may follow any part. -/
def separates (s : List Char) : Bool := s.all isPlain && s.head?.any isBreak

/-- The text ends there, or a break follows. -/
def Ends (cs : List Char) : Prop := ∀ c ∈ cs.head?, isBreak c = true

theorem Ends.isDigit (h : Ends cs) : ∀ c ∈ cs.head?, c.isDigit = false := by
  intro c hc
  have known : c = ' ' ∨ c = ',' ∨ c = ')' := by simpa [isBreak] using h c hc
  obtain rfl | rfl | rfl := known <;> rfl

theorem Ends.head?_ne (h : Ends cs) (other : isBreak c = false) : cs.head? ≠ some c :=
  fun hc => Bool.false_ne_true (other.symm.trans (h c hc))

theorem ends_append (h : separates s = true) (cs : List Char) : Ends (s ++ cs) := by
  cases s with
  | nil => cases h
  | cons c s =>
    rintro _ ⟨rfl⟩
    exact (Bool.and_eq_true_iff.mp h).2

/-- In front of any break the text has the placeholders of the `n` values after the first `k`, and
no others. -/
def Counts (d : Dialect) (k n : Nat) (text : List Char) : Prop :=
  ∀ rest, Ends rest → marks d k (text ++ rest) = List.range' (k + 1) n ++ marks d (k + n) rest

theorem counts_nil : Counts d k 0 [] := fun _ _ => rfl

theorem Counts.after (plain : s.all isPlain = true) (h : Counts d k n t) :
    Counts d k n (s ++ t) := by
  intro rest ends
  rw [List.append_assoc, marks_append_of_isPlain plain, h rest ends]

theorem counts_of_isPlain (plain : s.all isPlain = true) : Counts d k 0 s := by
  simpa using counts_nil.after plain

/-- The placeholders of two parts are counted on. -/
theorem Counts.append (h : Counts d k m s) (sep : separates u = true) (h' : Counts d (k + m) n t) :
    Counts d k (m + n) (s ++ (u ++ t)) := by
  intro rest ends
  have plain : u.all isPlain = true := (Bool.and_eq_true_iff.mp sep).1
  have others := h'.after plain rest ends
  rw [List.append_assoc] at others
  rw [List.append_assoc, List.append_assoc, h _ (ends_append sep _), others, ← List.append_assoc,
    Nat.add_right_comm k m 1, List.range'_append_1, Nat.add_assoc]

theorem Counts.before (h : Counts d k n s) (sep : separates u = true) : Counts d k n (s ++ u) := by
  simpa using h.append sep counts_nil

theorem counts_placeholder : Counts d k 1 (d.placeholder (k + 1)).toList := by
  intro rest ends
  obtain ⟨lt, mark⟩ := Clause.mark?_eq_some rfl ends.isDigit
  exact marks_of_mark? mark

theorem counts_quoted (quote : c = d.quote ∨ c = '\'') (name : List Char) :
    Counts d k 0 (c :: (doubled c name ++ [c])) := by
  intro rest ends
  have other : isBreak c = false := by
    cases d <;> obtain rfl | rfl := quote <;> decide
  simpa using marks_quoted quote name (ends.head?_ne other)

theorem isPlain_of_isNameChar (h : isNameChar c = true) : isPlain c = true := by
  by_contra mark
  have special : c = '$' ∨ c = '?' ∨ c = '\'' ∨ c = '"' ∨ c = '\x60' := by
    simpa [isPlain, or_iff_not_imp_left] using mark
  obtain rfl | rfl | rfl | rfl | rfl := special <;> exact absurd h (by decide)

/-- A name has no placeholders, whatever its characters are. -/
theorem counts_identifier (d : Dialect) (k : Nat) (name : String) :
    Counts d k 0 (identifier d name).toList := by
  rw [identifier]
  split
  · rw [quoted, String.toList_ofList]
    exact counts_quoted (.inl rfl) name.toList
  · next bare =>
    have named : ∀ c ∈ name.toList, isNameChar c = true := by simp_all [needsQuoting]
    exact counts_of_isPlain (List.all_eq_true.mpr fun c hc => isPlain_of_isNameChar (named c hc))

theorem counts_likeEscape (d : Dialect) (k : Nat) : Counts d k 0 d.likeEscape.toList := by
  have literal (escape : List Char) (h : escape = doubled '\'' escape) :
      Counts d k 0 ("ESCAPE ".toList ++ '\'' :: (escape ++ ['\''])) := by
    rw [h]
    exact (counts_quoted (.inr rfl) escape).after (by decide)
  cases d with
  | postgresql | sqlite => exact literal ['\\'] rfl
  | mysql => exact literal ['\\', '\\'] rfl

end Sql

namespace Clause

open Sql (Counts separates isPlain)

variable {d : Dialect}

theorem counts_markChars {separator : String} (sep : separates separator.toList = true)
    (k n : Nat) : Counts d k n (markChars d separator k n) := by
  fun_induction markChars d separator k n with
  | case1 => exact Sql.counts_nil
  | case2 => exact Sql.counts_placeholder
  | case3 k n ih =>
    have whole := Sql.counts_placeholder.append sep ih
    rwa [Nat.add_comm 1] at whole

theorem counts_operandChars (k : Nat) (op : SqlOp) (n : Nat) :
    Counts d k n (operandChars d k op n) := by
  have listed : Counts d k n (markChars d ", " k n) := counts_markChars (by decide) k n
  cases op with
  | like | notLike =>
    rw [operandChars, String.toList_append]
    exact listed.append (by decide) (Sql.counts_likeEscape d (k + n))
  | isIn | notIn => exact (listed.before (by decide)).after (by decide)
  | between => exact counts_markChars (by decide) k n
  | eq | notEq | gt | lt | gte | lte => exact listed

/-- Parentheses add no placeholder. -/
theorem counts_parenthesized {k n : Nat} {t : List Char} (h : Counts d k n t) :
    Counts d k n ("(".toList ++ (t ++ ")".toList)) :=
  (h.before (by decide)).after (by decide)

mutual

/-- The text of a clause has the placeholders of its values, and no others. -/
theorem counts_chars : ∀ (c : Clause Nat) (k : Nat), Counts d k c.size (chars d k c)
  | compare column op n, k => by
    have symbol : (op.symbol ++ " ").toList.all isPlain = true := by cases op <;> decide
    have operands := (counts_operandChars (d := d) k op n).after symbol
    have whole := (Sql.counts_identifier d k column).append (u := " ".toList) (by decide) operands
    rwa [Nat.zero_add] at whole
  | all cs, k => counts_joinedChars .both cs k
  | any cs, k => counts_joinedChars .either cs k

theorem counts_joinedChars (joint : Joint) : ∀ (cs : List (Clause Nat)) (k : Nat),
    Counts d k (sizes cs) (joinedChars d joint.text k cs)
  | [], _ => Sql.counts_nil
  | [c], k => counts_parenthesized (counts_chars c k)
  | c :: c' :: cs, k => by
    have sep : separates joint.text.toList = true := by cases joint <;> decide
    -- The numbers of the other parts go on after those of the first.
    have whole := (counts_parenthesized (counts_chars c k)).append sep
      (counts_joinedChars joint (c' :: cs) (k + c.size))
    rw [sizes]
    simpa [joinedChars] using whole

end

end Clause

open Sql (Builder)

namespace Predicate

theorem paramCount_eq (p : Predicate) :
    p.paramCount = (p.comparisons.map (·.params.length)).sum :=
  List.length_flatMap

/-- What is written for a predicate numbers its placeholders on from the values already bound. -/
theorem marks_write (p : Predicate) (b : Builder) :
    ∃ text, (p.write b).sql = b.sql ++ text ∧
      Sql.marks b.dialect b.params.size text.toList =
        List.range' (b.params.size + 1) p.paramCount := by
  refine ⟨String.ofList (p.outline.chars b.dialect b.params.size), ?_, ?_⟩
  · rw [← String.toList_inj, (p.adds_write b).sql, String.toList_append, String.toList_ofList]
  · have counts := Clause.counts_chars (d := b.dialect) p.outline b.params.size [] nofun
    rw [List.append_nil, Sql.marks_nil, List.append_nil, size_clause] at counts
    rw [String.toList_ofList, counts, paramCount]

-- The `$1` in the name of a column is not a placeholder.
example : Sql.marks .postgresql 2 "(\"a$1\" = $3) AND (b LIKE $4 ESCAPE '\\')".toList = [3, 4] := by
  cbv

end Predicate

namespace Query

/-- The statement of a query with a predicate ends with the text of the condition. -/
theorem select_eq (rt : RecordType) (p : Predicate) (d : Dialect) :
    ((⟨rt, some p⟩ : Query).select d).sql = "SELECT * FROM " ++ Sql.identifier d rt.table ++
        " WHERE " ++ ((⟨rt, some p⟩ : Query).whereClause d).sql ∧
      ((⟨rt, some p⟩ : Query).select d).params = ((⟨rt, some p⟩ : Query).whereClause d).params := by
  constructor
  · rw [← String.toList_inj, sql_select]
    simp [outline, sql_whereClause]
  · rw [← Array.toList_inj]
    exact (p.adds_write _).params.trans (p.adds_write (Builder.start d)).params.symm

end Query

/-- Placeholders and values stay in step: along any steps of a builder, for any predicate written
after any number of values, and between the two texts of a query. -/
theorem Sql.placeholders_in_step :
    (∀ (b : Builder) (steps : List Step),
      (b.run steps).sql = b.sql ++ String.join (Step.texts b.dialect b.params.size steps) ∧
      (b.run steps).params.toList = b.params.toList ++ steps.flatMap Step.values) ∧
    (∀ (d : Dialect) (k : Nat),
      d.placeholder k = if d = .postgresql then "$" ++ k.repr else "?") ∧
    (∀ (p : Predicate) (b : Builder),
      (p.write b).params.toList = b.params.toList ++ p.comparisons.flatMap (·.params) ∧
      p.paramCount = (p.comparisons.map (·.params.length)).sum ∧
      (p.write b).params.size = b.params.size + p.paramCount ∧
      ∃ text, (p.write b).sql = b.sql ++ text ∧
        marks b.dialect b.params.size text.toList =
          List.range' (b.params.size + 1) p.paramCount) ∧
    ∀ (rt : RecordType) (p : Predicate) (d : Dialect),
      ((⟨rt, some p⟩ : Query).select d).sql = "SELECT * FROM " ++ identifier d rt.table ++
          " WHERE " ++ ((⟨rt, some p⟩ : Query).whereClause d).sql ∧
        ((⟨rt, some p⟩ : Query).select d).params =
          ((⟨rt, some p⟩ : Query).whereClause d).params := by
  refine ⟨fun b steps => ⟨?_, (b.adds_run steps).params⟩, fun d k => by cases d <;> rfl,
    fun p b => ?_, Query.select_eq⟩
  · rw [← String.toList_inj, String.toList_append, (b.adds_run steps).sql]
  · have added := p.adds_write b
    exact ⟨added.params, p.paramCount_eq, added.size, p.marks_write b⟩

end RecordFilter
