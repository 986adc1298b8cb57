import RecordFilter.Query.Clause

/-!
# The written text

`Clause.chars` is the text of a clause of which only the numbers of bound values are known.
`Predicate.adds_write` says that writing a predicate appends the text of its clause and binds its
values in order, so that no value takes part in the text.
-/
namespace RecordFilter

namespace Sql.Builder

/-- `b'` is `b` with a text appended and further values bound. -/
structure Adds (b b' : Builder) (text : List Char) (values : List Value) : Prop where
  dialect : b'.dialect = b.dialect
  sql : b'.sql.toList = b.sql.toList ++ text
  params : b'.params.toList = b.params.toList ++ values

theorem Adds.size {b b' : Builder} {text : List Char} {values : List Value}
    (h : Adds b b' text values) : b'.params.size = b.params.size + values.length := by
  rw [← Array.length_toList, h.params, List.length_append, Array.length_toList]

theorem Adds.trans {b b' b'' : Builder} {s t : List Char} {vs ws : List Value}
    (h : Adds b b' s vs) (h' : Adds b' b'' t ws) : Adds b b'' (s ++ t) (vs ++ ws) where
  dialect := h'.dialect.trans h.dialect
  sql := by rw [h'.sql, h.sql, List.append_assoc]
  params := by rw [h'.params, h.params, List.append_assoc]

theorem Adds.cast {b b' : Builder} {s t : List Char} {vs ws : List Value} (h : Adds b b' s vs)
    (text : s = t) (values : vs = ws) : Adds b b' t ws :=
  text ▸ values ▸ h

/-- The text and the values that are added determine the builder. -/
theorem Adds.unique {b b' b'' : Builder} {s : List Char} {vs : List Value} (h : Adds b b' s vs)
    (h' : Adds b b'' s vs) : b' = b'' := by
  have dialect := h.dialect.trans h'.dialect.symm
  have sql := String.toList_inj.mp (h.sql.trans h'.sql.symm)
  have params := Array.toList_inj.mp (h.params.trans h'.params.symm)
  cases b'
  cases b''
  rw [mk.injEq]
  exact ⟨dialect, sql, params⟩

theorem adds_push (b : Builder) (s : String) : Adds b (b.push s) s.toList [] where
  dialect := rfl
  sql := String.toList_append
  params := (List.append_nil _).symm

theorem adds_pushParam (b : Builder) (v : Value) :
    Adds b (b.pushParam v) (b.dialect.placeholder (b.params.size + 1)).toList [v] where
  dialect := rfl
  sql := String.toList_append
  params := Array.toList_push

end Sql.Builder

open Sql (Builder)

namespace Clause

/-- The placeholders of `n` values after the first `k`, with `separator` between them. -/
def markChars (d : Dialect) (separator : String) (k : Nat) : Nat → List Char
  | 0 => []
  | 1 => (d.placeholder (k + 1)).toList
  | n + 2 => (d.placeholder (k + 1)).toList ++
      (separator.toList ++ markChars d separator (k + 1) (n + 1))

/-- The text after an operator that takes `n` values after the first `k`. -/
def operandChars (d : Dialect) (k : Nat) (op : SqlOp) (n : Nat) : List Char :=
  match op with
  | .like | .notLike => markChars d ", " k n ++ (" " ++ d.likeEscape).toList
  | .isIn | .notIn => "(".toList ++ (markChars d ", " k n ++ ")".toList)
  | .between => markChars d " AND " k n
  | .eq | .notEq | .gt | .lt | .gte | .lte => markChars d ", " k n

mutual

/-- The number of values that a clause binds. -/
def size : Clause Nat → Nat
  | compare _ _ n => n
  | all cs | any cs => sizes cs

def sizes : List (Clause Nat) → Nat
  | [] => 0
  | c :: cs => size c + sizes cs

end

mutual

/-- The text of a clause whose values come after the first `k`. -/
def chars (d : Dialect) (k : Nat) : Clause Nat → List Char
  | compare column op n => (Sql.identifier d column).toList ++
      (" ".toList ++ ((op.symbol ++ " ").toList ++ operandChars d k op n))
  | all cs => joinedChars d Joint.both.text k cs
  | any cs => joinedChars d Joint.either.text k cs

/-- The text of clauses in parentheses with `separator` between them. -/
def joinedChars (d : Dialect) (separator : String) (k : Nat) : List (Clause Nat) → List Char
  | [] => []
  | [c] => "(".toList ++ (chars d k c ++ ")".toList)
  | c :: cs => "(".toList ++ (chars d k c ++ (")".toList ++ (separator.toList ++
      joinedChars d separator (k + size c) cs)))

end

end Clause

theorem adds_pushJoined (separator : String) (b : Builder) (vs : List Value) :
    b.Adds (b.pushJoined separator vs)
      (Clause.markChars b.dialect separator b.params.size vs.length) vs := by
  cases vs with
  | nil => exact ⟨rfl, (List.append_nil _).symm, (List.append_nil _).symm⟩
  | cons v vs =>
    induction vs generalizing b v with
    | nil => exact b.adds_pushParam v
    | cons w vs ih =>
      have first := (b.adds_pushParam v).trans ((b.pushParam v).adds_push separator)
      have whole := first.trans (ih ((b.pushParam v).push separator) w)
      rw [List.append_assoc, first.dialect, first.size] at whole
      exact whole

theorem Comparison.adds_write (c : Comparison) (b : Builder) :
    b.Adds (c.write b) (((Predicate.compare c).clause List.length).chars b.dialect b.params.size)
      c.params := by
  obtain ⟨table, column, op, params, path⟩ := c
  have column := (b.adds_push (Sql.identifier b.dialect column)).trans
    ((b.pushIdentifier column).adds_push " ")
  have values (word blank separator : String) :=
    ((column.trans (Builder.adds_push _ word)).trans (Builder.adds_push _ blank)).trans
      (adds_pushJoined separator _ params)
  have closed (word blank separator last : String) :=
    (values word blank separator).trans (Builder.adds_push _ last)
  rw [Predicate.clause, Clause.chars]
  cases op with
  | like | notLike =>
    exact (closed _ " " ", " (" " ++ b.dialect.likeEscape)).cast
      (by simp [Clause.operandChars, SqlOp.symbol]) (by simp)
  | isIn | notIn =>
    exact (closed _ " (" ", " ")").cast (by simp [Clause.operandChars, SqlOp.symbol]) (by simp)
  | between =>
    exact ((column.trans (Builder.adds_push _ "BETWEEN ")).trans
      (adds_pushJoined " AND " _ params)).cast
      (by simp [Clause.operandChars, SqlOp.symbol]) (by simp)
  | eq | notEq | gt | lt | gte | lte =>
    exact (values _ " " ", ").cast (by simp [Clause.operandChars, SqlOp.symbol]) (by simp)

namespace Predicate

/-- The clause of a predicate with the number of values that each comparison binds. -/
abbrev outline (p : Predicate) : Clause Nat := p.clause List.length

mutual

theorem size_clause : ∀ p : Predicate, p.outline.size = p.params.length
  | compare c => by simp [clause, Clause.size, params, comparisons]
  | all ps => by simpa [clause, Clause.size, params, comparisons] using sizes_clauses ps
  | any ps => by simpa [clause, Clause.size, params, comparisons] using sizes_clauses ps

theorem sizes_clauses : ∀ ps : List Predicate,
    Clause.sizes (clauses List.length ps) = ((comparisonsOf ps).flatMap (·.params)).length
  | [] => by simp [clauses, Clause.sizes, comparisonsOf]
  | p :: ps => by
    rw [clauses, Clause.sizes, size_clause p, sizes_clauses ps, comparisonsOf, List.flatMap_append,
      List.length_append, params]

end

mutual

/-- Writing a predicate appends the text of its clause and binds its values. -/
theorem adds_write : ∀ (p : Predicate) (b : Builder),
    b.Adds (p.write b) (p.outline.chars b.dialect b.params.size) p.params
  | compare c, b => by
    simpa [write, params, comparisons] using c.adds_write b
  | all ps, b => by
    rw [write, outline, clause, Clause.chars, params, comparisons]
    exact adds_writeJoined .both ps b
  | any ps, b => by
    rw [write, outline, clause, Clause.chars, params, comparisons]
    exact adds_writeJoined .either ps b

theorem adds_writeJoined (joint : Joint) : ∀ (ps : List Predicate) (b : Builder),
    b.Adds (writeJoined joint.text b ps)
      (Clause.joinedChars b.dialect joint.text b.params.size (clauses List.length ps))
      ((comparisonsOf ps).flatMap (·.params))
  | [], b => ⟨rfl, (List.append_nil _).symm, (List.append_nil _).symm⟩
  | [p], b => by
    have part := ((b.adds_push "(").trans (adds_write p (b.push "("))).trans
      (Builder.adds_push _ ")")
    exact part.cast (by simp [Clause.joinedChars, clauses]) (by simp [comparisonsOf, params])
  | p :: q :: ps, b => by
    have part := ((b.adds_push "(").trans (adds_write p (b.push "("))).trans
      (Builder.adds_push _ ")")
    have joined := part.trans (Builder.adds_push _ joint.text)
    have rest := adds_writeJoined joint (q :: ps)
      ((((write (b.push "(") p).push ")").push joint.text))
    rw [joined.dialect, joined.size] at rest
    refine (joined.trans rest).cast ?_ (by simp [comparisonsOf, params])
    simp [Clause.joinedChars, clauses, size_clause]

end

/-- What is written for a predicate is determined by its outline and its values. -/
theorem write_congr {p q : Predicate} (outline : p.outline = q.outline)
    (params : p.params = q.params) (b : Builder) : p.write b = q.write b :=
  (p.adds_write b).unique ((q.adds_write b).cast (by rw [outline]) params.symm)

end Predicate

namespace Query

/-- The outline of the predicate, if there is one. -/
def outline (q : Query) : Option (Clause Nat) := q.predicate.map Predicate.outline

/-- The text of the condition is that of the outline. -/
theorem sql_whereClause (q : Query) (d : Dialect) :
    (q.whereClause d).sql.toList = (q.outline.map (Clause.chars d 0)).getD [] := by
  rw [whereClause, outline]
  cases q.predicate with
  | none => rfl
  | some p => exact (p.adds_write (Builder.start d)).sql

/-- The text of the statement is made of the table and the outline. -/
theorem sql_select (q : Query) (d : Dialect) :
    (q.select d).sql.toList = ("SELECT * FROM " ++ Sql.identifier d q.recordType.table).toList ++
      (q.outline.map fun c => " WHERE ".toList ++ c.chars d 0).getD [] := by
  have front := ((Builder.start d).adds_push "SELECT * FROM ").trans
    (Builder.adds_push _ (Sql.identifier d q.recordType.table))
  rw [select, outline]
  cases q.predicate with
  | none =>
    refine front.sql.trans ?_
    simp [Builder.start]
  | some p =>
    refine ((front.trans (Builder.adds_push _ " WHERE ")).trans (p.adds_write _)).sql.trans ?_
    simp [Builder.start]

/-- What is written for a query is determined by its record type, its outline and its values. -/
theorem write_congr {q q' : Query} (table : q.recordType = q'.recordType)
    (outline : q.outline = q'.outline)
    (params : q.comparisons.flatMap (·.params) = q'.comparisons.flatMap (·.params)) (d : Dialect) :
    q.select d = q'.select d ∧ q.whereClause d = q'.whereClause d := by
  obtain ⟨rt, predicate⟩ := q
  obtain ⟨rt', predicate'⟩ := q'
  obtain rfl : rt = rt' := table
  match predicate, predicate' with
  | none, none => exact ⟨rfl, rfl⟩
  | some p, some p' =>
    have written := Predicate.write_congr (Option.some.inj outline) params
    exact ⟨written _, written _⟩
  | none, some _ | some _, none => cases outline

end Query

end RecordFilter
