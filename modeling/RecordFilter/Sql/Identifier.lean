import RecordFilter.Sql.Dialect
import RecordFilter.Text.Lowercase

/-!
# Identifiers

Columns come from metadata, and only names that `isSafe` accepts are ever written. A name is quoted
if it is a reserved word in any letter case or holds a character that a bare name cannot; inside
quotes the quote is written twice. `takeQuoted_quoted` says that a quoted name reads back whatever
follows it.
-/
namespace RecordFilter.Sql

/-- The longest name in bytes. -/
def maxNameBytes : Nat := 63

/-- ASCII letters, digits and the underscore. -/
def isNameChar (c : Char) : Bool := c.isAlphanum || c == '_'

/-- Whether a name can be a column: ASCII letters, digits and underscores, no digit in front, and
not too long. -/
def isSafe (name : String) : Bool :=
  match name.toList with
  | [] => false
  | c :: cs =>
      (c.isAlpha || c == '_') && name.utf8ByteSize ≤ maxNameBytes && cs.all isNameChar

theorem ne_empty_of_isSafe {name : String} (h : isSafe name = true) : name ≠ "" := by
  rintro rfl
  exact absurd h (by decide)

/-- The words that need quotes as identifiers. -/
def reserved : List String := [
  "user", "order", "group", "select", "from", "where", "table", "index",
  "key", "primary", "foreign", "check", "default", "null", "not", "and",
  "or", "in", "is", "like", "between", "case", "when", "then", "else",
  "end", "as", "on", "join", "left", "right", "inner", "outer", "cross",
  "natural", "using", "limit", "offset", "union", "intersect", "except",
  "all", "distinct", "having", "create", "alter", "drop", "insert",
  "update", "delete", "into", "values", "set", "returning", "escape"]

def needsQuoting (name : String) : Bool :=
  reserved.contains (Text.lowercase name) || !name.toList.all isNameChar

/-- The characters with each quote doubled. -/
def doubled (quote : Char) (cs : List Char) : List Char :=
  cs.flatMap fun c => if c = quote then [c, c] else [c]

theorem doubled_cons (quote c : Char) (cs : List Char) :
    doubled quote (c :: cs) = (if c = quote then [c, c] else [c]) ++ doubled quote cs :=
  List.flatMap_cons

def quoted (quote : Char) (name : String) : String :=
  String.ofList (quote :: (doubled quote name.toList ++ [quote]))

/-- The name as an identifier of the dialect. -/
def identifier (d : Dialect) (name : String) : String :=
  if needsQuoting name then quoted d.quote name else name

/-- A name is written in quotes, or bare if it is made of name characters. -/
theorem identifier_cases (d : Dialect) {name : String} (named : name ≠ "") :
    identifier d name = quoted d.quote name ∨ identifier d name = name ∧
      ∃ c cs, name.toList = c :: cs ∧ isNameChar c = true ∧ ∀ x ∈ cs, isNameChar x = true := by
  rw [identifier]
  cases quoting : needsQuoting name with
  | true => exact .inl (if_pos rfl)
  | false =>
    have bare : name.toList.all isNameChar = true := by simp_all [needsQuoting]
    cases hn : name.toList with
    | nil => exact absurd (String.toList_eq_nil_iff.mp hn) named
    | cons c cs =>
      rw [hn, List.all_cons, Bool.and_eq_true, List.all_eq_true] at bare
      exact .inr ⟨if_neg Bool.false_ne_true, c, cs, rfl, bare.1, bare.2⟩

/-- The characters up to a quote that stands alone, each double quote taken as one, and what follows
that quote. -/
def takeUnquoted (quote : Char) : List Char → Option (List Char × List Char)
  | [] => none
  | c :: d :: cs =>
      if c = quote then
        if d = quote then (takeUnquoted quote cs).map fun (name, rest) => (c :: name, rest)
        else some ([], d :: cs)
      else (takeUnquoted quote (d :: cs)).map fun (name, rest) => (c :: name, rest)
  | [c] => if c = quote then some ([], []) else none

/-- A quoted name at the front of the characters, and what follows it. -/
def takeQuoted (quote : Char) : List Char → Option (List Char × List Char)
  | c :: cs => if c = quote then takeUnquoted quote cs else none
  | [] => none

theorem length_takeUnquoted {quote : Char} {cs name rest : List Char}
    (h : takeUnquoted quote cs = some (name, rest)) : rest.length < cs.length := by
  fun_induction takeUnquoted quote cs generalizing name with
  | case1 => cases h
  | case2 cs ih =>
    obtain ⟨⟨name', rest'⟩, hcs, hname⟩ := Option.map_eq_some_iff.mp h
    cases hname
    exact Nat.lt_succ_of_lt (Nat.lt_succ_of_lt (ih hcs))
  | case3 d cs hd =>
    cases h
    exact Nat.lt_succ_self _
  | case4 c d cs hc ih =>
    obtain ⟨⟨name', rest'⟩, hcs, hname⟩ := Option.map_eq_some_iff.mp h
    cases hname
    exact Nat.lt_succ_of_lt (ih hcs)
  | case5 =>
    cases h
    exact Nat.lt_succ_self _
  | case6 => cases h

theorem length_takeQuoted {quote : Char} {cs name rest : List Char}
    (h : takeQuoted quote cs = some (name, rest)) : rest.length < cs.length := by
  cases cs with
  | nil => cases h
  | cons c cs =>
    rw [takeQuoted] at h
    split at h
    · exact Nat.lt_succ_of_lt (length_takeUnquoted h)
    · cases h

theorem takeUnquoted_quote {quote : Char} {rest : List Char} (h : rest.head? ≠ some quote) :
    takeUnquoted quote (quote :: rest) = some ([], rest) := by
  cases rest with
  | nil => simp [takeUnquoted]
  | cons d rest =>
      have hd : d ≠ quote := fun hd => h (by simp [hd])
      simp [takeUnquoted, hd]

theorem takeUnquoted_cons {quote c : Char} (hc : c ≠ quote) {cs : List Char} (h : cs ≠ []) :
    takeUnquoted quote (c :: cs) =
      (takeUnquoted quote cs).map fun (name, rest) => (c :: name, rest) := by
  cases cs with
  | nil => exact absurd rfl h
  | cons d cs => simp [takeUnquoted, hc]

theorem takeUnquoted_doubled {quote : Char} (name : List Char) {rest : List Char}
    (h : rest.head? ≠ some quote) :
    takeUnquoted quote (doubled quote name ++ quote :: rest) = some (name, rest) := by
  induction name with
  | nil => exact takeUnquoted_quote h
  | cons c name ih =>
      rw [doubled_cons, List.append_assoc]
      split
      · next hc => simp [takeUnquoted, hc, ih]
      · next hc =>
        rw [List.singleton_append, takeUnquoted_cons hc (by simp), ih]
        rfl

/-- A quoted name reads back, and what follows it is left as it is. -/
theorem takeQuoted_quoted {quote : Char} (name : String) {rest : List Char}
    (h : rest.head? ≠ some quote) :
    takeQuoted quote ((quoted quote name).toList ++ rest) = some (name.toList, rest) := by
  simp [quoted, takeQuoted, takeUnquoted_doubled name.toList h]

end RecordFilter.Sql
