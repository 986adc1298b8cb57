/-!
# SQL dialects

The dialects differ in the placeholder of a bound value, in the quote around identifiers, and in how
the escape character of patterns is declared.
-/
namespace RecordFilter

inductive Dialect where
  | postgresql
  | mysql
  | sqlite
  deriving DecidableEq, Repr, Inhabited

namespace Dialect

def all : List Dialect := [postgresql, mysql, sqlite]

def name : Dialect → String
  | postgresql => "postgresql"
  | mysql => "mysql"
  | sqlite => "sqlite"

/-- The dialect of exactly that name, or of one of the names that also serve. -/
def ofExactName? (s : String) : Option Dialect :=
  match s with
  | "postgresql" | "postgres" => some postgresql
  | "mysql" => some mysql
  | "sqlite" | "sqlite3" => some sqlite
  | _ => none

/-- The placeholder of the value bound at a position, counted from one. -/
def placeholder : Dialect → Nat → String
  | postgresql, k => "$" ++ k.repr
  | mysql, _ | sqlite, _ => "?"

/-- The clause that makes the backslash the escape of a pattern. MySQL also reads a backslash in a
literal as an escape, so it is written twice there. -/
def likeEscape : Dialect → String
  | postgresql | sqlite => "ESCAPE '\\'"
  | mysql => "ESCAPE '\\\\'"

/-- The quote around identifiers. -/
def quote : Dialect → Char
  | postgresql | sqlite => '"'
  | mysql => '\x60'

end Dialect
end RecordFilter
