import RecordFilter.Text.Occurrence

/-!
# Variables in configuration texts

A reference is `$` and a name in braces, the name being one or more characters other than the
closing brace. References are found from left to right in the text as given. Each one whose variable
is set is then replaced wherever its spelling stands in the text as it is by then.
-/
namespace RecordFilter

/-- The variables that are set. -/
abbrev Environment := String → Option String

namespace Config

/-- The names of the references in the text, in order. `skip` characters belong to the reference
found last. -/
def referencesFrom (done : List (List Char)) : Nat → List Char → List (List Char)
  | _, [] => done.reverse
  | skip + 1, _ :: cs => referencesFrom done skip cs
  | 0, '$' :: '{' :: cs =>
      let name := cs.takeWhile (· != '}')
      if name.isEmpty || name.length == cs.length then referencesFrom done 1 ('{' :: cs)
      else referencesFrom (name :: done) (name.length + 2) ('{' :: cs)
  | 0, _ :: cs => referencesFrom done 0 cs

/-- The names of the references in the text, in order. -/
def references (cs : List Char) : List (List Char) :=
  referencesFrom [] 0 cs

def spelling (name : List Char) : List Char :=
  '$' :: '{' :: (name ++ ['}'])

/-- The text with the references replaced. -/
def expand (env : Environment) (s : String) : String :=
  String.ofList ((references s.toList).foldl (fun text name =>
    match env (String.ofList name) with
    | some value => Text.replaceAll (spelling name) value.toList text
    | none => text) s.toList)

end Config
end RecordFilter
