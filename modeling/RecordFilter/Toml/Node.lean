/-!
# TOML documents

The tree of a TOML text. Floating-point numbers and moments are known to be well formed, and nothing
more is kept of them. Tables remember how they came about, since this decides whether later lines
may add to them.
-/
namespace RecordFilter.Toml

/-- How a table came about: by a header of its own (or as the document), by a longer header, by a
dotted key, or inside braces. -/
inductive Form where
  | header
  | implied
  | dotted
  | inline
  deriving DecidableEq, Repr

/-- A value, a table, or the tables of a repeated header. -/
inductive Node where
  | text (s : String)
  | integer (i : Int)
  | boolean (b : Bool)
  | float
  | moment
  | array (items : List Node)
  | table (form : Form) (entries : List (String × Node))
  | tables (elements : List (List (String × Node)))

/-- The entries of a table in order. -/
abbrev Entries := List (String × Node)

namespace Entries

def find? (es : Entries) (key : String) : Option Node :=
  (List.find? (·.1 == key) es).map Prod.snd

/-- Replaces the node of a key, or appends it. -/
def set (es : Entries) (key : String) (node : Node) : Entries :=
  if es.any (·.1 == key) then es.map fun e => if e.1 == key then (key, node) else e
  else es ++ [(key, node)]

def erase (es : Entries) (key : String) : Entries :=
  es.filter (·.1 != key)

/-- Changes the table at the end of a path. Missing tables are made on the way. A path of a dotted
key may not enter a table that has a header of its own; no path enters a table in braces or any
other value; the tables of a repeated header are entered at the last one. -/
def within {α : Type} (dotted : Bool) (change : Form → Entries → Option (α × Entries))
    (form : Form) (es : Entries) : List String → Option (α × Entries)
  | [] => change form es
  | key :: path =>
      match es.find? key with
      | none => do
          let form := if dotted then Form.dotted else .implied
          let (a, inner) ← within dotted change form [] path
          return (a, es.set key (.table form inner))
      | some (.table form inner) =>
          if form = .inline ∨ (dotted ∧ form = .header) then none
          else do
            let (a, inner) ← within dotted change form inner path
            return (a, es.set key (.table form inner))
      | some (.tables elements) => match elements.getLast? with
          | none => none
          | some inner => do
              let (a, inner) ← within dotted change .header inner path
              return (a, es.set key (.tables (elements.dropLast ++ [inner])))
      | some _ => none

/-- Writes `path.key = node` into a table: the key must be new, and a dotted key may only add to
tables made by dotted keys. -/
def assign (form : Form) (es : Entries) (path : List String) (key : String) (node : Node) :
    Option Entries :=
  let add (form : Form) (inner : Entries) : Option (Unit × Entries) :=
    if (form == .dotted) == path.isEmpty || (inner.find? key).isSome then none
    else some ((), inner ++ [(key, node)])
  (within true add form es path).map Prod.snd

end Entries

mutual

/-- Marks the tables that dotted keys made inside braces as closed. -/
def Node.close : Node → Node
  | .table .dotted es => .table .inline (closeEntries es)
  | node => node

def closeEntries : Entries → Entries
  | [] => []
  | (key, node) :: es => (key, node.close) :: closeEntries es

end

end RecordFilter.Toml
