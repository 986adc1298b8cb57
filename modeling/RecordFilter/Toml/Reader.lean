import RecordFilter.Toml.Scalar
import RecordFilter.Toml.Text

/-!
# Reading TOML

`Toml.read?` reads a whole document. Lines give keys a value in the table that is open, and headers
open another one, which is put into the document when the next header comes. Arrays and braces may
nest `maxNesting` deep, and keys may have that many parts. The counters `fuel` bound the steps by
the length of the text and never run out.
-/
namespace RecordFilter.Toml

/-- The deepest nesting, and the largest number of parts of a key. -/
def maxNesting : Nat := 79

/-- The characters of keys without quotes. -/
def isBareChar (c : Char) : Bool := c.isAlphanum || c == '_' || c == '-'

def skipBlanks (cs : List Char) : List Char := cs.dropWhile isLineBlank

def skipComment : List Char → List Char
  | '#' :: cs => cs.dropWhile isTextChar
  | cs => cs

/-- The characters after the end of the line, before which only blanks and a comment may stand. -/
def endLine? (cs : List Char) : Option (List Char) :=
  match skipComment (skipBlanks cs) with
  | [] => some []
  | '\n' :: cs => some cs
  | '\r' :: '\n' :: cs => some cs
  | _ => none

/-- The characters after blanks, line ends and comments. -/
def skipLines (comment : Bool) : List Char → List Char
  | [] => []
  | '\r' :: '\n' :: cs => skipLines false cs
  | '\n' :: cs => skipLines false cs
  | c :: cs =>
      if comment then if isTextChar c then skipLines true cs else c :: cs
      else if isLineBlank c then skipLines false cs
      else if c = '#' then skipLines true cs
      else c :: cs

def takeKeyPart (cs : List Char) : Option (String × List Char) :=
  match cs.takeWhile isBareChar with
  | [] => takeLineText cs
  | name => some (String.ofList name, cs.dropWhile isBareChar)

/-- The parts of a key, with blanks around each of them. -/
def takeKeyParts : Nat → List Char → Option (List String × List Char)
  | 0, _ => none
  | fuel + 1, cs => do
      let (part, cs) ← takeKeyPart (skipBlanks cs)
      match skipBlanks cs with
      | '.' :: cs =>
          let (parts, cs) ← takeKeyParts fuel cs
          return (part :: parts, cs)
      | cs => return ([part], cs)

/-- A key: the parts before the last one, and the last. -/
def takeKey (cs : List Char) : Option (List String × String × List Char) := do
  let (parts, cs) ← takeKeyParts (cs.length + 1) cs
  guard (parts.length ≤ maxNesting)
  let key ← parts.getLast?
  return (parts.dropLast, key, cs)

mutual

/-- A value in which `room` more levels may be opened. -/
def takeValue (room : Nat) : Nat → List Char → Option (Node × List Char)
  | 0, _ => none
  | fuel + 1, cs =>
      match cs with
      | '[' :: cs => match room with
        | 0 => none
        | room + 1 => takeItems room fuel [] cs
      | '{' :: cs => match room with
        | 0 => none
        | room + 1 => match skipBlanks cs with
          | '}' :: cs => some (.table .inline [], cs)
          | cs => takePairs room fuel [] cs
      | '"' :: _ | '\'' :: _ => (takeText cs).map fun (s, cs) => (.text s, cs)
      | cs => takeScalar cs

/-- The items of an array up to its end; a comma may stand after the last. -/
def takeItems (room : Nat) : Nat → List Node → List Char → Option (Node × List Char)
  | 0, _, _ => none
  | fuel + 1, done, cs =>
      match skipLines false cs with
      | ']' :: cs => some (.array done.reverse, cs)
      | cs => match takeValue room fuel cs with
        | none => none
        | some (node, cs) => match skipLines false cs with
          | ',' :: cs => takeItems room fuel (node :: done) cs
          | ']' :: cs => some (.array (node :: done).reverse, cs)
          | _ => none

/-- The pairs of a table in braces up to its end, all on one line. -/
def takePairs (room : Nat) : Nat → Entries → List Char → Option (Node × List Char)
  | 0, _, _ => none
  | fuel + 1, es, cs =>
      match takeKey cs with
      | some (path, key, '=' :: cs) => match takeValue room fuel (skipBlanks cs) with
        | none => none
        | some (node, cs) => match es.assign .inline path key node with
          | none => none
          | some es => match skipBlanks cs with
            | ',' :: cs => takePairs room fuel es cs
            | '}' :: cs => some (.table .inline (closeEntries es), cs)
            | _ => none
      | _ => none

end

/-- The document so far, and the table that is open: its path, whether its header is a repeated
one, and its entries. The document itself is open first, with an empty path. -/
structure Draft where
  root : Entries := []
  path : List String := []
  repeated : Bool := false
  entries : Entries := []

namespace Draft

/-- Puts the open table into the document. -/
def finish (d : Draft) : Option Entries :=
  match d.path.getLast? with
  | none => some d.entries
  | some key =>
      let put (_ : Form) (es : Entries) : Option (Unit × Entries) :=
        match d.repeated, es.find? key with
        | true, none => some ((), es.set key (.tables [d.entries]))
        | true, some (.tables elements) => some ((), es.set key (.tables (elements ++ [d.entries])))
        | false, none => some ((), es.set key (.table .header d.entries))
        | _, _ => none
      (Entries.within false put .header d.root d.path.dropLast).map Prod.snd

/-- Opens the table of a header. One that a longer header has made is taken up again. -/
def openTable (d : Draft) (path : List String) (key : String) : Option Draft := do
  let root ← d.finish
  let take (_ : Form) (es : Entries) : Option (Entries × Entries) :=
    match es.find? key with
    | none => some ([], es)
    | some (.table .implied inner) => some (inner, es.erase key)
    | some _ => none
  let (entries, root) ← Entries.within false take .header root path
  return { root, path := path ++ [key], repeated := false, entries }

/-- Opens the next table of a repeated header. -/
def openRepeated (d : Draft) (path : List String) (key : String) : Option Draft := do
  let root ← d.finish
  let make (_ : Form) (es : Entries) : Option (Unit × Entries) :=
    match es.find? key with
    | none => some ((), es.set key (.tables []))
    | some (.tables _) => some ((), es)
    | some _ => none
  let (_, root) ← Entries.within false make .header root path
  return { root, path := path ++ [key], repeated := true, entries := [] }

/-- Gives a key of the open table its value. -/
def assign (d : Draft) (path : List String) (key : String) (node : Node) : Option Draft := do
  let entries ← d.entries.assign .header path key node
  return { d with entries }

end Draft

/-- Reads one line that is not blank. -/
def takeLine (d : Draft) (cs : List Char) : Option (Draft × List Char) :=
  match cs with
  | '[' :: '[' :: cs => do
      let (path, key, cs) ← takeKey cs
      match cs with
      | ']' :: ']' :: cs => return (← d.openRepeated path key, ← endLine? cs)
      | _ => none
  | '[' :: cs => do
      let (path, key, cs) ← takeKey cs
      match cs with
      | ']' :: cs => return (← d.openTable path key, ← endLine? cs)
      | _ => none
  | cs => do
      let (path, key, cs) ← takeKey cs
      match cs with
      | '=' :: cs =>
          let (node, cs) ← takeValue maxNesting (cs.length + 1) (skipBlanks cs)
          return (← d.assign path key node, ← endLine? cs)
      | _ => none

/-- Reads the lines that are left. -/
def takeLines : Nat → Draft → List Char → Option Entries
  | 0, _, _ => none
  | fuel + 1, d, cs =>
      match skipBlanks cs with
      | [] => d.finish
      | '\n' :: cs => takeLines fuel d cs
      | '\r' :: '\n' :: cs => takeLines fuel d cs
      | '#' :: cs => match endLine? ('#' :: cs) with
        | some cs => takeLines fuel d cs
        | none => none
      | cs => match takeLine d cs with
        | some (d, cs) => takeLines fuel d cs
        | none => none

/-- The entries of a document, which may begin with a byte order mark. -/
def read? (s : String) : Option Entries :=
  let cs := match s.toList with
    | '\uFEFF' :: cs => cs
    | cs => cs
  takeLines (cs.length + 1) {} cs

end RecordFilter.Toml
