import RecordFilter.Json.Token

/-!
# Texts of TOML

Texts stand between quotes `"`, where a backslash is an escape, or between apostrophes, where
nothing is. Three marks in a row begin a text of several lines, which drops a line end right after
them; up to two marks before the closing ones belong to the text.
-/
namespace RecordFilter.Toml

/-- Blanks inside a line. -/
def isLineBlank (c : Char) : Bool := c == ' ' || c == '\t'

/-- The characters of comments and texts: no controls but the tab. -/
def isTextChar (c : Char) : Bool :=
  c == '\t' || (0x20 ≤ c.toNat && c.toNat ≠ 0x7F)

/-- The character of a code point, which may not be a surrogate. -/
def charOf? (n : Nat) : Option Char :=
  if h : n.isValidChar then some (Char.ofNatAux n h) else none

def hexNumber? (cs : List Char) : Option Nat :=
  cs.foldlM (fun n c => (Json.hexDigit? c).map (n * 16 + ·)) 0

/-- The character that a backslash and a letter stand for. -/
def escaped? (c : Char) : Option Char :=
  if c = '/' then none else Json.escaped? c

/-- Inside a text with escapes: in the running text, after a backslash that ends a line, or in the
blank lines after it. -/
inductive Place where
  | running
  | lineEnd
  | skipping
  deriving DecidableEq

/-- The rest of a text with escapes, over several lines or not. `done` holds the characters so far
reversed. -/
def scanBasic (multi : Bool) (place : Place) (done : List Char) :
    List Char → Option (String × List Char)
  | [] => none
  | '\r' :: '\n' :: cs =>
      if !multi then none
      else if place = .running then scanBasic multi .running ('\n' :: done) cs
      else scanBasic multi .skipping done cs
  | '\n' :: cs =>
      if !multi then none
      else if place = .running then scanBasic multi .running ('\n' :: done) cs
      else scanBasic multi .skipping done cs
  | '"' :: cs =>
      if place = .lineEnd then none
      else if multi then
        match cs with
        | '"' :: '"' :: '"' :: '"' :: cs => some (String.ofList ('"' :: '"' :: done).reverse, cs)
        | '"' :: '"' :: '"' :: cs => some (String.ofList ('"' :: done).reverse, cs)
        | '"' :: '"' :: cs => some (String.ofList done.reverse, cs)
        | cs => scanBasic multi .running ('"' :: done) cs
      else some (String.ofList done.reverse, cs)
  | '\\' :: 'u' :: a :: b :: c :: d :: cs =>
      if place = .lineEnd then none
      else match (hexNumber? [a, b, c, d]).bind charOf? with
        | some x => scanBasic multi .running (x :: done) cs
        | none => none
  | '\\' :: 'U' :: a :: b :: c :: d :: e :: f :: g :: h :: cs =>
      if place = .lineEnd then none
      else match (hexNumber? [a, b, c, d, e, f, g, h]).bind charOf? with
        | some x => scanBasic multi .running (x :: done) cs
        | none => none
  | '\\' :: c :: cs =>
      if place = .lineEnd then none
      else match escaped? c with
        | some x => scanBasic multi .running (x :: done) cs
        | none =>
            if !multi then none
            else if isLineBlank c then scanBasic multi .lineEnd done cs
            else if c = '\n' then scanBasic multi .skipping done cs
            else if c = '\r' then
              match cs with
              | '\n' :: cs => scanBasic multi .skipping done cs
              | _ => none
            else none
  | c :: cs =>
      if place != .running && isLineBlank c then scanBasic multi place done cs
      else if place = .lineEnd then none
      else if isTextChar c && c != '\\' then scanBasic multi .running (c :: done) cs
      else none

/-- The rest of a text without escapes. -/
def scanLiteral (multi : Bool) (done : List Char) : List Char → Option (String × List Char)
  | [] => none
  | '\r' :: '\n' :: cs => if multi then scanLiteral multi ('\n' :: done) cs else none
  | '\n' :: cs => if multi then scanLiteral multi ('\n' :: done) cs else none
  | '\'' :: cs =>
      if multi then
        match cs with
        | '\'' :: '\'' :: '\'' :: '\'' :: cs =>
            some (String.ofList ('\'' :: '\'' :: done).reverse, cs)
        | '\'' :: '\'' :: '\'' :: cs => some (String.ofList ('\'' :: done).reverse, cs)
        | '\'' :: '\'' :: cs => some (String.ofList done.reverse, cs)
        | cs => scanLiteral multi ('\'' :: done) cs
      else some (String.ofList done.reverse, cs)
  | c :: cs => if isTextChar c then scanLiteral multi (c :: done) cs else none

def dropLineEnd : List Char → List Char
  | '\r' :: '\n' :: cs => cs
  | '\n' :: cs => cs
  | cs => cs

/-- A text on one line, as keys may be. -/
def takeLineText : List Char → Option (String × List Char)
  | '"' :: cs => scanBasic false .running [] cs
  | '\'' :: cs => scanLiteral false [] cs
  | _ => none

def takeText : List Char → Option (String × List Char)
  | '"' :: '"' :: '"' :: cs => scanBasic true .running [] (dropLineEnd cs)
  | '\'' :: '\'' :: '\'' :: cs => scanLiteral true [] (dropLineEnd cs)
  | cs => takeLineText cs

end RecordFilter.Toml
