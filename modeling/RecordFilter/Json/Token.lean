import RecordFilter.Decimal.Numeral

/-!
# Tokens of JSON text

`Token.scan?` cuts a text into punctuation, quoted texts and words, a word being a numeral or one of
`null`, `true`, `false`. A quoted text may spell half of a surrogate pair alone; it is then a token
all the same, but it stands for no text.
-/
namespace RecordFilter.Json

open Decimal (Numeral takeDigits takeExponent takeMinus)

/-- A token. The content of a quoted text is absent when its escapes spell no characters. -/
inductive Token where
  | openArray
  | closeArray
  | openObject
  | closeObject
  | comma
  | colon
  | null
  | bool (b : Bool)
  | number (n : Numeral)
  | text (content : Option String)
  deriving DecidableEq

/-- A part of a quoted text: a character, or the 16 bits of an escape `\uXXXX`. -/
inductive Piece where
  | char (c : Char)
  | unit (n : Nat)

def hexDigit? (c : Char) : Option Nat :=
  if c.isDigit then some (c.toNat - '0'.toNat)
  else if 'a' ≤ c ∧ c ≤ 'f' then some (c.toNat - 'a'.toNat + 10)
  else if 'A' ≤ c ∧ c ≤ 'F' then some (c.toNat - 'A'.toNat + 10)
  else none

/-- The value of four hexadecimal digits. -/
def hexUnit? (a b c d : Char) : Option Nat := do
  return (((← hexDigit? a) * 16 + (← hexDigit? b)) * 16 + (← hexDigit? c)) * 16 + (← hexDigit? d)

/-- The character that a backslash and a letter stand for. -/
def escaped? (c : Char) : Option Char :=
  match c with
  | '"' => some '"'
  | '\\' => some '\\'
  | '/' => some '/'
  | 'b' => some '\x08'
  | 'f' => some '\x0c'
  | 'n' => some '\n'
  | 'r' => some '\r'
  | 't' => some '\t'
  | _ => none

/-- Whether the 16 bits are the first half of a surrogate pair. -/
def isHighHalf (n : Nat) : Bool := 0xD800 ≤ n && n ≤ 0xDBFF

/-- Whether the 16 bits are the second half of a surrogate pair. -/
def isLowHalf (n : Nat) : Bool := 0xDC00 ≤ n && n ≤ 0xDFFF

/-- The characters that the pieces spell, `done` being the earlier ones reversed. Halves of a
surrogate pair count only as a pair of escapes. -/
def joinPieces (done : List Char) : List Piece → Option (List Char)
  | [] => some done.reverse
  | .char c :: ps => joinPieces (c :: done) ps
  | .unit n :: .unit m :: ps =>
      if isHighHalf n then
        if isLowHalf m then
          joinPieces (Char.ofNat (0x10000 + (n - 0xD800) * 0x400 + (m - 0xDC00)) :: done) ps
        else none
      else if isLowHalf n then none
      else joinPieces (Char.ofNat n :: done) (.unit m :: ps)
  | .unit n :: ps =>
      if isHighHalf n || isLowHalf n then none else joinPieces (Char.ofNat n :: done) ps

def textOf (pieces : List Piece) : Option String :=
  (joinPieces [] pieces).map String.ofList

/-- The numeral that a word is: no zero stands before another whole digit, and digits follow the
point. -/
def numeral? (word : List Char) : Option Numeral := do
  let (negative, cs) := takeMinus word
  let (whole, cs) := takeDigits cs
  guard (!whole.isEmpty && (whole.head? != some '0' || whole.length == 1))
  let (fraction, cs) ← match cs with
    | '.' :: cs => match takeDigits cs with
      | ([], _) => none
      | (ds, cs) => some (some ds, cs)
    | cs => some (none, cs)
  match ← takeExponent cs with
  | (exponent, []) => return ⟨negative, whole, fraction, exponent⟩
  | _ => none

def wordToken? (word : List Char) : Option Token :=
  match word with
  | ['n', 'u', 'l', 'l'] => some .null
  | ['t', 'r', 'u', 'e'] => some (.bool true)
  | ['f', 'a', 'l', 's', 'e'] => some (.bool false)
  | _ => (numeral? word).map .number

/-- The characters that may stand between tokens. -/
def isSpace (c : Char) : Bool :=
  c == ' ' || c == '\t' || c == '\n' || c == '\r'

def punctuation? (c : Char) : Option Token :=
  match c with
  | '[' => some .openArray
  | ']' => some .closeArray
  | '{' => some .openObject
  | '}' => some .closeObject
  | ',' => some .comma
  | ':' => some .colon
  | _ => none

mutual

/-- Scans from a place between tokens; `done` holds the earlier tokens reversed. -/
def scanBetween (done : List Token) : List Char → Option (List Token)
  | [] => some done.reverse
  | c :: cs =>
      if isSpace c then scanBetween done cs
      else if c = '"' then scanQuoted done [] cs
      else match punctuation? c with
        | some t => scanBetween (t :: done) cs
        | none => scanWord done [c] cs

/-- Scans inside a word, whose characters so far are reversed. A quote cannot follow a word. -/
def scanWord (done : List Token) (word : List Char) : List Char → Option (List Token)
  | [] => (wordToken? word.reverse).map fun t => (t :: done).reverse
  | c :: cs =>
      if isSpace c then
        match wordToken? word.reverse with
        | some t => scanBetween (t :: done) cs
        | none => none
      else if c = '"' then none
      else match punctuation? c with
        | some p => match wordToken? word.reverse with
          | some t => scanBetween (p :: t :: done) cs
          | none => none
        | none => scanWord done (c :: word) cs

/-- Scans inside a quoted text, whose pieces so far are reversed. Controls must be escaped. -/
def scanQuoted (done : List Token) (pieces : List Piece) : List Char → Option (List Token)
  | [] => none
  | '"' :: cs => scanBetween (.text (textOf pieces.reverse) :: done) cs
  | '\\' :: 'u' :: a :: b :: c :: d :: cs =>
      match hexUnit? a b c d with
      | some n => scanQuoted done (.unit n :: pieces) cs
      | none => none
  | '\\' :: e :: cs =>
      match escaped? e with
      | some c => scanQuoted done (.char c :: pieces) cs
      | none => none
  | c :: cs => if c.toNat < 0x20 then none else scanQuoted done (.char c :: pieces) cs

end

def Token.scan? (s : String) : Option (List Token) :=
  scanBetween [] s.toList

end RecordFilter.Json
