import RecordFilter.Calendar.Timestamp
import RecordFilter.Decimal.Reading
import RecordFilter.Json.Token
import RecordFilter.Toml.Node

/-!
# Scalars of TOML

A scalar that is not quoted is a word: a truth value, a number, or a moment. Digits may be grouped
by single underscores between them.
-/
namespace RecordFilter.Toml

open Decimal (takeSign takeMinus)

/-- Digits without the underscores between them; at least one digit. -/
def ungrouped? (isDigit : Char → Bool) : List Char → Option (List Char)
  | [] => none
  | [c] => if isDigit c then some [c] else none
  | c :: '_' :: cs => if isDigit c then (ungrouped? isDigit cs).map (c :: ·) else none
  | c :: cs => if isDigit c then (ungrouped? isDigit cs).map (c :: ·) else none

/-- Decimal digits without a zero in front of another digit. -/
def wholeDigits? (cs : List Char) : Option (List Char) :=
  match ungrouped? Char.isDigit cs with
  | some ('0' :: _ :: _) => none
  | ds => ds

def ofDigits (base : Nat) (ds : List Char) : Nat :=
  ds.foldl (fun n c => n * base + (Json.hexDigit? c).getD 0) 0

/-- An integer with a sign or one to the base 16, 8 or 2 without, of 64 bits. -/
def integer? (word : List Char) : Option Int := do
  let i : Int ← match word with
    | '0' :: 'x' :: cs =>
        (ungrouped? (fun c => (Json.hexDigit? c).isSome) cs).map fun ds => (ofDigits 16 ds : Int)
    | '0' :: 'o' :: cs =>
        (ungrouped? (fun c => '0' ≤ c && c ≤ '7') cs).map fun ds => (ofDigits 8 ds : Int)
    | '0' :: 'b' :: cs =>
        (ungrouped? (fun c => c == '0' || c == '1') cs).map fun ds => (ofDigits 2 ds : Int)
    | _ =>
        let (negative, cs) := takeSign word
        (wholeDigits? cs).map fun ds => if negative then -(ofDigits 10 ds : Int) else ofDigits 10 ds
  if Decimal.fitsInt64 i then some i else none

/-- Whether the characters are an exponent: a sign and digits. -/
def isExponent (cs : List Char) : Bool :=
  (ungrouped? Char.isDigit (takeSign cs).2).isSome

/-- Whether the word is a floating-point number. A positive one must be in range. -/
def isFloat (word : List Char) : Bool :=
  let (negative, cs) := takeSign word
  if cs = ['i', 'n', 'f'] ∨ cs = ['n', 'a', 'n'] then true
  else
    let isMark (c : Char) : Bool := c == 'e' || c == 'E'
    let mantissa := cs.takeWhile (!isMark ·)
    let exponent := cs.dropWhile (!isMark ·)
    let whole := mantissa.takeWhile (· != '.')
    let fraction := mantissa.dropWhile (· != '.')
    let wellFormed := (wholeDigits? whole).isSome &&
      (fraction.isEmpty || (ungrouped? Char.isDigit (fraction.drop 1)).isSome) &&
      (exponent.isEmpty || isExponent (exponent.drop 1)) && !(fraction.isEmpty && exponent.isEmpty)
    let size := (Decimal.readNumeral? (String.ofList (cs.filter (· != '_')))).map (·.magnitude)
    wellFormed && (negative || size.all (!·.isInf))

/-- A time of day, with an offset where `offset` allows one. -/
def isTime (offset : Bool) (cs : List Char) : Bool :=
  match Calendar.takeTime cs with
  | some [] => true
  | some (c :: rest) =>
      offset && c != '\u2212' && (Calendar.takeOffset (c :: rest)).any List.isEmpty
  | none => false

/-- Whether the word is a date, a time, or both with a letter between them. -/
def isMoment (word : List Char) : Bool :=
  isTime false word || match Calendar.takeFullDate word with
    | some [] => true
    | some (c :: cs) => (c == 'T' || c == 't') && isTime true cs
    | none => false

/-- The characters of words. -/
def isWordChar (c : Char) : Bool :=
  c.isAlphanum || c == '+' || c == '-' || c == '_' || c == '.' || c == ':'

/-- The scalar at the front of the characters, and what follows it. After a date a blank and a digit
begin the time of day. -/
def takeScalar (cs : List Char) : Option (Node × List Char) :=
  let word := cs.takeWhile isWordChar
  let rest := cs.dropWhile isWordChar
  match word with
  | ['t', 'r', 'u', 'e'] => some (.boolean true, rest)
  | ['f', 'a', 'l', 's', 'e'] => some (.boolean false, rest)
  | _ => match integer? word with
    | some i => some (.integer i, rest)
    | none =>
        if isFloat word then some (.float, rest)
        else if isMoment word then
          match rest with
          | ' ' :: c :: more =>
              if c.isDigit && Calendar.takeFullDate word == some [] then
                if isTime true ((c :: more).takeWhile isWordChar) then
                  some (.moment, (c :: more).dropWhile isWordChar)
                else none
              else some (.moment, rest)
          | _ => some (.moment, rest)
        else none

end RecordFilter.Toml
