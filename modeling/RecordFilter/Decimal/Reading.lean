import RecordFilter.Decimal.Numeral
import RecordFilter.Text.Lowercase

/-!
# Numbers in free text

`readInteger?` reads an optional sign and digits, leading zeros allowed, and refuses a number that
64 bits do not hold. `readFloat?` reads a decimal numeral with an optional point and exponent, and
the names of the infinities and of the number that is none.
-/
namespace RecordFilter.Decimal

def fitsInt64 (i : Int) : Bool :=
  Int64.minValue.toInt ≤ i && i ≤ Int64.maxValue.toInt

/-- The integer that the text spells, if it spells one of 64 bits. -/
def readInteger? (s : String) : Option Int64 :=
  let (negative, cs) := takeSign s.toList
  match takeDigits cs with
  | (d :: ds, []) =>
      let n : Int := Nat.ofDigitChars 10 (d :: ds) 0
      let i := if negative then -n else n
      if fitsInt64 i then some (Int64.ofInt i) else none
  | _ => none

/-- The decimal numeral that the text spells: digits on one side of the point at least. -/
def readNumeral? (s : String) : Option Numeral :=
  let (negative, cs) := takeSign s.toList
  let (whole, cs) := takeDigits cs
  let (fraction, cs) : Option (List Char) × List Char := match cs with
    | '.' :: cs => ((takeDigits cs).1, (takeDigits cs).2)
    | cs => (none, cs)
  if whole.isEmpty && (fraction.getD []).isEmpty then none
  else match takeExponent cs with
    | some (exponent, []) => some ⟨negative, whole, fraction, exponent⟩
    | _ => none

/-- The infinity or the not-a-number that the text names, in any letter case. -/
def readNamedFloat? (s : String) : Option Float :=
  let (negative, cs) := takeSign s.toList
  match Text.lowerAscii (String.ofList cs) with
  | "inf" | "infinity" => some (if negative then -(1 / 0) else 1 / 0)
  | "nan" => some (0 / 0)
  | _ => none

def readFloat? (s : String) : Option Float :=
  match readNumeral? s with
  | some n => some n.toFloat
  | none => readNamedFloat? s

end RecordFilter.Decimal
