/-!
# Decimal numerals

A numeral is kept as written: a sign, the digits before and after the point, and an exponent. Its
value is `coefficient * 10 ^ power`, up to the sign. `toFloat` is the nearest floating-point number
to that value; beyond the range it is an infinity or a zero.
-/
namespace RecordFilter.Decimal

/-- A numeral as written. `fraction` is absent when there is no point, `exponent` when there is no
exponent part. The digits are the characters `0` to `9`. -/
structure Numeral where
  negative : Bool
  whole : List Char
  fraction : Option (List Char)
  exponent : Option Int
  deriving DecidableEq, Repr

namespace Numeral

/-- Whether the numeral has neither a point nor an exponent part. -/
def isWhole (n : Numeral) : Bool :=
  n.fraction.isNone && n.exponent.isNone

/-- All digits of the numeral, without the point. -/
def digits (n : Numeral) : List Char :=
  n.whole ++ n.fraction.getD []

/-- The number that the digits spell without the point. -/
def coefficient (n : Numeral) : Nat :=
  Nat.ofDigitChars 10 n.digits 0

/-- The power of ten that the coefficient is multiplied by. -/
def power (n : Numeral) : Int :=
  n.exponent.getD 0 - (n.fraction.getD []).length

/-- The integer that a numeral without point and exponent denotes. -/
def integer (n : Numeral) : Int :=
  if n.negative then -(n.coefficient : Int) else n.coefficient

/-- The floating-point number nearest to the value. Values of at least `10 ^ 310` and values below
`10 ^ (-330)` are decided by their size alone. -/
def magnitude (n : Numeral) : Float :=
  let significant := n.digits.dropWhile (· == '0')
  let size := significant.length + n.power
  if significant.isEmpty || size < -330 then 0
  else if 310 < size then 1 / 0
  else Float.ofScientific n.coefficient (n.power < 0) n.power.natAbs

/-- The nearest floating-point number with the sign of the numeral; a zero keeps its sign. -/
def toFloat (n : Numeral) : Float :=
  if n.negative then -n.magnitude else n.magnitude

end Numeral

/-- The digits at the front of a list, and what follows them. -/
def takeDigits (cs : List Char) : List Char × List Char :=
  (cs.takeWhile Char.isDigit, cs.dropWhile Char.isDigit)

@[simp] theorem takeDigits_append (cs : List Char) : (takeDigits cs).1 ++ (takeDigits cs).2 = cs :=
  List.takeWhile_append_dropWhile

theorem isDigit_of_mem_takeDigits {cs : List Char} {c : Char} (h : c ∈ (takeDigits cs).1) :
    c.isDigit :=
  List.all_eq_true.mp List.all_takeWhile c h

def takeMinus : List Char → Bool × List Char
  | '-' :: cs => (true, cs)
  | cs => (false, cs)

def takeSign : List Char → Bool × List Char
  | '+' :: cs => (false, cs)
  | cs => takeMinus cs

/-- An exponent part `e` or `E` with an optional sign and at least one digit. Where there is no
such letter there is no exponent part; a letter without digits after it is refused. -/
def takeExponent : List Char → Option (Option Int × List Char)
  | [] => some (none, [])
  | c :: cs =>
      if c = 'e' ∨ c = 'E' then
        let (negative, cs) := takeSign cs
        match takeDigits cs with
        | ([], _) => none
        | (ds, cs) =>
            let n : Int := Nat.ofDigitChars 10 ds 0
            some (some (if negative then -n else n), cs)
      else some (none, c :: cs)

end RecordFilter.Decimal
