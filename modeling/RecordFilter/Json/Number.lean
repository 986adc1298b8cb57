import RecordFilter.Decimal.Numeral
import RecordFilter.Json.Basic

/-!
# Reading JSON numbers

A numeral without point and exponent is an integer as long as 64 bits hold it, except for `-0`. All
others are floating-point numbers, read in two steps: as many leading digits as 64 bits hold make a
coefficient, and this is multiplied or divided once by a power of ten. The result may be off the
nearest number in the last place.
-/
namespace RecordFilter.Json

open Decimal (Numeral)

/-- Appends digits to a coefficient as long as 64 bits hold it. The second part holds the digits
left over. -/
def gather (coefficient : Nat) : List Char → Nat × List Char
  | [] => (coefficient, [])
  | d :: ds =>
      let next := coefficient * 10 + (d.toNat - '0'.toNat)
      if next < UInt64.size then gather next ds else (coefficient, d :: ds)

/-- Ten to the power `k`, rounded to nearest. -/
def tenPower (k : Nat) : Float :=
  Float.ofScientific 1 false k

/-- `x * 10 ^ e` by one multiplication or division with a power up to `10 ^ 308`, after divisions
by `10 ^ 308` where `e` is smaller than that. Refused if it is too large. -/
def scaled? (x : Float) (e : Int) : Option Float :=
  if 308 < e then if x == 0 then some x else none
  else if 0 ≤ e then
    let y := x * tenPower e.toNat
    if y.isInf then none else some y
  else if -308 ≤ e then some (x / tenPower e.natAbs)
  else if x == 0 then some x
  else scaled? (x / tenPower 308) (e + 308)
termination_by e.natAbs

/-- The exponent part beyond which the digits no longer matter. -/
def exponentLimit : Int := Int32.maxValue.toInt

/-- The floating-point number without its sign. -/
def magnitude? (n : Numeral) : Option Float :=
  let (whole, left) := gather 0 n.whole
  let fraction := n.fraction.getD []
  let (coefficient, unused) := gather whole fraction
  let shift : Int := left.length - (fraction.length - unused.length : Nat)
  let exponent := n.exponent.getD 0
  if exponentLimit < exponent.natAbs then
    if coefficient = 0 ∨ exponent < 0 then some 0 else none
  else scaled? (UInt64.ofNat coefficient).toFloat (shift + exponent)

/-- The floating-point number that a numeral stands for, if it is in range. -/
def float? (n : Numeral) : Option Float :=
  (magnitude? n).map fun x => if n.negative then -x else x

/-- The number that a numeral stands for. -/
def Number.ofNumeral? (n : Numeral) : Option Number :=
  let i := n.integer
  if n.isWhole ∧ n.negative = false ∧ i.toNat < UInt64.size then
    some (.natural (UInt64.ofNat i.toNat))
  else if n.isWhole ∧ i < 0 ∧ Int64.minValue.toInt ≤ i then some (.negative (Int64.ofInt i))
  else (float? n).map .float

end RecordFilter.Json
