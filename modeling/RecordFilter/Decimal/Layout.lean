import RecordFilter.Decimal.Shortest

/-!
# Layouts of floating-point numbers

A layout says how the shortest decimal of a number is written: how ties are broken, from which size
on an exponent is used, and whether a whole number keeps `.0`.
-/
namespace RecordFilter.Decimal

/-- The decisions of a written form. A number is written without an exponent part when the exponent
of its first digit lies between the ends of `plain`, or always if there is no such range. -/
structure Layout where
  tie : Tie
  plain : Option (Int × Int)
  pointZero : Bool

/-- Digits without the zeros at the end; a single digit stays. -/
def dropTrailingZeros (ds : List Char) : List Char :=
  match (ds.reverse.dropWhile (· == '0')).reverse with
  | [] => ['0']
  | ds => ds

/-- `ds` with the point after the digit of exponent zero, the first digit having exponent `e`. -/
def Layout.point (l : Layout) (ds : List Char) (e : Int) : List Char :=
  let zero := if l.pointZero then ['.', '0'] else []
  if e < 0 then '0' :: '.' :: (List.replicate (e.natAbs - 1) '0' ++ ds)
  else
    let whole := e.toNat + 1
    if ds.length ≤ whole then ds ++ List.replicate (whole - ds.length) '0' ++ zero
    else ds.take whole ++ '.' :: ds.drop whole

/-- `ds` with the point after the first digit and an exponent part with a sign. -/
def scientific (ds : List Char) (e : Int) : List Char :=
  let fraction := match ds.drop 1 with
    | [] => []
    | rest => '.' :: rest
  ds.take 1 ++ fraction ++ 'e' :: (if e < 0 then '-' else '+') :: Nat.toDigits 10 e.natAbs

/-- The written form of a finite number; a negative zero keeps its sign. -/
def Layout.write (l : Layout) (x : Float) : String :=
  let p := shortest l.tie x
  let ds := Nat.toDigits 10 p.digits
  let e : Int := if p.digits = 0 then 0 else p.exponent + (ds.length - 1)
  let ds := dropTrailingZeros ds
  let isPlain := match l.plain with
    | none => true
    | some (least, greatest) => least ≤ e && e ≤ greatest
  let body := if isPlain then l.point ds e else scientific ds e
  let sign := if x.toBits.toNat / Nat.pow 2 63 = 1 then ['-'] else []
  String.ofList (sign ++ body)

/-- Values shown to people never have an exponent part, and whole numbers have no point. -/
def displayed : Layout := ⟨.up, none, false⟩

def displayText (x : Float) : String :=
  if x.isNaN then "NaN"
  else if x.isInf then if x < 0 then "-inf" else "inf"
  else displayed.write x

end RecordFilter.Decimal
