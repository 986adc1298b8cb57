/-!
# Shortest decimals

`shortest tie x` is the decimal with the fewest digits among those that read back as the finite
number `x`, and of these the nearest to it. Everything is exact arithmetic on naturals: `x` is
`mantissa * 2 ^ exponent`, the decimals that read back form an interval around it, and a decimal
with a given last place lies in the interval only if one of the two neighbours of `x` on that grid
does.
-/
namespace RecordFilter.Decimal

/-- The size of a finite floating-point number: `mantissa * 2 ^ exponent`. `narrow` tells that the
number below is at half the distance of the number above. -/
structure Binary where
  mantissa : Nat
  exponent : Int
  narrow : Bool
  deriving DecidableEq, Repr

/-- The size of a finite floating-point number, from its bits. -/
def Binary.ofFloat (x : Float) : Binary :=
  let bits := x.toBits.toNat
  let biased : Nat := bits / Nat.pow 2 52 % Nat.pow 2 11
  let low : Nat := bits % Nat.pow 2 52
  if biased = 0 then ⟨low, -1074, false⟩
  else ⟨low + Nat.pow 2 52, (biased : Int) - 1075, low == 0 && 1 < biased⟩

/-- The decimal `digits * 10 ^ exponent`. -/
structure Point where
  digits : Nat
  exponent : Int
  deriving DecidableEq, Repr

/-- Which neighbour to take when both are equally near. -/
inductive Tie where
  | up
  | even
  deriving DecidableEq, Repr

/-- Factors `(a, b)` with `c * 10 ^ k ≤ v * 2 ^ q` exactly when `c * a ≤ v * b`. -/
def factors (k q : Int) : Nat × Nat :=
  (Nat.pow 10 k.toNat * Nat.pow 2 (-q).toNat, Nat.pow 10 (-k).toNat * Nat.pow 2 q.toNat)

/-- The exponent of the first decimal digit of a nonzero number. -/
def leadingExponent (b : Binary) : Int :=
  let guess := Int.fdiv ((b.mantissa.log2 + b.exponent) * 30103) 100000
  let below (k : Int) : Bool :=
    let (ten, two) := factors k b.exponent
    ten ≤ b.mantissa * two
  if below (guess + 1) then guess + 1 else if below guess then guess else guess - 1

/-- The neighbour of the number on the grid of multiples of `10 ^ k` that reads back, the nearer one
if both do. -/
def onGrid? (tie : Tie) (b : Binary) (k : Int) : Option Nat :=
  let (ten, two) := factors k (b.exponent - 2)
  let value := 4 * b.mantissa * two
  let low := (4 * b.mantissa - if b.narrow then 1 else 2) * two
  let high := (4 * b.mantissa + 2) * two
  let readsBack (c : Nat) : Bool :=
    if b.mantissa % 2 = 0 then low ≤ c * ten && c * ten ≤ high
    else low < c * ten && c * ten < high
  let floor := value / ten
  let below := value - floor * ten
  let above := (floor + 1) * ten - value
  let floorNearer : Bool := match tie with
    | .up => below < above
    | .even => below < above || (below == above && floor % 2 == 0)
  match readsBack floor, readsBack (floor + 1) with
  | true, true => some (if floorNearer then floor else floor + 1)
  | true, false => some floor
  | false, true => some (floor + 1)
  | false, false => none

/-- The first grid with a point that reads back, trying `places` grids from `10 ^ k` downwards. -/
def search (tie : Tie) (b : Binary) (k : Int) : Nat → Point
  | 0 => ⟨0, k⟩
  | places + 1 =>
      match onGrid? tie b k with
      | some c => ⟨c, k⟩
      | none => search tie b (k - 1) places

/-- The shortest decimal that reads back as the finite number; seventeen digits always do. -/
def shortest (tie : Tie) (x : Float) : Point :=
  let b := Binary.ofFloat x
  if b.mantissa = 0 then ⟨0, 0⟩ else search tie b (leadingExponent b) 17

end RecordFilter.Decimal
