import RecordFilter.Decimal.Numeral
import RecordFilter.Text.Blank

/-!
# Calendar dates

Dates of the proleptic Gregorian calendar, and the spelling `year-month-day` with numbers of any
width: blank characters may stand before each number, an unsigned year has at most four digits, and
a signed year any number of them.
-/
namespace RecordFilter.Calendar

/-- Years divisible by 4 are leap years, except those divisible by 100 and not by 400. -/
def isLeapYear (year : Int) : Bool :=
  year % 4 == 0 && (year % 100 != 0 || year % 400 == 0)

/-- The number of days of a month, zero for no month. -/
def daysInMonth (year : Int) (month : Nat) : Nat :=
  match month with
  | 2 => if isLeapYear year then 29 else 28
  | 4 | 6 | 9 | 11 => 30
  | 1 | 3 | 5 | 7 | 8 | 10 | 12 => 31
  | _ => 0

def isDay (year : Int) (month day : Nat) : Bool :=
  1 ≤ day && day ≤ daysInMonth year month

def isYear (year : Int) : Bool :=
  -262143 ≤ year && year ≤ 262142

/-- A number of exactly `width` digits, and what follows it. -/
def takeFixed (width : Nat) (cs : List Char) : Option (Nat × List Char) :=
  let ds := cs.take width
  if ds.length = width ∧ ds.all Char.isDigit then some (Nat.ofDigitChars 10 ds 0, cs.drop width)
  else none

/-- A number of one to `width` digits, and what follows it. -/
def takeUpTo (width : Nat) (cs : List Char) : Option (Nat × List Char) :=
  match (cs.take width).takeWhile Char.isDigit with
  | [] => none
  | ds => some (Nat.ofDigitChars 10 ds 0, cs.drop ds.length)

/-- The text after the character `c`, if it starts with it. -/
def skip? (c : Char) : List Char → Option (List Char)
  | [] => none
  | d :: cs => if d = c then some cs else none

/-- A year: one to four digits, or a sign and any number of digits. -/
def takeYear (cs : List Char) : Option (Int × List Char) :=
  match cs with
  | '+' :: rest => (takeUpTo rest.length rest).map fun (n, rest) => ((n : Int), rest)
  | '-' :: rest => (takeUpTo rest.length rest).map fun (n, rest) => (-(n : Int), rest)
  | _ => (takeUpTo 4 cs).map fun (n, rest) => ((n : Int), rest)

/-- Whether the text spells an existing date as `year-month-day`. -/
def isDateText (cs : List Char) : Bool :=
  (do
    let (year, cs) ← takeYear (cs.dropWhile Text.isBlank)
    let cs ← skip? '-' cs
    let (month, cs) ← takeUpTo 2 (cs.dropWhile Text.isBlank)
    let cs ← skip? '-' cs
    let (day, cs) ← takeUpTo 2 (cs.dropWhile Text.isBlank)
    guard (cs.isEmpty && isYear year && isDay year month day)
    : Option Unit).isSome

end RecordFilter.Calendar
