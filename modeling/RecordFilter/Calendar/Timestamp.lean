import RecordFilter.Calendar.Date

/-!
# Timestamps

The spelling of RFC 3339: a date and a time of day with all numbers at full width, an optional
fraction of a second, and the offset from universal time. A second may be 60.
-/
namespace RecordFilter.Calendar

/-- A date `DDDD-DD-DD` that exists, and what follows it. -/
def takeFullDate (cs : List Char) : Option (List Char) := do
  let (year, cs) ← takeFixed 4 cs
  let cs ← skip? '-' cs
  let (month, cs) ← takeFixed 2 cs
  let cs ← skip? '-' cs
  let (day, cs) ← takeFixed 2 cs
  guard (isDay year month day)
  return cs

/-- A fraction of a second, if there is a point. -/
def takeFraction (cs : List Char) : Option (List Char) :=
  match cs with
  | '.' :: cs => match Decimal.takeDigits cs with
    | ([], _) => none
    | (_, cs) => some cs
  | cs => some cs

/-- A time of day `DD:DD:DD` with an optional fraction. -/
def takeTime (cs : List Char) : Option (List Char) := do
  let (hour, cs) ← takeFixed 2 cs
  let cs ← skip? ':' cs
  let (minute, cs) ← takeFixed 2 cs
  let cs ← skip? ':' cs
  let (second, cs) ← takeFixed 2 cs
  guard (hour ≤ 23 && minute ≤ 59 && second ≤ 60)
  takeFraction cs

/-- An offset: `Z`, or a sign and `DD:DD` of less than a day. -/
def takeOffset (cs : List Char) : Option (List Char) :=
  match cs with
  | [] => none
  | c :: cs =>
      if c = 'Z' ∨ c = 'z' then some cs
      else if c = '+' ∨ c = '-' ∨ c = '\u2212' then do
        let (hour, cs) ← takeFixed 2 cs
        let cs ← skip? ':' cs
        let (minute, cs) ← takeFixed 2 cs
        guard (hour ≤ 23 && minute ≤ 59)
        return cs
      else none

def isTimestampText (cs : List Char) : Bool :=
  (do
    let cs ← takeFullDate cs
    match cs with
    | [] => none
    | c :: cs =>
        guard (c = 'T' || c = 't' || c = ' ')
        let cs ← takeTime cs
        let cs ← takeOffset cs
        guard cs.isEmpty
    : Option Unit).isSome

/-- Whether the text names a day or a moment, in one of the two spellings. -/
def isDateValue (s : String) : Bool :=
  isTimestampText s.toList || isDateText s.toList

end RecordFilter.Calendar
