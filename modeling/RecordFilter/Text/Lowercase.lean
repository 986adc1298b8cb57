import RecordFilter.Text.CaseTable

/-!
# Lowercase texts

`lowercase` is the full lowercase of Unicode. Every character is lowered on its own, with two
exceptions: U+0130 becomes two characters, and a capital sigma becomes `ς` at the end of a word and
`σ` elsewhere. `lowerAscii` touches the letters `A` to `Z` only.
-/
namespace RecordFilter.Text

/-- The lowercase of one character; itself where there is none. -/
def lowerChar (c : Char) : Char :=
  if c.toNat < 0x80 then c.toLower
  else match CaseTable.lowerRuns.find? (·.holds c.toNat) with
    | some run => Char.ofNat (c.toNat + run.shift).toNat
    | none => c

/-- Whether the first character that is not ignorable has a case. -/
def meetsLetter (cs : List Char) : Bool :=
  match cs.find? fun c => !CaseTable.inRanges CaseTable.ignorableRanges c.toNat with
  | some c => CaseTable.inRanges CaseTable.casedRanges c.toNat
  | none => false

/-- The lowercase of `c`, standing after `before` (nearest first) and ahead of `after`. -/
def lowerIn (before : List Char) (c : Char) (after : List Char) : List Char :=
  if c = 'Σ' then
    if meetsLetter before && !meetsLetter after then ['ς'] else ['σ']
  else if c = 'İ' then ['i', '\u0307']
  else [lowerChar c]

/-- Lowers the second list, which stands after `before`; `done` holds the result so far reversed. -/
def lowerFrom (done before : List Char) : List Char → List Char
  | [] => done.reverse
  | c :: after => lowerFrom ((lowerIn before c after).reverse ++ done) (c :: before) after

/-- The full lowercase of a text. -/
def lowercase (s : String) : String :=
  String.ofList (lowerFrom [] [] s.toList)

/-- A text with the letters `A` to `Z` lowered. -/
def lowerAscii (s : String) : String :=
  s.map Char.toLower

/-- Whether two texts differ at most in the case of ASCII letters. -/
def sameLetters (s t : String) : Bool :=
  lowerAscii s == lowerAscii t

end RecordFilter.Text
