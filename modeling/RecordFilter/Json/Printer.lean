import RecordFilter.Decimal.Layout
import RecordFilter.Json.Basic

/-!
# Writing JSON values

The written form is compact: no blanks, fields in the order of the value, and only the quote, the
backslash and controls escaped. Floating-point numbers keep their point.
-/
namespace RecordFilter.Json

open Decimal (Layout)

/-- Numbers have no exponent part as long as the first digit stands at `10 ^ (-5)` to `10 ^ 15`. -/
def layout : Layout := ⟨.even, some (-5, 15), true⟩

def Number.write : Number → String
  | .natural n => n.toNat.repr
  | .negative i => i.toInt.repr
  | .float x => if x.isFinite then layout.write x else "null"

/-- A character inside quotes. -/
def escape (c : Char) : List Char :=
  if c = '"' then ['\\', '"']
  else if c = '\\' then ['\\', '\\']
  else if c = '\x08' then ['\\', 'b']
  else if c = '\t' then ['\\', 't']
  else if c = '\n' then ['\\', 'n']
  else if c = '\x0c' then ['\\', 'f']
  else if c = '\r' then ['\\', 'r']
  else if c.toNat < 0x20 then
    ['\\', 'u', '0', '0', Nat.digitChar (c.toNat / 16), Nat.digitChar (c.toNat % 16)]
  else [c]

/-- Appends a quoted text to `out`. -/
def writeText (out : String) (s : String) : String :=
  (s.toList.foldl (fun out c => (escape c).foldl String.push out) (out.push '"')).push '"'

mutual

/-- Appends a value to `out`. -/
def write (out : String) : Json → String
  | null => out ++ "null"
  | bool b => out ++ if b then "true" else "false"
  | number n => out ++ n.write
  | text s => writeText out s
  | array items => (writeItems (out.push '[') items).push ']'
  | object fields => (writeFields (out.push '{') fields).push '}'

/-- Appends the items of an array to `out`, with commas between them. -/
def writeItems (out : String) : List Json → String
  | [] => out
  | [j] => write out j
  | j :: js => writeItems ((write out j).push ',') js

/-- Appends the fields of an object to `out`, with commas between them. -/
def writeFields (out : String) : List (String × Json) → String
  | [] => out
  | [(key, j)] => write ((writeText out key).push ':') j
  | (key, j) :: fields => writeFields ((write ((writeText out key).push ':') j).push ',') fields

end

def render (j : Json) : String :=
  write "" j

end RecordFilter.Json
