import RecordFilter.Json.Token

/-!
# JSON documents

A document is what a JSON text says before its numbers and texts are given a value: numerals are
kept as written, keys keep their order and may repeat, and a quoted text that spells no characters
has no content. `Document.read?` builds it token by token with a stack of the arrays and objects
still open, so that nesting has no limit here.
-/
namespace RecordFilter.Json

open Decimal (Numeral)

/-- The tree of a JSON text. -/
inductive Document where
  | null
  | bool (b : Bool)
  | number (n : Numeral)
  | text (content : Option String)
  | array (items : List Document)
  | object (fields : List (Option String × Document))

/-- An array or an object still open, its parts so far reversed. -/
inductive Frame where
  | array (done : List Document)
  | object (done : List (Option String × Document)) (key : Option String)

/-- What may come next: a value, the first item or `]`, the first key or `}`, a key, a colon, or
what follows a complete value. `outer` holds what is open, the innermost first. -/
inductive State where
  | value (outer : List Frame)
  | firstItem (outer : List Frame)
  | firstKey (outer : List Frame)
  | nextKey (done : List (Option String × Document)) (outer : List Frame)
  | colon (done : List (Option String × Document)) (key : Option String) (outer : List Frame)
  | after (d : Document) (outer : List Frame)

namespace State

def beginValue (outer : List Frame) : Token → Option State
  | .openArray => some (firstItem outer)
  | .openObject => some (firstKey outer)
  | .null => some (after .null outer)
  | .bool b => some (after (.bool b) outer)
  | .number n => some (after (.number n) outer)
  | .text content => some (after (.text content) outer)
  | _ => none

/-- Takes one token. -/
def step : State → Token → Option State
  | value outer, t => beginValue outer t
  | firstItem outer, .closeArray => some (after (.array []) outer)
  | firstItem outer, t => beginValue (.array [] :: outer) t
  | firstKey outer, .closeObject => some (after (.object []) outer)
  | firstKey outer, .text key => some (colon [] key outer)
  | nextKey done outer, .text key => some (colon done key outer)
  | colon done key outer, .colon => some (value (.object done key :: outer))
  | after d (.array done :: outer), .comma => some (value (.array (d :: done) :: outer))
  | after d (.array done :: outer), .closeArray =>
      some (after (.array (d :: done).reverse) outer)
  | after d (.object done key :: outer), .comma => some (nextKey ((key, d) :: done) outer)
  | after d (.object done key :: outer), .closeObject =>
      some (after (.object ((key, d) :: done).reverse) outer)
  | _, _ => none

/-- Takes all tokens; the document is complete when nothing is open at the end. -/
def run (state : State) : List Token → Option Document
  | [] => match state with
    | after d [] => some d
    | _ => none
  | t :: ts => match state.step t with
    | some state => run state ts
    | none => none

end State

def Document.ofTokens? (ts : List Token) : Option Document :=
  (State.value []).run ts

/-- The document that a text is. -/
def Document.read? (s : String) : Option Document :=
  (Token.scan? s).bind ofTokens?

end RecordFilter.Json
