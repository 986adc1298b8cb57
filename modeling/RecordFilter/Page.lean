import RecordFilter.Json.Reader

/-!
# Pages

A listing is asked for page by page. Pages count from one; page zero means page one.
-/
namespace RecordFilter

/-- A page of a listing: its number and the number of items on a page. -/
structure Page where
  number : UInt32
  size : UInt32
  deriving DecidableEq, Repr

namespace Page

/-- The number of items on a page where nothing else is asked for. -/
def defaultSize : UInt32 := 100

/-- The page of a number, which is raised to one. -/
def ofNumber (number size : UInt32) : Page := ⟨max number 1, size⟩

def first (size : UInt32) : Page := ofNumber 1 size

/-- The page after this one. The last number that 32 bits hold stays. -/
def next (p : Page) : Page :=
  ofNumber (if p.number.toNat + 1 < UInt32.size then p.number + 1 else p.number) p.size

/-- The number of items before the page. -/
def offset (p : Page) : Nat := (p.number.toNat - 1) * p.size.toNat

/-- The items of a listing that are on the page. -/
def slice {α : Type} (p : Page) (items : List α) : List α :=
  (items.drop p.offset).take p.size.toNat

/-- Whether a page with that many items is the last one. -/
def isLast (p : Page) (length : Nat) : Bool := length < p.size.toNat

/-- The number of 32 bits that a document is. -/
def word? (d : Json.Document) : Option UInt32 := do
  let n ← d.natural?
  if n < UInt32.size then some (UInt32.ofNat n) else none

/-- The page that a document is, whatever its number. -/
def ofDocument? (d : Json.Document) : Option Page := do
  match ← d.record? ["page", "pageSize"] with
  | [some number, some size] => return ⟨← word? number, ← word? size⟩
  | _ => none

def ofText? (s : String) : Option Page :=
  (Json.Document.read? s).bind ofDocument?

def toJson (p : Page) : Json :=
  .object [("page", .number (.natural p.number.toUInt64)),
    ("pageSize", .number (.natural p.size.toUInt64))]

end Page
end RecordFilter
