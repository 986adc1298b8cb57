/-!
# JSON values

Numbers keep the three ways in which they are held: a natural number of 64 bits, a negative integer
of 64 bits, or a floating-point number. Objects are lists of fields; `ofFields` gives the form that
values have once read, with the keys in increasing order and the last of equal keys kept.
-/
namespace RecordFilter

inductive Json.Number where
  | natural (n : UInt64)
  | negative (i : Int64)
  | float (x : Float)
  deriving DecidableEq

inductive Json where
  | null
  | bool (b : Bool)
  | number (n : Json.Number)
  | text (s : String)
  | array (items : List Json)
  | object (fields : List (String × Json))

namespace Json

/-- Of neighbours with equal keys, keeps the last. -/
def keepLast (done : List (String × Json)) : List (String × Json) → List (String × Json)
  | [] => done.reverse
  | [f] => (f :: done).reverse
  | f :: g :: rest => keepLast (if f.1 = g.1 then done else f :: done) (g :: rest)

/-- The object with the given fields in the order of their keys. -/
def ofFields (fields : List (String × Json)) : Json :=
  object (keepLast [] (fields.mergeSort fun f g => f.1 ≤ g.1))

/-- The keys of each object in the value are in increasing order, so that none occurs twice. -/
inductive Sorted : Json → Prop where
  | null : Sorted null
  | bool (b : Bool) : Sorted (bool b)
  | number (n : Number) : Sorted (number n)
  | text (s : String) : Sorted (text s)
  | array (items : List Json) (all : ∀ j ∈ items, Sorted j) : Sorted (array items)
  | object (fields : List (String × Json)) (keys : (fields.map Prod.fst).Pairwise (· < ·))
      (all : ∀ f ∈ fields, Sorted f.2) : Sorted (object fields)

end Json
end RecordFilter
