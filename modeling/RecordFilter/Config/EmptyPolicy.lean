/-!
# Empty filters

What a filter without any complete condition means when it is submitted.
-/
namespace RecordFilter

/-- Whether an empty filter matches every record or is not submitted. -/
inductive EmptyPolicy where
  | matchAll
  | reject
  deriving DecidableEq, Repr, Inhabited

namespace EmptyPolicy

def name : EmptyPolicy → String
  | matchAll => "match_all"
  | reject => "reject"

def ofExactName? (s : String) : Option EmptyPolicy :=
  match s with
  | "match_all" => some matchAll
  | "reject" => some reject
  | _ => none

def allowsEmpty (p : EmptyPolicy) : Bool := p == matchAll

end EmptyPolicy
end RecordFilter
