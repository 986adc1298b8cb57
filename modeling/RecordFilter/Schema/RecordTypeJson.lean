import RecordFilter.Json.Reader
import RecordFilter.Decimal.Layout
import RecordFilter.Schema.RecordType

/-!
# Record types in JSON

Where a record type may still be missing, null and a blank text stand for its absence and any other
text is read as a name typed by a person. Elsewhere only the exact name counts.
-/
namespace RecordFilter

open Json (Document)

/-- The error of a document that is no record type and not the absence of one. -/
inductive RecordTypeFault where
  | unknown (e : UnknownRecordType)
  | wrongKind (found : String)
  | malformed

/-- The layout of a number in the error: as displayed, with a point. -/
def withPoint : Decimal.Layout := { Decimal.displayed with pointZero := true }

/-- The record type that a document names, absent for null and for a blank text. -/
def RecordType.ofDocument (d : Document) : Except RecordTypeFault (Option RecordType) :=
  match d with
  | .null => .ok none
  | .text (some s) =>
      if Text.trim s = "" then .ok none
      else match RecordType.ofName (Text.trim s) with
        | .ok rt => .ok rt
        | .error e => .error (.unknown e)
  | .text none => .error .malformed
  | .bool b => .error (.wrongKind ("boolean `" ++ (if b then "true" else "false") ++ "`"))
  | .number n => match Json.Number.ofNumeral? n with
    | some (.natural n) => .error (.wrongKind ("integer `" ++ n.toNat.repr ++ "`"))
    | some (.negative i) => .error (.wrongKind ("integer `" ++ i.toInt.repr ++ "`"))
    | some (.float x) =>
        .error (.wrongKind ("floating point `" ++ withPoint.write x ++ "`"))
    | none => .error .malformed
  | .array _ => .error (.wrongKind "sequence")
  | .object _ => .error (.wrongKind "map")

def RecordTypeFault.message : RecordTypeFault → String
  | unknown e => e.diagnostic.message
  | wrongKind found => "invalid type: " ++ found ++ ", expected a string"
  | malformed => "invalid JSON"

end RecordFilter
