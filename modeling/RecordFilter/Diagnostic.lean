/-!
# Diagnostics

What is shown to a person for an error: a text, a stable code of the form `area::kind`, and for some
errors an advice.
-/
namespace RecordFilter

/-- The shown form of an error. -/
structure Diagnostic where
  code : String
  message : String
  help : Option String := none
  deriving DecidableEq, Repr

end RecordFilter
