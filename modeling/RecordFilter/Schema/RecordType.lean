import RecordFilter.Diagnostic
import RecordFilter.Text.Blank
import RecordFilter.Text.Lowercase

/-!
# Record types

The closed set of kinds of records that a filter can be about. The table of a record type bears its
name, so that table names never come from a caller.
-/
namespace RecordFilter

inductive RecordType where
  | account
  | user
  | contact
  | opportunity
  | task
  | ticket
  deriving DecidableEq, Repr, Inhabited

namespace RecordType

/-- Every record type, in the order in which they are refreshed. -/
def all : List RecordType := [account, user, contact, opportunity, task, ticket]

def name : RecordType → String
  | account => "account"
  | user => "user"
  | contact => "contact"
  | opportunity => "opportunity"
  | task => "task"
  | ticket => "ticket"

/-- The table that holds the records. -/
def table (rt : RecordType) : String := rt.name

/-- The place of a record type in `all`. -/
def position (rt : RecordType) : Nat := all.idxOf rt

def ofExactName? (s : String) : Option RecordType :=
  all.find? (·.name == s)

/-- The record type of a name typed by a person: blanks around it and letter case do not count. -/
def ofName? (s : String) : Option RecordType :=
  all.find? fun rt => Text.sameLetters rt.name (Text.trim s)

theorem mem_all (rt : RecordType) : rt ∈ all := by
  cases rt <;> decide

theorem ofExactName?_name (rt : RecordType) : ofExactName? rt.name = some rt := by
  cases rt <;> decide

end RecordType

/-- The error of a name that no record type bears. -/
structure UnknownRecordType where
  name : String
  deriving DecidableEq, Repr

/-- The shown form of the error: the name is repeated as it was given. -/
def UnknownRecordType.diagnostic (e : UnknownRecordType) : Diagnostic where
  code := "tessera::schema::unknown_record_type"
  message := "unknown record type `" ++ e.name ++ "`"
  help := "expected one of: " ++ ", ".intercalate (RecordType.all.map RecordType.name)

def RecordType.ofName (s : String) : Except UnknownRecordType RecordType :=
  match ofName? s with
  | some rt => .ok rt
  | none => .error ⟨s⟩

end RecordFilter
