import RecordFilter.Filter.Basic
import RecordFilter.Operator

/-!
# Edits of a filter

Every edit makes another filter. An edit fails exactly if a node that it addresses is missing, and
the error names that node. Removing the last part of a node removes the node too.
-/
namespace RecordFilter

/-- The error of an edit: the node that does not exist. -/
inductive EditError where
  | groupOutOfRange (group : Nat)
  | subGroupOutOfRange (group subGroup : Nat)
  | conditionOutOfRange (path : Path)
  deriving DecidableEq, Repr

def EditError.diagnostic : EditError → Diagnostic
  | groupOutOfRange g => {
      code := "tessera::edit::group_out_of_range"
      message := "group " ++ g.repr ++ " does not exist" }
  | subGroupOutOfRange g s => {
      code := "tessera::edit::sub_group_out_of_range"
      message := "subgroup " ++ s.repr ++ " of group " ++ g.repr ++ " does not exist" }
  | conditionOutOfRange p => {
      code := "tessera::edit::condition_out_of_range"
      message := "condition " ++ p.text ++ " does not exist" }

/-- The condition with another operator; the value is kept if both keys, as written, have one
arity or none. -/
def Condition.withOperator (c : Condition) (operator : String) : Condition :=
  { c with
    operator
    value := if Operator.arityOfKey? c.operator = Operator.arityOfKey? operator then c.value
      else .null }

namespace Filter

def modifyGroup (f : Filter) (g : Nat) (change : Group → Group) : Filter :=
  { f with groups := f.groups.modify g change }

def modifySubGroup (f : Filter) (g s : Nat) (change : SubGroup → SubGroup) : Filter :=
  f.modifyGroup g fun group => ⟨group.subGroups.modify s change⟩

def modifyCondition (f : Filter) (p : Path) (change : Condition → Condition) : Filter :=
  f.modifySubGroup p.group p.subGroup fun sub => ⟨sub.conditions.modify p.condition change⟩

/-- Starts over for a record type, since properties belong to one record type. -/
def withRecordType (_ : Filter) (rt : RecordType) : Filter := initial rt

/-- Appends an initial group. -/
def addGroup (f : Filter) : Filter :=
  { f with groups := f.groups ++ [.initial] }

/-- Appends an initial subgroup to a group. -/
def addSubGroup (f : Filter) (g : Nat) : Except EditError Filter :=
  if g < f.groups.length then
    .ok (f.modifyGroup g fun group => ⟨group.subGroups ++ [.initial]⟩)
  else .error (.groupOutOfRange g)

/-- Appends a blank condition to a subgroup. -/
def addCondition (f : Filter) (g s : Nat) : Except EditError Filter :=
  match f.groups[g]? with
  | none => .error (.groupOutOfRange g)
  | some group =>
      if s < group.subGroups.length then
        .ok (f.modifySubGroup g s fun sub => ⟨sub.conditions ++ [.blank]⟩)
      else .error (.subGroupOutOfRange g s)

def removeGroup (f : Filter) (g : Nat) : Except EditError Filter :=
  if g < f.groups.length then .ok { f with groups := f.groups.eraseIdx g }
  else .error (.groupOutOfRange g)

/-- Removes a subgroup, and its group if nothing is left of it. -/
def removeSubGroup (f : Filter) (g s : Nat) : Except EditError Filter :=
  match f.groups[g]? with
  | none => .error (.groupOutOfRange g)
  | some group =>
      if s < group.subGroups.length then
        let left := group.subGroups.eraseIdx s
        if left.isEmpty then .ok { f with groups := f.groups.eraseIdx g }
        else .ok (f.modifyGroup g fun _ => ⟨left⟩)
      else .error (.subGroupOutOfRange g s)

/-- Removes a condition, and its subgroup if nothing is left of it. -/
def removeCondition (f : Filter) (p : Path) : Except EditError Filter :=
  match f.subGroup? p.group p.subGroup with
  | none => .error (.conditionOutOfRange p)
  | some sub =>
      if p.condition < sub.conditions.length then
        let left := sub.conditions.eraseIdx p.condition
        let next := f.modifySubGroup p.group p.subGroup fun _ => ⟨left⟩
        if left.isEmpty then next.removeSubGroup p.group p.subGroup else .ok next
      else .error (.conditionOutOfRange p)

/-- Changes the condition at a path, which must exist. -/
def setCondition (f : Filter) (p : Path) (change : Condition → Condition) :
    Except EditError Filter :=
  if (f.condition? p).isSome then .ok (f.modifyCondition p change)
  else .error (.conditionOutOfRange p)

/-- Chooses a property. Operator and value are cleared, since both depend on its type. -/
def setProperty (f : Filter) (p : Path) (property : String) : Except EditError Filter :=
  f.setCondition p fun _ => ⟨property, "", .null⟩

def setOperator (f : Filter) (p : Path) (operator : String) : Except EditError Filter :=
  f.setCondition p (·.withOperator operator)

def setValue (f : Filter) (p : Path) (value : Value) : Except EditError Filter :=
  f.setCondition p fun c => { c with value }

end Filter

inductive Edit where
  | withRecordType (rt : RecordType)
  | addGroup
  | addSubGroup (group : Nat)
  | addCondition (group subGroup : Nat)
  | removeGroup (group : Nat)
  | removeSubGroup (group subGroup : Nat)
  | removeCondition (path : Path)
  | setProperty (path : Path) (property : String)
  | setOperator (path : Path) (operator : String)
  | setValue (path : Path) (value : Value)

def Edit.apply (f : Filter) : Edit → Except EditError Filter
  | withRecordType rt => .ok (f.withRecordType rt)
  | addGroup => .ok f.addGroup
  | addSubGroup g => f.addSubGroup g
  | addCondition g s => f.addCondition g s
  | removeGroup g => f.removeGroup g
  | removeSubGroup g s => f.removeSubGroup g s
  | removeCondition p => f.removeCondition p
  | setProperty p property => f.setProperty p property
  | setOperator p operator => f.setOperator p operator
  | setValue p value => f.setValue p value

end RecordFilter
