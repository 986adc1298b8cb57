import RecordFilter.Filter.Value
import RecordFilter.Schema.RecordType

/-!
# Filters

A filter is about the records of one type. It asks that all of its groups hold; a group asks for one
of its subgroups, and a subgroup for all of its conditions. A condition is complete once a property
and an operator are chosen. `Filter.conditions` lists the conditions with their paths in order, and
`Filter.condition?` looks one up.
-/
namespace RecordFilter

/-- The place of a condition: the index of its group, of its subgroup there, and its own. -/
structure Path where
  group : Nat
  subGroup : Nat
  condition : Nat
  deriving DecidableEq, Repr

def Path.text (p : Path) : String :=
  "groups[" ++ p.group.repr ++ "].subGroups[" ++ p.subGroup.repr ++ "].conditions[" ++
    p.condition.repr ++ "]"

/-- A comparison of a property with a value. Texts are empty and the value null until chosen. -/
structure Condition where
  property : String := ""
  operator : String := ""
  value : Value := .null

/-- A condition with nothing chosen. -/
def Condition.blank : Condition := {}

/-- Whether a property and an operator are chosen. -/
def Condition.isComplete (c : Condition) : Bool :=
  Text.trim c.property != "" && Text.trim c.operator != ""

/-- Conditions all of which must hold. -/
structure SubGroup where
  conditions : List Condition

/-- Subgroups one of which must hold. -/
structure Group where
  subGroups : List SubGroup

/-- A filter. The record type is absent until it is chosen. -/
structure Filter where
  recordType : Option RecordType := none
  groups : List Group := []

/-- The subgroup that an edit appends: one blank condition. -/
def SubGroup.initial : SubGroup := ⟨[.blank]⟩

/-- The group that an edit appends: one initial subgroup. -/
def Group.initial : Group := ⟨[.initial]⟩

namespace Filter

/-- The filter without a record type and without groups. -/
def blank : Filter := {}

/-- The filter shown first for a record type: one group with one blank condition. -/
def initial (rt : RecordType) : Filter := ⟨rt, [.initial]⟩

def subGroup? (f : Filter) (g s : Nat) : Option SubGroup := do
  let group ← f.groups[g]?
  group.subGroups[s]?

def condition? (f : Filter) (p : Path) : Option Condition := do
  let sub ← f.subGroup? p.group p.subGroup
  sub.conditions[p.condition]?

end Filter

/-- The conditions of subgroup `s` of group `g` with their paths. -/
def SubGroup.located (sub : SubGroup) (g s : Nat) : List (Path × Condition) :=
  sub.conditions.zipIdx.map fun (condition, c) => (⟨g, s, c⟩, condition)

/-- The conditions of group `g` with their paths. -/
def Group.located (group : Group) (g : Nat) : List (Path × Condition) :=
  group.subGroups.zipIdx.flatMap fun (sub, s) => sub.located g s

namespace Filter

/-- All conditions with their paths, in order. -/
def conditions (f : Filter) : List (Path × Condition) :=
  f.groups.zipIdx.flatMap fun (group, g) => group.located g

/-- The number of conditions, complete or not. -/
def conditionCount (f : Filter) : Nat := f.conditions.length

/-- Whether no condition is complete. -/
def isBlank (f : Filter) : Bool := !f.conditions.any fun (_, c) => c.isComplete

end Filter
end RecordFilter
