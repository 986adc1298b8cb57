import RecordFilter.Filter.Basic

/-!
# The meaning of filters

A filter holds of a record if each of its groups does, a group if one of its subgroups does, and a
subgroup if all of its conditions do. Only complete conditions count: a subgroup without any is no
choice, and a group without any asks for nothing.
-/
namespace RecordFilter

/-- The paths of the complete conditions of subgroup `s` of group `g`. -/
def SubGroup.complete (sub : SubGroup) (g s : Nat) : List Path :=
  ((sub.located g s).filter fun (_, c) => c.isComplete).map Prod.fst

/-- The paths of the complete conditions of group `g`, subgroup by subgroup. -/
def Group.complete (group : Group) (g : Nat) : List (List Path) :=
  (group.subGroups.zipIdx.map fun (sub, s) => sub.complete g s).filter (!·.isEmpty)

/-- Whether group `g` holds, given the conditions that do. -/
def Group.holds (truth : Path → Bool) (group : Group) (g : Nat) : Bool :=
  let choices := group.complete g
  choices.isEmpty || choices.any (·.all truth)

/-- Whether a filter holds, given the conditions that do. -/
def Filter.holds (truth : Path → Bool) (f : Filter) : Bool :=
  f.groups.zipIdx.all fun (group, g) => group.holds truth g

end RecordFilter
