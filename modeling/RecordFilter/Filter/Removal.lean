import RecordFilter.Filter.Edit

/-!
# Removals

A removal addresses a node: a group, a subgroup or a condition. It takes that node out, or the node
above if nothing else is in it. The conditions behind it move up, and `Filter.Node.renumber` says
which paths they have then.
-/
namespace RecordFilter

/-- The index of an item after the item at `i` is taken out; none for that item. -/
def closeGap (i n : Nat) : Option Nat :=
  if n < i then some n else if n = i then none else some (n - 1)

theorem closeGap_eq_none_iff {i n : Nat} : closeGap i n = none ↔ n = i := by
  grind [closeGap]

theorem closeGap_of_lt {i n : Nat} (h : n < i) : closeGap i n = some n := if_pos h

theorem closeGap_succ_of_le {i n : Nat} (h : i ≤ n) : closeGap i (n + 1) = some n := by
  grind [closeGap]

/-- Of an item behind a gap the index is lowered by one. -/
theorem closeGap_of_ne {i n : Nat} (h : n ≠ i) :
    closeGap i n = some (if i < n then n - 1 else n) := by
  grind [closeGap]

namespace Filter

inductive Node where
  | group (g : Nat)
  | subGroup (g s : Nat)
  | condition (p : Path)

namespace Node

/-- Whether the path is that of a condition in the node. -/
def Holds : Node → Path → Prop
  | group g, p => p.group = g
  | subGroup g s, p => p.group = g ∧ p.subGroup = s
  | condition q, p => p = q

instance (n : Node) (p : Path) : Decidable (n.Holds p) :=
  match n with
  | group g => inferInstanceAs (Decidable (p.group = g))
  | subGroup g s => inferInstanceAs (Decidable (p.group = g ∧ p.subGroup = s))
  | condition q => inferInstanceAs (Decidable (p = q))

/-- The path of a condition after the node is taken out; none for the conditions in the node. -/
def renumber : Node → Path → Option Path
  | group g, p => (closeGap g p.group).map fun i => { p with group := i }
  | subGroup g s, p =>
      if p.group = g then (closeGap s p.subGroup).map fun i => { p with subGroup := i }
      else some p
  | condition q, p =>
      if p.group = q.group ∧ p.subGroup = q.subGroup then
        (closeGap q.condition p.condition).map fun i => { p with condition := i }
      else some p

end Node

/-- The filter with a node taken out and nothing else. -/
def erase (f : Filter) : Node → Filter
  | .group g => { f with groups := f.groups.eraseIdx g }
  | .subGroup g s => f.modifyGroup g fun group => ⟨group.subGroups.eraseIdx s⟩
  | .condition p => f.modifySubGroup p.group p.subGroup fun sub =>
      ⟨sub.conditions.eraseIdx p.condition⟩

/-- The node to take out in place of another: the node above if nothing would be left in it. -/
def above (f : Filter) : Node → Node
  | .group g => .group g
  | .subGroup g s =>
      if (f.groups[g]?).all fun group => (group.subGroups.eraseIdx s).isEmpty then .group g
      else .subGroup g s
  | .condition p =>
      if (f.subGroup? p.group p.subGroup).all fun sub =>
          (sub.conditions.eraseIdx p.condition).isEmpty then .subGroup p.group p.subGroup
      else .condition p

/-- The node that is taken out when a node is removed. It may be two levels above. -/
def dropped (f : Filter) (n : Node) : Node := f.above (f.above n)

end Filter

def Edit.removes? : Edit → Option Filter.Node
  | removeGroup g => some (.group g)
  | removeSubGroup g s => some (.subGroup g s)
  | removeCondition p => some (.condition p)
  | _ => none

/-- The condition that an edit changes in its place. -/
def Edit.sets? : Edit → Option Path
  | setProperty p _ | setOperator p _ | setValue p _ => some p
  | _ => none

def Edit.adds : Edit → Bool
  | addGroup | addSubGroup _ | addCondition _ _ => true
  | _ => false

end RecordFilter
