import RecordFilter.Proofs.Correspondence
import RecordFilter.Proofs.Placeholders
import RecordFilter.Proofs.Resolving

/-!
# The columns of a query

Writing a predicate is a run of builder steps, among which the columns are the identifiers. The
columns of a query are these names without repetition, in the order of their first steps
(`Query.columns_firstUses`). No form of the predicate is assumed: nodes may be empty, or have a
single part. If the query was compiled with a catalog, the catalog has all of them for its record
type.
-/
namespace RecordFilter

namespace Sql

/-- The name that a step writes as an identifier. -/
def Step.name? : Step → Option String
  | identifier name => some name
  | push _ | param _ | params _ => none

def Step.names (steps : List Step) : List String := steps.filterMap name?

theorem Step.names_append (s t : List Step) : names (s ++ t) = names s ++ names t :=
  List.filterMap_append

theorem Step.names_push (s : String) (t : List Step) : names (.push s :: t) = names t := rfl

/-- The steps that bind values with `separator` between their placeholders. -/
def Step.joined (separator : String) : List Value → List Step
  | [] => []
  | v :: vs => .param v :: vs.flatMap fun v => [.push separator, .param v]

theorem Step.names_joined (separator : String) (vs : List Value) :
    names (joined separator vs) = [] := by
  cases vs with
  | nil => rfl
  | cons v vs =>
    induction vs with
    | nil => rfl
    | cons w vs ih => exact ih

namespace Builder

theorem run_append (b : Builder) (s t : List Step) : b.run (s ++ t) = (b.run s).run t :=
  List.foldl_append

theorem run_cons (b : Builder) (s : Step) (t : List Step) : b.run (s :: t) = (b.step s).run t := rfl

theorem dialect_run (b : Builder) (steps : List Step) : (b.run steps).dialect = b.dialect :=
  (b.adds_run steps).dialect

theorem pushJoined_eq_run (separator : String) (b : Builder) (vs : List Value) :
    b.pushJoined separator vs = b.run (Step.joined separator vs) := by
  cases vs with
  | nil => rfl
  | cons v vs =>
    rw [pushJoined, Step.joined, run_cons, run, List.foldl_flatMap]
    rfl

end Builder
end Sql

open Sql (Step Builder)

def Comparison.steps (d : Dialect) (c : Comparison) : List Step :=
  .identifier c.column :: .push " " :: match c.op with
    | .like | .notLike =>
        [.push c.op.symbol, .push " ", .params c.params, .push (" " ++ d.likeEscape)]
    | .isIn | .notIn => [.push c.op.symbol, .push " (", .params c.params, .push ")"]
    | .between => .push "BETWEEN " :: Step.joined " AND " c.params
    | .eq | .notEq | .gt | .lt | .gte | .lte => [.push c.op.symbol, .push " ", .params c.params]

theorem Comparison.write_eq_run (c : Comparison) (b : Builder) :
    c.write b = b.run (c.steps b.dialect) := by
  rw [write, steps]
  cases c.op with
  | between => exact Builder.pushJoined_eq_run " AND " _ c.params
  | _ => rfl

/-- The column is the only identifier of a comparison. -/
theorem Comparison.names_steps (c : Comparison) (d : Dialect) :
    Step.names (c.steps d) = [c.column] := by
  rw [steps]
  cases c.op with
  | between => exact congrArg (c.column :: ·) (Step.names_joined " AND " c.params)
  | _ => rfl

namespace Predicate

mutual

def steps (d : Dialect) : Predicate → List Step
  | compare c => c.steps d
  | all ps => joinedSteps d " AND " ps
  | any ps => joinedSteps d " OR " ps

/-- The steps that write predicates in parentheses with `separator` between them. -/
def joinedSteps (d : Dialect) (separator : String) : List Predicate → List Step
  | [] => []
  | [p] => .push "(" :: (steps d p ++ [.push ")"])
  | p :: ps =>
      .push "(" :: (steps d p ++ .push ")" :: .push separator :: joinedSteps d separator ps)

end

mutual

theorem write_eq_run (b : Builder) : ∀ p : Predicate, p.write b = b.run (p.steps b.dialect)
  | compare c => c.write_eq_run b
  | all ps | any ps => writeJoined_eq_run b _ ps

theorem writeJoined_eq_run (b : Builder) (separator : String) : ∀ ps : List Predicate,
    writeJoined separator b ps = b.run (joinedSteps b.dialect separator ps)
  | [] => rfl
  | [p] => by
    rw [writeJoined, joinedSteps, write_eq_run _ p, Builder.run_cons, Builder.run_append]
    rfl
  | p :: q :: ps => by
    have behind := writeJoined_eq_run
      ((((b.push "(").run (p.steps b.dialect)).push ")").push separator) separator (q :: ps)
    simp only [Builder.dialect_push, Builder.dialect_run] at behind
    rw [writeJoined, joinedSteps, write_eq_run _ p, Builder.run_cons, Builder.run_append]
    · exact behind
    · exact nofun
    · exact nofun

end

mutual

/-- The identifiers that are written are the columns of the comparisons. -/
theorem names_steps (d : Dialect) : ∀ p : Predicate,
    Step.names (p.steps d) = p.comparisons.map (·.column)
  | compare c => c.names_steps d
  | all ps | any ps => names_joinedSteps d _ ps

theorem names_joinedSteps (d : Dialect) (separator : String) : ∀ ps : List Predicate,
    Step.names (joinedSteps d separator ps) = (comparisonsOf ps).map (·.column)
  | [] => rfl
  | [p] => by
    rw [joinedSteps, Step.names_push, Step.names_append, names_steps d p]
    simp [comparisonsOf, Step.names, Step.name?]
  | p :: q :: ps => by
    rw [joinedSteps, Step.names_push, Step.names_append, Step.names_push, Step.names_push,
      names_steps d p, names_joinedSteps d separator (q :: ps), ← List.map_append]
    · rfl
    · exact nofun

end

/-- A comparison somewhere in the tree compares the column. -/
inductive Uses (column : String) : Predicate → Prop
  | compare {m : Comparison} (h : m.column = column) : Uses column (.compare m)
  | all {p : Predicate} {ps : List Predicate} (mem : p ∈ ps) (h : Uses column p) :
      Uses column (.all ps)
  | any {p : Predicate} {ps : List Predicate} (mem : p ∈ ps) (h : Uses column p) :
      Uses column (.any ps)

theorem mem_columns_of_uses {column : String} {p : Predicate} (h : p.Uses column) :
    column ∈ p.comparisons.map (·.column) := by
  induction h with
  | compare h => exact List.mem_singleton.mpr h.symm
  | all mem h ih | any mem h ih =>
    rw [comparisons, comparisonsOf_eq_flatMap, List.map_flatMap]
    exact List.mem_flatMap.mpr ⟨_, mem, ih⟩

mutual

theorem uses_of_mem_comparisons : ∀ (p : Predicate), ∀ m ∈ p.comparisons, p.Uses m.column
  | compare c, m, h => .compare (by rw [List.mem_singleton.mp h])
  | all ps, m, h => by
    obtain ⟨p, mem, h⟩ := uses_of_mem_comparisonsOf ps m h
    exact .all mem h
  | any ps, m, h => by
    obtain ⟨p, mem, h⟩ := uses_of_mem_comparisonsOf ps m h
    exact .any mem h

theorem uses_of_mem_comparisonsOf : ∀ (ps : List Predicate), ∀ m ∈ comparisonsOf ps,
    ∃ p ∈ ps, p.Uses m.column
  | p :: ps, m, h => by
    obtain here | later := List.mem_append.mp h
    · exact ⟨p, List.mem_cons_self, uses_of_mem_comparisons p m here⟩
    · obtain ⟨p', mem, h⟩ := uses_of_mem_comparisonsOf ps m later
      exact ⟨p', List.mem_cons_of_mem p mem, h⟩

end

theorem uses_iff {column : String} {p : Predicate} :
    p.Uses column ↔ column ∈ p.comparisons.map (·.column) := by
  refine ⟨mem_columns_of_uses, fun h => ?_⟩
  obtain ⟨m, hm, rfl⟩ := List.mem_map.mp h
  exact uses_of_mem_comparisons p m hm

end Predicate

namespace Query

def steps (q : Query) (d : Dialect) : List Step :=
  match q.predicate with
  | some p => p.steps d
  | none => []

theorem addColumns_concat (listed : List String) (cs : List Comparison) (c : Comparison) :
    addColumns listed (cs ++ [c]) =
      if c.column ∈ addColumns listed cs then addColumns listed cs
      else addColumns listed cs ++ [c.column] :=
  List.foldl_append

/-- The names are listed without repetition in the order of their first uses. -/
structure FirstUses (used listed : List String) : Prop where
  nodup : listed.Nodup
  mem_iff : ∀ column, column ∈ listed ↔ column ∈ used
  ordered : listed.Pairwise fun a b => used.idxOf a < used.idxOf b

/-- One more use lists a name that is new, and nothing otherwise. -/
theorem FirstUses.concat {used listed : List String} (h : FirstUses used listed) (column : String) :
    FirstUses (used ++ [column]) (if column ∈ listed then listed else listed ++ [column]) := by
  -- Where a listed name is first used does not change.
  have kept : ∀ x ∈ listed, (used ++ [column]).idxOf x = used.idxOf x := fun x hx =>
    List.idxOf_append_of_mem ((h.mem_iff x).mp hx)
  have ordered : listed.Pairwise fun a b =>
      (used ++ [column]).idxOf a < (used ++ [column]).idxOf b := by
    refine h.ordered.imp_of_mem fun ha hb lt => ?_
    rwa [kept _ ha, kept _ hb]
  by_cases known : column ∈ listed
  · rw [if_pos known]
    refine ⟨h.nodup, fun x => ?_, ordered⟩
    rw [h.mem_iff, List.mem_append, List.mem_singleton]
    refine ⟨.inl, fun found => found.elim id ?_⟩
    rintro rfl
    exact (h.mem_iff x).mp known
  · rw [if_neg known]
    have fresh : column ∉ used := mt (h.mem_iff column).mpr known
    refine ⟨?_, fun x => by simp [h.mem_iff], ?_⟩
    · refine List.nodup_append.mpr ⟨h.nodup, List.nodup_singleton column, fun x hx y hy same => ?_⟩
      exact known (List.mem_singleton.mp hy ▸ same ▸ hx)
    · refine List.pairwise_append.mpr ⟨ordered, List.pairwise_singleton _ column, ?_⟩
      intro x hx y hy
      rw [List.mem_singleton.mp hy, kept x hx, List.idxOf_append_of_notMem fresh]
      have inside := List.idxOf_lt_length_of_mem ((h.mem_iff x).mp hx)
      omega

theorem firstUses_addColumns (cs : List Comparison) :
    FirstUses (cs.map (·.column)) (addColumns [] cs) := by
  induction cs using List.reverseRecOn with
  | nil => exact ⟨List.nodup_nil, fun _ => Iff.rfl, .nil⟩
  | append_singleton cs c ih =>
    rw [addColumns_concat, List.map_append]
    exact ih.concat c.column

theorem whereClause_eq_run (q : Query) (d : Dialect) :
    q.whereClause d = (Builder.start d).run (q.steps d) := by
  obtain ⟨rt, predicate⟩ := q
  cases predicate with
  | none => rfl
  | some p => exact p.write_eq_run (Builder.start d)

theorem names_steps (q : Query) (d : Dialect) :
    Step.names (q.steps d) = q.comparisons.map (·.column) := by
  obtain ⟨rt, predicate⟩ := q
  cases predicate with
  | none => rfl
  | some p => exact p.names_steps d

theorem mem_map_column_iff {q : Query} {column : String} :
    column ∈ q.comparisons.map (·.column) ↔ ∃ p, q.predicate = some p ∧ p.Uses column := by
  obtain ⟨rt, predicate⟩ := q
  cases predicate with
  | none => simp [comparisons]
  | some p => simp [comparisons, Predicate.uses_iff]

/-- The columns of a query that was compiled with a catalog are keys of the catalog. -/
theorem contains_of_compile {c : Catalog} {f : Filter} {q : Query}
    (compiled : f.compile (.ofCatalog c) = .ok q) :
    ∀ m ∈ q.comparisons, c.contains q.recordType m.column = true := by
  intro m member
  obtain ⟨b, -, becomes⟩ := (Filter.mem_comparisons_iff compiled).mp member
  obtain ⟨-, p, op, params, known, -, -, same⟩ := Condition.comparison?_eq_some_iff.mp becomes
  rw [same]
  obtain ⟨resolved, -⟩ := Condition.safe?_eq_some_iff.mp known
  obtain ⟨⟨key, type⟩, found, rfl⟩ := Option.map_eq_some_iff.mp resolved
  obtain rfl : key = Text.trim b.property := by simpa using List.find?_some found
  exact Option.isSome_iff_exists.mpr ⟨_, found⟩

end Query

/-- The columns of a query are those that its comparisons use, each once, in the order in which the
text of its condition first names them. A catalog with which it was compiled has them all. -/
theorem Query.columns_firstUses (q : Query) (d : Dialect) :
    q.whereClause d = (Builder.start d).run (q.steps d) ∧
    FirstUses (Step.names (q.steps d)) q.columns ∧
    (∀ column, column ∈ q.columns ↔ ∃ p, q.predicate = some p ∧ p.Uses column) ∧
    ∀ (c : Catalog) (f : Filter), f.compile (.ofCatalog c) = .ok q →
      ∀ column ∈ q.columns, c.contains q.recordType column = true := by
  have first : FirstUses (q.comparisons.map (·.column)) q.columns :=
    firstUses_addColumns q.comparisons
  refine ⟨q.whereClause_eq_run d, q.names_steps d ▸ first, fun column => ?_,
    fun c f compiled column mem => ?_⟩
  · rw [first.mem_iff, mem_map_column_iff]
  · obtain ⟨m, hm, rfl⟩ := List.mem_map.mp ((first.mem_iff column).mp mem)
    exact contains_of_compile compiled m hm

theorem Query.columns_firstUses_patchy :
    (Filter.patchy 18 65 "50%").compile (.ofCatalog .people) =
      .ok ⟨.contact, some (.patchy 18 65 "%50\\%%")⟩ ∧
    ∀ column ∈ ["age", "name"], Catalog.people.contains .contact column = true := by
  have compiled : (Filter.patchy 18 65 "50%").compile (.ofCatalog .people) =
      .ok ⟨.contact, some (.patchy 18 65 "%50\\%%")⟩ :=
    (Filter.agrees_patchy 18 65 "50%").sameOutcomes.compile.symm.trans rfl
  obtain ⟨-, -, -, listed⟩ :=
    columns_firstUses ⟨.contact, some (.patchy 18 65 "%50\\%%")⟩ .postgresql
  exact ⟨compiled, listed _ _ compiled⟩

end RecordFilter
