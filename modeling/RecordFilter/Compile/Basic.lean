import RecordFilter.Compile.Binding
import RecordFilter.Compile.Resolver
import RecordFilter.Event
import RecordFilter.Query.Basic

/-!
# Compiling filters

One walk over the conditions serves both `compile`, which turns a filter into a query and stops at
the first condition that is wrong, and `diagnose`, which notes the errors of all conditions.
Incomplete conditions are passed over by both. What a person typed reaches the query as bound values
only: the table is that of the record type, and columns are those of the resolver.
-/
namespace RecordFilter

/-- The error of a filter, or of one of its conditions. -/
inductive CompileError where
  | emptyRecordType
  | unknownProperty (path : Path) (property : String)
  | unknownOperator (path : Path) (property operator : String)
  | invalidValue (path : Path) (property : String) (fault : ValueFault)
  deriving DecidableEq, Repr

namespace CompileError

/-- The condition that the error is about. -/
def path? : CompileError → Option Path
  | emptyRecordType => none
  | unknownProperty path _ | unknownOperator path _ _ | invalidValue path _ _ => some path

def kind : CompileError → String
  | emptyRecordType => "empty_record_type"
  | unknownProperty _ _ => "unknown_property"
  | unknownOperator _ _ _ => "unknown_operator"
  | invalidValue _ _ _ => "invalid_value"

def message : CompileError → String
  | emptyRecordType => "filter has no record type"
  | unknownProperty path property => "unknown property `" ++ property ++ "` at " ++ path.text
  | unknownOperator path property operator =>
      "operator `" ++ operator ++ "` is not valid for property `" ++ property ++ "` at " ++
        path.text
  | invalidValue path property fault =>
      "invalid value for `" ++ property ++ "` at " ++ path.text ++ ": " ++ fault.reason

def diagnostic (e : CompileError) : Diagnostic where
  code := "tessera::compile::" ++ e.kind
  message := e.message
  help := match e with
    | emptyRecordType => some "choose a record type before adding conditions"
    | _ => none

end CompileError

/-- The metadata of a property whose column is safe to write. -/
def Resolver.safe? (r : Resolver) (rt : RecordType) (property : String) : Option ResolvedProperty :=
  (r rt property).filter fun resolved => Sql.isSafe resolved.column

/-- The comparison that a condition becomes; none if it is incomplete. -/
def Condition.compile (rt : RecordType) (r : Resolver) (path : Path) (c : Condition) :
    Except CompileError (Option Comparison) :=
  if c.isComplete then
    let property := Text.trim c.property
    let key := Text.trim c.operator
    match r.safe? rt property with
    | none => .error (.unknownProperty path property)
    | some resolved => match Operator.find? resolved.type key with
      | none => .error (.unknownOperator path property key)
      | some op => match op.bind resolved.type c.value with
        | .error fault => .error (.invalidValue path property fault)
        | .ok params => .ok (some ⟨rt, resolved.column, op.sql, params, path⟩)
  else .ok none

def Condition.events (rt : RecordType) (r : Resolver) (path : Path) (c : Condition) : List Event :=
  if c.isComplete then
    match r rt (Text.trim c.property) with
    | some resolved =>
        if Sql.isSafe resolved.column then [] else [.rejectedColumn rt resolved.column]
    | none => []
  else [.skippedCondition path]

/-- What a walk over the conditions leaves behind: its events in order, and the errors of wrong
conditions. A walk that does not note errors stops at the first one. -/
structure Trail where
  events : Array Event := #[]
  noted : Option (Array CompileError) := none

abbrev Walk := ExceptT CompileError (StateM Trail)

namespace Walk

/-- The result of a walk, and what it leaves behind. -/
def outcome {α : Type} (w : Walk α) (t : Trail) : Except CompileError α × Trail :=
  (ExceptT.run w).run t

def report (events : List Event) : Walk Unit :=
  modify fun t => { t with events := t.events ++ events }

/-- Meets a wrong condition: notes the error and goes on with nothing in its place, or stops. -/
def fault {α : Type} (e : CompileError) : Walk (Option α) := do
  let t ← get
  match t.noted with
  | some errors =>
      set { t with noted := some (errors.push e) }
      return none
  | none => throw e

end Walk

/-- Looks at the condition at a path: reports its events and compiles it. -/
def Condition.visit (rt : RecordType) (r : Resolver) (path : Path) (c : Condition) :
    Walk (Option Comparison) := do
  Walk.report (c.events rt r path)
  match c.compile rt r path with
  | .ok comparison => return comparison
  | .error e => Walk.fault e

/-- Walks over subgroup `s` of group `g`; the predicate asks for all of its conditions. -/
def SubGroup.walk (rt : RecordType) (r : Resolver) (g s : Nat) (sub : SubGroup) :
    Walk (Option Predicate) := do
  let comparisons ← sub.conditions.zipIdx.mapM fun (condition, c) =>
    condition.visit rt r ⟨g, s, c⟩
  return Predicate.conj ((comparisons.filterMap id).map .compare)

/-- Walks over group `g`; the predicate asks for one of its subgroups. -/
def Group.walk (rt : RecordType) (r : Resolver) (g : Nat) (group : Group) :
    Walk (Option Predicate) := do
  let parts ← group.subGroups.zipIdx.mapM fun (sub, s) => sub.walk rt r g s
  return Predicate.disj (parts.filterMap id)

namespace Filter

/-- Walks over the whole filter; the predicate asks for all of its groups. -/
def walk (f : Filter) (rt : RecordType) (r : Resolver) : Walk (Option Predicate) := do
  let parts ← f.groups.zipIdx.mapM fun (group, g) => group.walk rt r g
  return Predicate.conj (parts.filterMap id)

/-- The query of a filter or the first error, and the events of the walk. -/
def compileRun (f : Filter) (r : Resolver) : Except CompileError Query × List Event :=
  match f.recordType with
  | none => (.error .emptyRecordType, [])
  | some rt =>
      match (f.walk rt r).outcome {} with
      | (.ok predicate, t) =>
          let q : Query := ⟨rt, predicate⟩
          (.ok q, t.events.toList ++ [.compiled rt q.predicateCount q.paramCount])
      | (.error e, t) => (.error e, t.events.toList)

/-- The query of a filter, or the first error. -/
def compile (f : Filter) (r : Resolver) : Except CompileError Query := (f.compileRun r).1

def compileEvents (f : Filter) (r : Resolver) : List Event := (f.compileRun r).2

/-- All errors of a filter, and the events of the walk that notes them. -/
def diagnoseRun (f : Filter) (r : Resolver) : List CompileError × List Event :=
  match f.recordType with
  | none => ([.emptyRecordType], [])
  | some rt =>
      let t := ((f.walk rt r).outcome { noted := some #[] }).2
      ((t.noted.getD #[]).toList, t.events.toList)

/-- All errors of a filter, in the order of its conditions. -/
def diagnose (f : Filter) (r : Resolver) : List CompileError := (f.diagnoseRun r).1

def diagnoseEvents (f : Filter) (r : Resolver) : List Event := (f.diagnoseRun r).2

end Filter
end RecordFilter
