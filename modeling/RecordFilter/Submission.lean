import RecordFilter.Compile.Basic
import RecordFilter.Config.Basic

/-!
# Submitting filters

A gate decides whether a filter may be submitted, lists what stands in the way, and compiles it for
submission. It has no state but its settings.
-/
namespace RecordFilter

/-- The settings that decide on submissions. -/
structure Gate where
  policy : EmptyPolicy := .matchAll
  dialect : Dialect := .postgresql
  logSubmits : Bool := false
  deriving DecidableEq, Repr

namespace Gate

def ofConfig (c : Config) : Gate := ⟨c.emptyFilter, c.dialect, c.logSubmits⟩

def accepts (gate : Gate) (f : Filter) (r : Resolver) : Bool :=
  match f.compile r with
  | .ok q => !q.isEmpty || gate.policy.allowsEmpty
  | .error _ => false

def errors (_ : Gate) (f : Filter) (r : Resolver) : List CompileError := f.diagnose r

/-- The query to submit; none for an empty filter that the policy rejects. -/
def submit (gate : Gate) (f : Filter) (r : Resolver) : Except CompileError (Option Query) :=
  match f.compile r with
  | .error e => .error e
  | .ok q => .ok (if q.isEmpty && !gate.policy.allowsEmpty then none else some q)

def acceptsEvents (_ : Gate) (f : Filter) (r : Resolver) : List Event := f.compileEvents r

def errorsEvents (_ : Gate) (f : Filter) (r : Resolver) : List Event := f.diagnoseEvents r

/-- The events of `submit`: those of compiling, and one for what is done with the query. -/
def submitEvents (gate : Gate) (f : Filter) (r : Resolver) : List Event :=
  f.compileEvents r ++ match f.compile r with
    | .error _ => []
    | .ok q =>
        if q.isEmpty && !gate.policy.allowsEmpty then [.ignoredSubmit q.recordType]
        else if gate.logSubmits then
          let b := q.select gate.dialect
          [.submitted b.sql b.params.size]
        else []

end Gate
end RecordFilter
