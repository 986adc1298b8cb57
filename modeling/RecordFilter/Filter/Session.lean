import RecordFilter.Filter.Edit

/-!
# Editing sessions

A session holds the filter being edited and the filters before it, the latest first. Undoing drops
the latest successful change; a change that fails leaves the session as it was.
-/
namespace RecordFilter

/-- The filter being edited and its past. -/
structure Session where
  current : Filter := .blank
  past : List Filter := []

namespace Session

/-- Makes `f` the current filter. -/
def advance (s : Session) (f : Filter) : Session := ⟨f, s.current :: s.past⟩

/-- Applies a change that may fail. -/
def change {ε : Type} (s : Session) (result : Except ε Filter) : Session :=
  match result with
  | .ok f => s.advance f
  | .error _ => s

/-- Applies an edit; if it fails nothing changes. -/
def edit (s : Session) (e : Edit) : Session := s.change (e.apply s.current)

/-- Drops the latest change, if there is one. -/
def undo (s : Session) : Session :=
  match s.past with
  | [] => s
  | f :: past => ⟨f, past⟩

end Session
end RecordFilter
