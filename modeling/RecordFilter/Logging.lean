import RecordFilter.Config.Expansion
import RecordFilter.Event
import RecordFilter.Text.Lowercase

/-!
# Logging settings

The level, the format and the debugging switch are taken from the environment. Settings that are
absent or unknown have a default.
-/
namespace RecordFilter.Logging

/-- A setting in lowercase. -/
def setting? (env : Environment) (name : String) : Option String :=
  (env name).map Text.lowercase

def debugging (env : Environment) : Bool :=
  (setting? env "TESSERA_DEBUG").any (["true", "1", "yes"].contains ·)

/-- The least weight of the events to report; by default `debug` while debugging is on, else
`warn`. -/
def level (env : Environment) : Level :=
  let named (s : String) : Option Level :=
    [Level.trace, .debug, .info, .warn, .error].find? (·.name == s)
  ((setting? env "TESSERA_LOG_LEVEL").bind named).getD (if debugging env then .debug else .warn)

inductive Format where
  | json
  | pretty
  | compact
  deriving DecidableEq, Repr

def Format.name : Format → String
  | json => "json"
  | pretty => "pretty"
  | compact => "compact"

/-- The format of the environment; by default JSON. -/
def format (env : Environment) : Format :=
  match setting? env "TESSERA_LOG_FORMAT" with
  | some "pretty" => .pretty
  | some "compact" => .compact
  | _ => .json

/-- The events that are reported, some of them only while debugging is on. -/
def reported (env : Environment) (events : List Event) : List Event :=
  if debugging env then events else events.filter (!·.debugOnly)

end RecordFilter.Logging
