import RecordFilter.Config.EmptyPolicy
import RecordFilter.Config.Expansion
import RecordFilter.Diagnostic
import RecordFilter.Json.Printer
import RecordFilter.Json.Reader
import RecordFilter.Sql.Dialect
import RecordFilter.Toml.Reader

/-!
# Configuration

The settings stand in three sections: `compiler`, `metadata` and `debug`. Every section and every
setting has a default, and nothing else may occur. Settings are read from TOML, where a section may
also be an array of its settings in order, and from JSON.
-/
namespace RecordFilter

structure Config where
  dialect : Dialect := .postgresql
  emptyFilter : EmptyPolicy := .matchAll
  pageSize : UInt32 := 100
  logSubmits : Bool := false
  deriving DecidableEq, Repr

namespace Config

/-- The error of loading a configuration. -/
inductive Fault where
  | unreadable (path : String)
  | malformed
  | emptyPages
  deriving DecidableEq, Repr

def Fault.diagnostic : Fault → Diagnostic
  | unreadable path => {
      code := "tessera::schema::io_error"
      message := "failed to read file: " ++ path }
  | malformed => {
      code := "tessera::schema::toml_error"
      message := "failed to parse TOML" }
  | emptyPages => {
      code := "tessera::schema::config_error"
      message := "configuration error: metadata.page_size must be at least 1" }

/-- Whether the settings make sense: a page holds something. -/
def isValid (c : Config) : Bool := c.pageSize != 0

def toJson (c : Config) : Json :=
  .object [
    ("compiler", .object [
      ("dialect", .text c.dialect.name),
      ("empty_filter", .text c.emptyFilter.name)]),
    ("metadata", .object [("page_size", .number (.natural c.pageSize.toUInt64))]),
    ("debug", .object [("log_compiles", .bool c.logSubmits)])]

def toText (c : Config) : String := c.toJson.render

/-- The number of 32 bits that an integer is. -/
def word? (i : Int) : Option UInt32 :=
  if 0 ≤ i ∧ i.toNat < UInt32.size then some (UInt32.ofNat i.toNat) else none

/-- The settings of one form of text: how to read the fields of a section, and each kind of
setting. -/
structure Source (α : Type) where
  fields? : List String → α → Option (List (Option α))
  name? : α → Option String
  word? : α → Option UInt32
  flag? : α → Option Bool

/-- The setting that a field holds, the default where the field is absent. -/
def setting {α β : Type} (read : α → Option β) (default : β) : Option α → Option β
  | some a => read a
  | none => some default

def Source.compiler {α : Type} (src : Source α) (c : Config) (a : α) : Option Config := do
  match ← src.fields? ["dialect", "empty_filter"] a with
  | [dialect, emptyFilter] =>
      let dialect? a := (src.name? a).bind Dialect.ofExactName?
      let policy? a := (src.name? a).bind EmptyPolicy.ofExactName?
      let dialect ← setting dialect? c.dialect dialect
      let emptyFilter ← setting policy? c.emptyFilter emptyFilter
      return { c with dialect, emptyFilter }
  | _ => none

def Source.metadata {α : Type} (src : Source α) (c : Config) (a : α) : Option Config := do
  match ← src.fields? ["page_size"] a with
  | [pageSize] => return { c with pageSize := ← setting src.word? c.pageSize pageSize }
  | _ => none

def Source.debug {α : Type} (src : Source α) (c : Config) (a : α) : Option Config := do
  match ← src.fields? ["log_compiles"] a with
  | [logSubmits] => return { c with logSubmits := ← setting src.flag? c.logSubmits logSubmits }
  | _ => none

def Source.config {α : Type} (src : Source α) (a : α) : Option Config := do
  match ← src.fields? ["compiler", "metadata", "debug"] a with
  | [compiler, metadata, debug] =>
      let c : Config := {}
      let c ← setting (src.compiler c) c compiler
      let c ← setting (src.metadata c) c metadata
      setting (src.debug c) c debug
  | _ => none

def ofJson : Source Json.Document where
  fields? := Json.Document.closedRecord?
  name? := Json.Document.name?
  word? d := d.natural?.bind fun n => Config.word? n
  flag? d := match d with
    | .bool b => some b
    | _ => none

/-- Whether a node stands for the content of an alternative without content. -/
def isUnit : Toml.Node → Bool
  | .array [] | .tables [] | .table _ [] => true
  | _ => false

/-- The name of an alternative in TOML: a text, or a table whose only key it is. -/
def nodeName? : Toml.Node → Option String
  | .text s => some s
  | .table _ [(key, node)] => if isUnit node then some key else none
  | _ => none

/-- The settings `names` of a section in TOML: a table of nothing else, or an array of them in
order, of which what is left over does not count. -/
def nodeFields? (names : List String) : Toml.Node → Option (List (Option Toml.Node))
  | .table _ es =>
      if es.all (names.contains ·.1) then some (names.map (Toml.Entries.find? es)) else none
  | .array items => some (names.zipIdx.map fun (_, i) => items[i]?)
  | .tables elements =>
      some (names.zipIdx.map fun (_, i) => elements[i]?.map (Toml.Node.table .header))
  | _ => none

def ofToml : Source Toml.Node where
  fields? := nodeFields?
  name? := nodeName?
  word? node := match node with
    | .integer i => Config.word? i
    | _ => none
  flag? node := match node with
    | .boolean b => some b
    | _ => none

/-- The settings of a JSON text, whether they make sense or not. -/
def ofJsonText? (s : String) : Option Config :=
  (Json.Document.read? s).bind ofJson.config

/-- The settings of a configuration text. Variables are put in first, then the text is read, and at
last the settings are checked. -/
def ofText (env : Environment) (s : String) : Except Fault Config :=
  match (Toml.read? (expand env s)).bind fun es => ofToml.config (.table .header es) with
  | none => .error .malformed
  | some c => if c.isValid then .ok c else .error .emptyPages

/-- The settings of the file at a path, given what it holds if it can be read. -/
def ofFile (env : Environment) (path : String) (content : Option ByteArray) : Except Fault Config :=
  match content.bind String.fromUTF8? with
  | none => .error (.unreadable path)
  | some s => ofText env s

end Config
end RecordFilter
