import RecordFilter.Schema.PropertyType

/-!
# Operators

Each property type has a fixed, ordered list of operators. An operator has a key by which conditions
name it, the number of values it takes, the comparison it becomes in SQL, and for patterns the place
of the wildcards. Types that share a key agree on the number of values.
-/
namespace RecordFilter

/-- How many values an operator takes: one, a list of two, or a list of at least one. -/
inductive Arity where
  | scalar
  | pair
  | list
  deriving DecidableEq, Repr

def Arity.name : Arity → String
  | scalar => "scalar"
  | pair => "pair"
  | list => "list"

/-- A comparison of SQL. -/
inductive SqlOp where
  | eq
  | notEq
  | gt
  | lt
  | gte
  | lte
  | like
  | notLike
  | isIn
  | notIn
  | between
  deriving DecidableEq, Repr

namespace SqlOp

def symbol : SqlOp → String
  | eq => "="
  | notEq => "<>"
  | gt => ">"
  | lt => "<"
  | gte => ">="
  | lte => "<="
  | like => "LIKE"
  | notLike => "NOT LIKE"
  | isIn => "IN"
  | notIn => "NOT IN"
  | between => "BETWEEN"

/-- The name of a comparison in JSON. -/
def name : SqlOp → String
  | eq => "Eq"
  | notEq => "NotEq"
  | gt => "Gt"
  | lt => "Lt"
  | gte => "Gte"
  | lte => "Lte"
  | like => "Like"
  | notLike => "NotLike"
  | isIn => "In"
  | notIn => "NotIn"
  | between => "Between"

def all : List SqlOp := [eq, notEq, gt, lt, gte, lte, like, notLike, isIn, notIn, between]

def ofName? (s : String) : Option SqlOp := all.find? (·.name == s)

end SqlOp

/-- Where the wildcard `%` stands around a text. -/
inductive Wildcard where
  | contains
  | startsWith
  | endsWith
  deriving DecidableEq, Repr

namespace Wildcard

/-- The name of a place in JSON. -/
def name : Wildcard → String
  | contains => "contains"
  | startsWith => "startsWith"
  | endsWith => "endsWith"

def apply : Wildcard → String → String
  | contains, s => "%" ++ s ++ "%"
  | startsWith, s => s ++ "%"
  | endsWith, s => "%" ++ s

end Wildcard

structure Operator where
  key : String
  label : String
  arity : Arity
  sql : SqlOp
  wildcard : Option Wildcard := none
  deriving DecidableEq, Repr

namespace Operator

def ofText : List Operator := [
  ⟨"equals", "Equals", .scalar, .eq, none⟩,
  ⟨"contains", "Contains", .scalar, .like, some .contains⟩,
  ⟨"startsWith", "Starts with", .scalar, .like, some .startsWith⟩,
  ⟨"endsWith", "Ends with", .scalar, .like, some .endsWith⟩,
  ⟨"notContains", "Does not contain", .scalar, .notLike, some .contains⟩,
  ⟨"notStartsWith", "Does not start with", .scalar, .notLike, some .startsWith⟩,
  ⟨"notEndsWith", "Does not end with", .scalar, .notLike, some .endsWith⟩,
  ⟨"notEquals", "Does not equal", .scalar, .notEq, none⟩,
  ⟨"in", "Is any of", .list, .isIn, none⟩,
  ⟨"notIn", "Is none of", .list, .notIn, none⟩]

def ofNumber : List Operator := [
  ⟨"equals", "Equals", .scalar, .eq, none⟩,
  ⟨"greaterThan", "Greater than", .scalar, .gt, none⟩,
  ⟨"lessThan", "Less than", .scalar, .lt, none⟩,
  ⟨"lessThanOrEqual", "Less than or equal", .scalar, .lte, none⟩,
  ⟨"greaterThanOrEqual", "Greater than or equal", .scalar, .gte, none⟩,
  ⟨"between", "Between", .pair, .between, none⟩]

def ofBoolean : List Operator := [
  ⟨"is", "Is", .scalar, .eq, none⟩,
  ⟨"isNot", "Is not", .scalar, .notEq, none⟩]

def ofDate : List Operator := [
  ⟨"before", "Before", .scalar, .lt, none⟩,
  ⟨"after", "After", .scalar, .gt, none⟩,
  ⟨"between", "Between", .pair, .between, none⟩]

/-- The operators of a property type, in the order in which they are offered. -/
def ofType : PropertyType → List Operator
  | .text => ofText
  | .number => ofNumber
  | .boolean => ofBoolean
  | .date => ofDate

/-- The operator of a property type that has the key. -/
def find? (type : PropertyType) (key : String) : Option Operator :=
  (ofType type).find? (·.key == key)

/-- The arity of the operators that have the key, of whatever property type. -/
def arityOfKey? (key : String) : Option Arity :=
  ((PropertyType.all.flatMap ofType).find? (·.key == key)).map arity

/-- A key names operators of one arity only. -/
theorem arityOfKey?_key {type : PropertyType} {op : Operator} (h : op ∈ ofType type) :
    arityOfKey? op.key = some op.arity := by
  have : ∀ type, ∀ op ∈ ofType type, arityOfKey? op.key = some op.arity := by
    intro type; cases type <;> decide
  exact this type op h

end Operator

/-- The error of an operator key that the property type does not have. -/
structure OperatorNotFound where
  type : PropertyType
  key : String
  deriving DecidableEq, Repr

def OperatorNotFound.message (e : OperatorNotFound) : String :=
  "operator `" ++ e.key ++ "` is not available for " ++ e.type.name ++ " properties"

def Operator.resolve (type : PropertyType) (key : String) : Except OperatorNotFound Operator :=
  match find? type key with
  | some op => .ok op
  | none => .error ⟨type, key⟩

end RecordFilter
