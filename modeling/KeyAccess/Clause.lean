-- Clauses: what a caller asks of one property, before any value is encoded.
import KeyAccess.Schema.Attribute
import KeyAccess.Value

namespace KeyAccess

/-- The operators of clauses. -/
inductive Operator
  | eq
  | ne
  | gt
  | ge
  | lt
  | le
  | between
  | isIn
  | beginsWith
  | contains
  | notContains
  | isNull
  | isNotNull
  | isTrue
  | isFalse
  deriving DecidableEq

/-- How many values an operator takes. -/
inductive Arity
  | none
  | one
  | two
  | atLeastOne
  deriving DecidableEq

/-- Whether a number of values is allowed. -/
def Arity.allows : Arity → Nat → Bool
  | none, n => n == 0
  | one, n => n == 1
  | two, n => n == 2
  | atLeastOne, n => 1 ≤ n

namespace Operator

/-- The operators and their names. -/
def named : List (String × Operator) :=
  [("EQ", eq), ("NE", ne), ("GT", gt), ("GE", ge), ("LT", lt), ("LE", le), ("BETWEEN", between),
    ("IN", isIn), ("BEGINS_WITH", beginsWith), ("CONTAINS", contains),
    ("NOT_CONTAINS", notContains), ("IS_NULL", isNull), ("IS_NOT_NULL", isNotNull),
    ("TRUE", isTrue), ("FALSE", isFalse)]

/-- The name of an operator. -/
def name : Operator → String
  | eq => "EQ"
  | ne => "NE"
  | gt => "GT"
  | ge => "GE"
  | lt => "LT"
  | le => "LE"
  | between => "BETWEEN"
  | isIn => "IN"
  | beginsWith => "BEGINS_WITH"
  | contains => "CONTAINS"
  | notContains => "NOT_CONTAINS"
  | isNull => "IS_NULL"
  | isNotNull => "IS_NOT_NULL"
  | isTrue => "TRUE"
  | isFalse => "FALSE"

/-- How many values the operator takes. -/
def arity : Operator → Arity
  | isNull | isNotNull | isTrue | isFalse => .none
  | between => .two
  | isIn => .atLeastOne
  | eq | ne | gt | ge | lt | le | beginsWith | contains | notContains => .one

end Operator

/-- A property, an operator and the values for it. -/
structure Clause where
  property : String
  operator : Operator
  values : List ClauseValue := []
  /-- A storage type for the values, before the one that the schema declares. -/
  valueType : Option AttributeType := none

namespace Clause

/-- A clause whose operator takes one value. -/
def single (property : String) (operator : Operator) (value : ClauseValue) : Clause :=
  { property, operator, values := [value] }

/-- The property equals a value. -/
def equals (property : String) (value : ClauseValue) : Clause := single property .eq value

/-- The property lies between two values, both included. -/
def between (property : String) (low high : ClauseValue) : Clause :=
  { property, operator := .between, values := [low, high] }

/-- The property equals one of some values. -/
def isIn (property : String) (values : List ClauseValue) : Clause :=
  { property, operator := .isIn, values }

/-- The property has no value, or has one. -/
def nullCheck (property : String) (expectNull : Bool) : Clause :=
  { property, operator := if expectNull then .isNull else .isNotNull }

/-- The clause of an operator, with as many of the given values as it takes from the front; a value
that is missing is null. -/
def ofOperator (property : String) (operator : Operator) (values : List ClauseValue) : Clause :=
  let at_ (i : Nat) : ClauseValue := (values[i]?).getD .null
  match operator.arity with
  | .none => { property, operator }
  | .one => single property operator (at_ 0)
  | .two => { property, operator, values := [at_ 0, at_ 1] }
  | .atLeastOne => { property, operator, values }

/-- The clause with a storage type for its values. -/
def withType (c : Clause) (type : AttributeType) : Clause := { c with valueType := some type }

end Clause

end KeyAccess
