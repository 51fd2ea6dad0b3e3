-- Comparisons in the store's own terms: an operator and the encoded values that it takes.
import KeyAccess.Value

namespace KeyAccess

/-- The comparison operators of a store. -/
inductive ComparisonOperator
  | eq
  | ne
  | le
  | lt
  | ge
  | gt
  | notNull
  | null
  | contains
  | notContains
  | beginsWith
  | isIn
  | between
  deriving DecidableEq

namespace ComparisonOperator

/-- The operators and their names. -/
def named : List (String × ComparisonOperator) :=
  [("EQ", eq), ("NE", ne), ("LE", le), ("LT", lt), ("GE", ge), ("GT", gt), ("NOT_NULL", notNull),
    ("NULL", null), ("CONTAINS", contains), ("NOT_CONTAINS", notContains),
    ("BEGINS_WITH", beginsWith), ("IN", isIn), ("BETWEEN", between)]

/-- The name of an operator. -/
def name : ComparisonOperator → String
  | eq => "EQ"
  | ne => "NE"
  | le => "LE"
  | lt => "LT"
  | ge => "GE"
  | gt => "GT"
  | notNull => "NOT_NULL"
  | null => "NULL"
  | contains => "CONTAINS"
  | notContains => "NOT_CONTAINS"
  | beginsWith => "BEGINS_WITH"
  | isIn => "IN"
  | between => "BETWEEN"

/-- Whether a key condition may use the operator. The others need a filter. -/
def isQueryLegal : ComparisonOperator → Bool
  | eq | le | lt | ge | gt | beginsWith | between => true
  | ne | notNull | null | contains | notContains | isIn => false

end ComparisonOperator

/-- An operator and the values that it compares with. -/
structure Condition where
  operator : ComparisonOperator
  values : List AttributeValue
  deriving DecidableEq

namespace Condition

/-- Whether the condition is an equality. -/
def isEquality (c : Condition) : Bool := c.operator == .eq

/-- Whether the condition may stand on a sort key in a key condition. -/
def isQueryLegal (c : Condition) : Bool := c.operator.isQueryLegal

/-- The compared value, if there is exactly one. -/
def singleValue : Condition → Option AttributeValue
  | ⟨_, [value]⟩ => some value
  | _ => none

end Condition

/-- A condition on a property and the attribute that holds it. -/
structure AttributeCondition where
  property : String
  attributeName : String
  condition : Condition
  deriving DecidableEq

namespace AttributeCondition

/-- The operator of the condition. -/
def operator (c : AttributeCondition) : ComparisonOperator := c.condition.operator

/-- The written form of a condition: property, operator and values. -/
def text (c : AttributeCondition) : String :=
  String.intercalate " "
    (c.property :: c.condition.operator.name :: c.condition.values.map AttributeValue.text)

end AttributeCondition

end KeyAccess
