-- Attributes: the storage types that a property can be declared with, and what a declaration
-- overrides.

namespace KeyAccess

/-- The declared storage type of a property. -/
inductive AttributeType
  | string
  | number
  /-- Stored as the number 1 or 0. -/
  | boolean
  /-- Stored as the written form of an instant in UTC. -/
  | temporal
  /-- Encoded by a converter that is registered for the property. -/
  | custom
  deriving DecidableEq

namespace AttributeType

/-- The types and their names. -/
def named : List (String × AttributeType) :=
  [("string", string), ("number", number), ("boolean", boolean), ("temporal", temporal),
    ("custom", custom)]

/-- The name of a type. -/
def name : AttributeType → String
  | string => "string"
  | number => "number"
  | boolean => "boolean"
  | temporal => "temporal"
  | custom => "custom"

end AttributeType

/-- What is declared of one property. -/
structure PropertyDef where
  /-- The attribute that holds the property; without one it has the property's name. -/
  attributeName : Option String := none
  /-- The storage type; without one it follows from each value. -/
  attributeType : Option AttributeType := none
  deriving DecidableEq

end KeyAccess
