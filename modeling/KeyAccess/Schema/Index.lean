-- Secondary indexes. An index has a partition member and may have a sort member.

namespace KeyAccess

/-- The role of a property in a key. -/
inductive KeyRole
  | partition
  | sort
  deriving DecidableEq

/-- The name of a role. -/
def KeyRole.name : KeyRole → String
  | partition => "PARTITION"
  | sort => "SORT"

/-- A secondary index over the items of an entity. -/
structure IndexDefinition where
  name : String
  /-- The property that is the partition key of the index. -/
  partition : String
  /-- The property that is the sort key of the index. -/
  sort : Option String := none
  deriving DecidableEq

namespace IndexDefinition

/-- The member properties, the partition member first. -/
def members (i : IndexDefinition) : List String := i.partition :: i.sort.toList

/-- The role of a property in the index. -/
def roleOf (i : IndexDefinition) (property : String) : Option KeyRole :=
  if i.partition = property then some .partition
  else if i.sort = some property then some .sort
  else none

end IndexDefinition

end KeyAccess
