-- Key schemas. The schema of an entity answers what role a property plays in the primary key and
-- in each index, and which attribute holds it.
import KeyAccess.Schema.Attribute
import KeyAccess.Schema.Index
import KeyAccess.SortedMap

namespace KeyAccess

/-- The shape of a primary key. -/
inductive KeyShape
  | partitionOnly (partition : String)
  | partitionAndSort (partition sort : String)
  deriving DecidableEq

namespace KeyShape

/-- The partition key property. -/
def partition : KeyShape → String
  | partitionOnly p => p
  | partitionAndSort p _ => p

/-- The sort key property of a composite key. -/
def sort : KeyShape → Option String
  | partitionOnly _ => none
  | partitionAndSort _ s => some s

end KeyShape

/-- The key metadata of an entity. -/
structure KeySchema where
  entity : String
  /-- The name of the table; a store may have another one for it. -/
  tableName : String
  shape : KeyShape
  properties : SortedMap PropertyDef
  /-- The indexes in the order of their declaration. -/
  indexes : List IndexDefinition
  /-- For each index member, the indexes that it is in and its role there, in the order of their
  declaration. -/
  memberships : SortedMap (List (String × KeyRole))
  deriving DecidableEq

namespace KeySchema

/-- The partition key property. -/
def partitionKey (s : KeySchema) : String := s.shape.partition

/-- The sort key property, if the key is composite. -/
def sortKey (s : KeySchema) : Option String := s.shape.sort

/-- Whether a property is the partition key. -/
def isPartitionKey (s : KeySchema) (property : String) : Bool := s.shape.partition == property

/-- Whether a property is the sort key. -/
def isSortKey (s : KeySchema) (property : String) : Bool := s.shape.sort == some property

/-- The attribute that holds a property. -/
def attributeName (s : KeySchema) (property : String) : String :=
  ((s.properties.get? property).bind PropertyDef.attributeName).getD property

/-- The declared storage type of a property. -/
def attributeType (s : KeySchema) (property : String) : Option AttributeType :=
  (s.properties.get? property).bind PropertyDef.attributeType

/-- The index with a name. -/
def index? (s : KeySchema) (name : String) : Option IndexDefinition :=
  s.indexes.find? (fun i => i.name == name)

/-- The names of the indexes that a property is in, in the order of their declaration. -/
def indexNamesFor (s : KeySchema) (property : String) : List String :=
  ((s.memberships.get? property).getD []).map Prod.fst

/-- The role of a property in the index with a name. -/
def indexRole (s : KeySchema) (index property : String) : Option KeyRole :=
  (((s.memberships.get? property).getD []).find? (fun m => m.1 == index)).map Prod.snd

/-- Whether a property is in an index. -/
def isIndexMember (s : KeySchema) (property : String) : Bool := s.memberships.contains property

end KeySchema

end KeyAccess
