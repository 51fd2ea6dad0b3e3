-- Access paths: the ways in which a store can serve a query, from the cheapest to the dearest.
import KeyAccess.Comparison
import KeyAccess.Predicate

namespace KeyAccess

/-- The kinds of access paths, the cheapest first. -/
inductive PathKind
  | directLoad
  | primaryQuery
  | indexQuery
  | scan
  deriving DecidableEq

/-- The name of a kind. -/
def PathKind.name : PathKind → String
  | directLoad => "DIRECT_LOAD"
  | primaryQuery => "PRIMARY_QUERY"
  | indexQuery => "INDEX_QUERY"
  | scan => "SCAN"

/-- How a query is served. -/
inductive AccessPath
  /-- One item, by its full primary key. -/
  | directLoad (partition : AttributeValue) (sort : Option AttributeValue)
  /-- The items with a partition key, and with a condition on the sort key. -/
  | primaryQuery (partition : AttributeValue) (sort : Option AttributeCondition)
      (order : Option SortOrder)
  /-- The items that an index finds. -/
  | indexQuery (index : String) (partition : AttributeCondition)
      (sort : Option AttributeCondition) (order : Option SortOrder)
  /-- All items, with every condition as a filter. -/
  | scan (filters : List AttributeCondition)
  deriving DecidableEq

namespace AccessPath

/-- The kind of a path. -/
def kind : AccessPath → PathKind
  | directLoad _ _ => .directLoad
  | primaryQuery _ _ _ => .primaryQuery
  | indexQuery _ _ _ _ => .indexQuery
  | scan _ => .scan

/-- The index that is queried. -/
def indexName : AccessPath → Option String
  | indexQuery index _ _ _ => some index
  | directLoad _ _ | primaryQuery _ _ _ | scan _ => none

/-- The order in which the store returns the items. -/
def order : AccessPath → Option SortOrder
  | primaryQuery _ _ order | indexQuery _ _ _ order => order
  | directLoad _ _ | scan _ => none

/-- Whether all items are read. -/
def isScan : AccessPath → Bool
  | scan _ => true
  | directLoad _ _ | primaryQuery _ _ _ | indexQuery _ _ _ _ => false

end AccessPath

end KeyAccess
