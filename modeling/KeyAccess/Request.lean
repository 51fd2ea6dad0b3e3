-- Requests: what is handed to a store.
import KeyAccess.SortedMap
import KeyAccess.Value

namespace KeyAccess

/-- The attributes that a query or a scan returns. -/
inductive Select
  | allAttributes
  | allProjectedAttributes
  | specificAttributes
  /-- The number of items in place of the items. -/
  | count
  deriving DecidableEq

/-- The name of a selection. -/
def Select.name : Select → String
  | allAttributes => "ALL_ATTRIBUTES"
  | allProjectedAttributes => "ALL_PROJECTED_ATTRIBUTES"
  | specificAttributes => "SPECIFIC_ATTRIBUTES"
  | count => "COUNT"

/-- Fetches one item by its full primary key. -/
structure LoadRequest where
  partitionValue : AttributeValue
  sortValue : Option AttributeValue
  consistentRead : Option Bool
  projectionExpression : Option String
  deriving DecidableEq

/-- Finds items by a key condition, on the table or on an index. -/
structure QueryRequest where
  /-- The table, stated for an index only. -/
  tableName : Option String
  indexName : Option String
  keyConditionExpression : String
  filterExpression : Option String
  attributeNames : SortedMap String
  attributeValues : SortedMap AttributeValue
  scanIndexForward : Bool
  limit : Option UInt32
  consistentRead : Option Bool
  projectionExpression : Option String
  select : Select
  deriving DecidableEq

/-- Reads all items through a filter. -/
structure ScanRequest where
  filterExpression : Option String
  attributeNames : SortedMap String
  attributeValues : SortedMap AttributeValue
  limit : Option UInt32
  consistentRead : Option Bool
  projectionExpression : Option String
  select : Select
  deriving DecidableEq

/-- Any request. -/
inductive StoreRequest
  | load (request : LoadRequest)
  | query (request : QueryRequest)
  | scan (request : ScanRequest)
  deriving DecidableEq

namespace StoreRequest

/-- The name of the kind of a request. -/
def kind : StoreRequest → String
  | load _ => "LOAD"
  | query _ => "QUERY"
  | scan _ => "SCAN"

/-- The load, if the request is one. -/
def asLoad : StoreRequest → Option LoadRequest
  | load request => some request
  | query _ | scan _ => none

/-- The query, if the request is one. -/
def asQuery : StoreRequest → Option QueryRequest
  | query request => some request
  | load _ | scan _ => none

/-- The scan, if the request is one. -/
def asScan : StoreRequest → Option ScanRequest
  | scan request => some request
  | load _ | query _ => none

end StoreRequest

end KeyAccess
