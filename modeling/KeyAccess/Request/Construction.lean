-- Constructing requests. An access path decides the kind of a request and its generated
-- expressions, the criteria add their filter, limit, projection and read consistency, and a
-- request for a count has neither limit nor projection.
import KeyAccess.AccessPath
import KeyAccess.Criteria
import KeyAccess.Request
import KeyAccess.Request.Expression

namespace KeyAccess

/-- Whether a request fetches items or counts them. -/
inductive RequestMode
  | items
  | count
  deriving DecidableEq

/-- The attributes that a request returns. -/
def RequestMode.select (mode : RequestMode) (c : Criteria) (onIndex : Bool) : Select :=
  match mode with
  | .count => .count
  | .items =>
    if c.projection.isSome then .specificAttributes
    else if onIndex then .allProjectedAttributes
    else .allAttributes

/-- The projection of a request. -/
def RequestMode.projection (mode : RequestMode) (c : Criteria) : Option String :=
  match mode with
  | .count => none
  | .items => c.projection

/-- The limit of a request. -/
def RequestMode.limit (mode : RequestMode) (c : Criteria) : Option UInt32 :=
  match mode with
  | .count => none
  | .items => c.limit

/-- The generated filter and the caller's one, joined by AND. -/
def joinedFilter (generated : Option String) (filter : Option BoundFilter) : Option String :=
  match filter, generated with
  | none, _ => generated
  | some f, some g => some (g ++ " AND (" ++ f.expression ++ ")")
  | some f, none => some f.expression

/-- The bindings of the attribute names, generated ones and the caller's. -/
def boundNames (slots : Slots) (filter : Option BoundFilter) : SortedMap String :=
  match filter with
  | none => slots.names
  | some f => slots.names.insertAll f.names.entries

/-- The bindings of the values, generated ones and the caller's. -/
def boundValues (slots : Slots) (filter : Option BoundFilter) : SortedMap AttributeValue :=
  match filter with
  | none => slots.bindings
  | some f => slots.bindings.insertAll f.values.entries

/-- An equality on a key property. -/
def pinned (schema : KeySchema) (property : String) (value : AttributeValue) :
    AttributeCondition :=
  ⟨property, schema.attributeName property, ⟨.eq, [value]⟩⟩

/-- The equalities on the primary key that a load stands for. -/
def loadConditions (schema : KeySchema) (partition : AttributeValue)
    (sort : Option AttributeValue) : List AttributeCondition :=
  pinned schema schema.partitionKey partition ::
    match schema.sortKey, sort with
    | some property, some value => [pinned schema property value]
    | _, _ => []

/-- A query with key conditions, on an index of a table if one is given. -/
def queryRequest (c : Criteria) (mode : RequestMode) (key : List AttributeCondition)
    (index : Option (String × String)) (order : Option SortOrder) : QueryRequest :=
  let (text, slots) := conjunction {} key
  { tableName := index.map Prod.fst
    indexName := index.map Prod.snd
    keyConditionExpression := text.getD ""
    filterExpression := joinedFilter none c.filter
    attributeNames := boundNames slots c.filter
    attributeValues := boundValues slots c.filter
    scanIndexForward := (order.map SortOrder.ascending).getD true
    limit := mode.limit c
    consistentRead := c.consistency.consistentRead
    projectionExpression := mode.projection c
    select := mode.select c index.isSome }

/-- A scan with filters. -/
def scanRequest (c : Criteria) (mode : RequestMode) (filters : List AttributeCondition) :
    ScanRequest :=
  let (text, slots) := conjunction {} filters
  { filterExpression := joinedFilter text c.filter
    attributeNames := boundNames slots c.filter
    attributeValues := boundValues slots c.filter
    limit := mode.limit c
    consistentRead := c.consistency.consistentRead
    projectionExpression := mode.projection c
    select := mode.select c false }

/-- The request of a path, where `indexTable` is the table that an index query names. A load cannot
carry a filter, so with a filter the same key is queried. -/
def StoreRequest.ofPath (c : Criteria) (path : AccessPath) (mode : RequestMode) (indexTable : String) :
    StoreRequest :=
  match path with
  | .directLoad partition sort =>
    match c.filter with
    | none =>
      .load {
        partitionValue := partition
        sortValue := sort
        consistentRead := c.consistency.consistentRead
        projectionExpression := c.projection }
    | some _ => .query (queryRequest c mode (loadConditions c.schema partition sort) none none)
  | .primaryQuery partition sort order =>
    .query (queryRequest c mode
      (pinned c.schema c.schema.partitionKey partition :: sort.toList) none order)
  | .indexQuery index partition sort order =>
    .query (queryRequest c mode (partition :: sort.toList) (some (indexTable, index)) order)
  | .scan filters => .scan (scanRequest c mode filters)

end KeyAccess
