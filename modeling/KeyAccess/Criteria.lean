-- Criteria: everything that one query asks. Clauses become conditions as they arrive and stand in
-- three places: an equality on the partition key, the first condition on the sort key, and all
-- others by property.
import KeyAccess.Criteria.Filter
import KeyAccess.Predicate
import KeyAccess.Schema.Definition

namespace KeyAccess

/-- What one query asks of an entity. -/
structure Criteria where
  schema : KeySchema
  converters : ConverterRegistry := {}
  config : QueryConfig := {}
  partitionEquality : Option AttributeCondition := none
  sortCondition : Option AttributeCondition := none
  /-- The other conditions, by property and in the order of their arrival. -/
  otherConditions : SortedMap (List AttributeCondition) := ∅
  sort : List SortOrder := []
  limit : Option UInt32 := none
  projection : Option String := none
  /-- A read consistency in place of the configured one. -/
  consistencyOverride : Option ConsistencyMode := none
  filter : Option BoundFilter := none
  shape : ResultShape := .list

namespace Criteria

/-- Empty criteria for an entity, with its configuration. -/
def ofEntity (d : EntityDefinition) : Criteria := { schema := d.schema, config := d.config }

/-! ## Reading -/

/-- What the encoding of values depends on. -/
def context (c : Criteria) : EncodingContext := ⟨c.schema, c.converters⟩

/-- Every condition: the partition equality, the sort condition, then the others. -/
def allConditions (c : Criteria) : List AttributeCondition :=
  c.partitionEquality.toList ++ c.sortCondition.toList ++ c.otherConditions.values.flatten

/-- The conditions of each property, ascending by property. -/
def conditionsByProperty (c : Criteria) : SortedMap (List AttributeCondition) :=
  c.allConditions.foldl (fun m a => m.update a.property [] (· ++ [a])) ∅

/-- The read consistency in force. -/
def consistency (c : Criteria) : ConsistencyMode :=
  c.consistencyOverride.getD c.config.consistency

/-! ## Clauses -/

/-- Puts a condition on a property into its place. -/
def place (c : Criteria) (property : String) (condition : Condition) : Except QueryError Criteria :=
  let placed : AttributeCondition := ⟨property, c.schema.attributeName property, condition⟩
  if c.schema.isPartitionKey property && condition.isEquality then
    if c.partitionEquality.isSome then
      .error (.unsupportedOperation (.secondPartitionEquality property))
    else .ok { c with partitionEquality := some placed }
  else if c.schema.isSortKey property && c.sortCondition.isNone then
    .ok { c with sortCondition := some placed }
  else
    .ok { c with otherConditions := c.otherConditions.update property [] (· ++ [placed]) }

/-- Adds a clause. -/
def withClause (c : Criteria) (clause : Clause) : Except QueryError Criteria := do
  c.place clause.property (← c.context.conditionOf clause)

/-- Adds clauses one after the other. -/
def withClauses (c : Criteria) (clauses : List Clause) : Except QueryError Criteria :=
  clauses.foldlM withClause c

/-- Adds an equality. -/
def withEquality (c : Criteria) (property : String) (value : ClauseValue) :
    Except QueryError Criteria :=
  c.withClause (.equals property value)

/-- Adds a comparison with one value. -/
def withRange (c : Criteria) (property : String) (operator : Operator) (value : ClauseValue) :
    Except QueryError Criteria :=
  if operator.arity ≠ .one then .error (.unsupportedOperation (.notSingleValued operator))
  else c.withClause (.single property operator value)

/-- Adds a range with both ends. -/
def withBetween (c : Criteria) (property : String) (low high : ClauseValue) :
    Except QueryError Criteria :=
  c.withClause (.between property low high)

/-- Adds a membership. -/
def withMembership (c : Criteria) (property : String) (values : List ClauseValue) :
    Except QueryError Criteria :=
  c.withClause (.isIn property values)

/-- Adds a null check. -/
def withNullCheck (c : Criteria) (property : String) (expectNull : Bool) :
    Except QueryError Criteria :=
  c.withClause (.nullCheck property expectNull)

/-- Adds a predicate; alternatives are not supported. -/
def withPredicate (c : Criteria) (p : Predicate) : Except QueryError Criteria := do
  if p.hasOr then throw (.unsupportedOperation .disjunction)
  let c ← c.withClauses p.orParts.flatten
  return { c with
    sort := c.sort ++ p.sort
    limit := p.limit.or c.limit
    shape := p.shape }

/-- The criteria of a predicate. -/
def ofPredicate (schema : KeySchema) (p : Predicate) : Except QueryError Criteria :=
  withPredicate { schema } p

/-! ## Everything else -/

/-- Adds a raw filter. There can be only one. -/
def withFilter (c : Criteria) (filter : RawFilter) : Except QueryError Criteria := do
  if c.filter.isSome then throw (.invalidFilter .alreadySet)
  return { c with filter := some (← filter.bind c.context) }

/-- Adds a sort order. -/
def withSort (c : Criteria) (order : SortOrder) : Criteria :=
  { c with sort := c.sort ++ [order] }

/-- Sets the limit. -/
def withLimit (c : Criteria) (limit : UInt32) : Criteria := { c with limit := some limit }

/-- Sets the read consistency. -/
def withConsistency (c : Criteria) (mode : ConsistencyMode) : Criteria :=
  { c with consistencyOverride := some mode }

/-- Sets the projection. -/
def withProjection (c : Criteria) (projection : String) : Criteria :=
  { c with projection := some projection }

/-- Sets the configuration. -/
def withConfig (c : Criteria) (config : QueryConfig) : Criteria := { c with config }

/-- Sets the scan policy. -/
def withScanPolicy (c : Criteria) (policy : ScanPolicy) : Criteria :=
  { c with config := { c.config with scan := policy } }

/-- Sets the converters, for clauses that are added from then on. -/
def withConverters (c : Criteria) (converters : ConverterRegistry) : Criteria :=
  { c with converters }

/-- Sets the shape of the result. -/
def withShape (c : Criteria) (shape : ResultShape) : Criteria := { c with shape }

end Criteria

end KeyAccess
