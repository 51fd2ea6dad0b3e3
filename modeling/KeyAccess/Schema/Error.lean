-- What can be wrong with the declaration of an entity.

namespace KeyAccess

/-- A declaration that cannot be used to plan queries. -/
inductive SchemaError
  | missingPartitionKey (entity : String)
  | sortKeyIsPartitionKey (entity property : String)
  | emptyIndexName (entity : String)
  | duplicateIndex (entity index : String)
  | indexWithoutPartition (entity index : String)
  | indexKeyCollision (entity index property : String)
  | attributeNameCollision (entity first second held : String)
  | duplicateEntity (entity : String)
  /-- A source of declarations that cannot be read. -/
  | malformed (source reason : String)
  deriving DecidableEq

/-- The wording of the error. -/
def SchemaError.message : SchemaError → String
  | missingPartitionKey entity => s!"entity '{entity}' declares no partition key"
  | sortKeyIsPartitionKey entity property =>
    s!"entity '{entity}': sort key '{property}' is also the partition key"
  | emptyIndexName entity => s!"entity '{entity}': index name must not be empty"
  | duplicateIndex entity index =>
    s!"entity '{entity}': index '{index}' is declared more than once"
  | indexWithoutPartition entity index =>
    s!"entity '{entity}': index '{index}' has no partition member"
  | indexKeyCollision entity index property =>
    s!"entity '{entity}': index '{index}' uses '{property}' as both partition and sort member"
  | attributeNameCollision entity first second held =>
    s!"entity '{entity}': properties '{first}' and '{second}' both map to attribute '{held}'"
  | duplicateEntity entity => s!"entity '{entity}' is defined more than once"
  | malformed source reason => s!"malformed schema '{source}': {reason}"

end KeyAccess
