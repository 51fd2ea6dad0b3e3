-- Definitions of entities: what is known of an entity once its declaration has been checked.
import KeyAccess.Config
import KeyAccess.Schema.KeySchema

namespace KeyAccess

/-- The checked schema of an entity and its query configuration. -/
structure EntityDefinition where
  schema : KeySchema
  config : QueryConfig := {}
  deriving DecidableEq

end KeyAccess
