-- Stores. A store answers requests; all that lies behind its answers is its own affair.
import KeyAccess.Results

namespace KeyAccess

/-- How a store answers, over entities of a type. -/
structure Store (α : Type) where
  /-- Fetches one item by its full primary key. -/
  load : KeySchema → LoadRequest → Except StoreError (Option α)
  /-- Finds items by a key condition. -/
  query : KeySchema → QueryRequest → Except StoreError (Results α)
  /-- Reads all items through a filter. -/
  scan : KeySchema → ScanRequest → Except StoreError (Results α)
  /-- Counts the items that a query or a scan matches. -/
  count : KeySchema → StoreRequest → Except StoreError UInt64
  delete : KeySchema → α → Except StoreError Unit
  /-- The table that an index query names, from the name in the schema. -/
  tableName : KeySchema → String → String := fun _ default => default

namespace Store

variable {α β : Type}

/-- A call and its answer. -/
def calling (call : StoreCall α) (answer : Except StoreError β) : Traced α QueryError β := do
  .emit (.call call)
  .mapFailure .store (.ofExcept answer)

/-- Asks the store for an item. -/
def askLoad (s : Store α) (schema : KeySchema) (request : LoadRequest) :
    Traced α QueryError (Option α) :=
  calling (.load schema request) (s.load schema request)

/-- Asks the store for the items of a query. -/
def askQuery (s : Store α) (schema : KeySchema) (request : QueryRequest) :
    Traced α QueryError (Results α) :=
  calling (.query schema request) (s.query schema request)

/-- Asks the store for the items of a scan. -/
def askScan (s : Store α) (schema : KeySchema) (request : ScanRequest) :
    Traced α QueryError (Results α) :=
  calling (.scan schema request) (s.scan schema request)

/-- Asks the store for a count. -/
def askCount (s : Store α) (schema : KeySchema) (request : StoreRequest) :
    Traced α QueryError UInt64 :=
  calling (.count schema request) (s.count schema request)

/-- Asks the store to delete an entity. -/
def askDelete (s : Store α) (schema : KeySchema) (entity : α) : Traced α QueryError Unit :=
  calling (.delete schema entity) (s.delete schema entity)

/-- Asks the store which table an index query names. -/
def askTableName (s : Store α) (schema : KeySchema) : Traced α QueryError String := do
  .emit (.call (.tableName schema schema.tableName))
  return s.tableName schema schema.tableName

end Store

end KeyAccess
