-- Built queries. Building chooses the access path and assembles the request; the store is called
-- when the query is used, once for each use.
import KeyAccess.AccessPath.Explanation
import KeyAccess.AccessPath.Selection
import KeyAccess.Request.Construction
import KeyAccess.Results.Shaped
import KeyAccess.Store

namespace KeyAccess

/-! ## Choosing -/

/-- The events of a choice. -/
def selectionEvents (schema : KeySchema) (path : AccessPath) : List EventRecord :=
  let fallback : List EventRecord := match path with
    | .scan (first :: rest) =>
      [⟨.scanFallback,
        [("entity", schema.entity), ("filters", toString (first :: rest).length)]⟩]
    | _ => []
  fallback ++
    [⟨.accessPathSelected,
      [("entity", schema.entity), ("index", path.indexName.getD "-"), ("path", path.kind.name)]⟩]

namespace Criteria

variable {α : Type}

/-- Chooses the access path as another schema of the entity would have it. -/
def accessPathIn (c : Criteria) (schema : KeySchema) : Traced α QueryError AccessPath :=
  match AccessPath.select schema c with
  | .ok path => ⟨(selectionEvents schema path).map .event, .ok path⟩
  | .error e => .fail e

/-- Chooses the access path. -/
def accessPath (c : Criteria) : Traced α QueryError AccessPath := c.accessPathIn c.schema

/-- Explains which access path is chosen, or why there is none. -/
def explain (c : Criteria) : Traced α QueryError Explanation :=
  let chosen : Traced α QueryError AccessPath := c.accessPath
  ⟨chosen.effects, match chosen.outcome with
    | .ok path => .ok (.ofPath path)
    | .error e => .ok (.ofError e)⟩

end Criteria

/-! ## Building -/

/-- A query for the items that match. -/
structure Query (α : Type) where
  store : Store α
  schema : KeySchema
  path : AccessPath
  request : StoreRequest
  shape : ResultShape

/-- A query for the number of items that match. -/
structure CountQuery (α : Type) where
  store : Store α
  schema : KeySchema
  request : StoreRequest
  /-- Whether the count may supply the total of a page. -/
  servesPages : Bool

namespace Criteria

variable {α : Type}

/-- Assembles the request of a path. Only an index query names its table. -/
def requestFor (c : Criteria) (store : Store α) (path : AccessPath) (mode : RequestMode) :
    Traced α QueryError StoreRequest :=
  match path with
  | .indexQuery _ _ _ _ => do return StoreRequest.ofPath c path mode (← store.askTableName c.schema)
  | .directLoad _ _ | .primaryQuery _ _ _ | .scan _ =>
    return StoreRequest.ofPath c path mode c.schema.tableName

/-- Builds the query for the items. -/
def buildQuery (c : Criteria) (store : Store α) : Traced α QueryError (Query α) := do
  let path ← c.accessPath
  let request ← c.requestFor store path .items
  return ⟨store, c.schema, path, request, c.shape⟩

/-- Builds the query for the count. The count of a page may need a scan only if that is allowed. -/
def buildCountQuery (c : Criteria) (store : Store α) (paged : Bool) :
    Traced α QueryError (CountQuery α) := do
  let path ← c.accessPath
  let servesPages := !path.isScan || c.config.scan.countEnabled
  if path.isScan then
    if paged && !servesPages then
      Traced.fail (.unsupportedOperation (.scanCountDisabled c.schema.entity))
    Traced.log .countViaScan [("entity", c.schema.entity)]
  let request ← c.requestFor store path .count
  return ⟨store, c.schema, request, servesPages⟩

end Criteria

/-! ## Using -/

namespace CountQuery

variable {α : Type}

/-- Asks the store for the count. A load counts as 0 or 1. -/
def count (q : CountQuery α) : Traced α QueryError UInt64 :=
  match q.request with
  | .load request => do
    let item ← q.store.askLoad q.schema request
    return if item.isSome then 1 else 0
  | .query _ | .scan _ => q.store.askCount q.schema q.request

end CountQuery

namespace Query

variable {α : Type}

/-- Asks the store for the items. -/
def ask (q : Query α) : Traced α QueryError (Results α) :=
  match q.request with
  | .load request => do return .ofOption (← q.store.askLoad q.schema request)
  | .query request => q.store.askQuery q.schema request
  | .scan request => q.store.askScan q.schema request

/-- Asks the store for the items and reports that it answered. -/
def execute (q : Query α) : Traced α QueryError (ShapedResults α) := do
  let results ← q.ask
  Traced.log .queryExecuted
    [("entity", q.schema.entity), ("path", q.path.kind.name), ("request", q.request.kind)]
  return ⟨results, q.shape⟩

/-- The single entity. -/
def singleResult (q : Query α) : Traced α QueryError (Option α) := do
  (← q.execute).singleResult

/-- The list of results. -/
def resultList (q : Query α) : Traced α QueryError (Results α) := do
  (← q.execute).resultList

/-- Whether there is a result. -/
def exists? (q : Query α) : Traced α QueryError Bool := do
  (← q.execute).exists?

/-- A slice of the results, whose total comes from `count`. A count that would scan without leave
is refused before the store is called. -/
def page (q : Query α) (count : CountQuery α) (pageable : Pageable) :
    Traced α QueryError (Page α) :=
  if pageable.isPaged && !count.servesPages then
    .fail (.unsupportedOperation (.scanCountDisabled q.schema.entity))
  else do (← q.execute).page pageable count.count

/-- Deletes the single entity. -/
def delete (q : Query α) : Traced α QueryError α := do
  match ← q.singleResult with
  | some entity =>
    q.store.askDelete q.schema entity
    return entity
  | none => .fail (.emptyResult 1)

end Query

end KeyAccess
