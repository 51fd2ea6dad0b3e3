-- Shaping results: reducing a list to what the caller expects. Each reduction is one pass at most
-- and pulls no more than it needs.
import KeyAccess.Predicate
import KeyAccess.Results
import KeyAccess.Results.Page

namespace KeyAccess

/-- A list of results and the shape that the caller expects. -/
structure ShapedResults (α : Type) where
  results : Results α
  shape : ResultShape

namespace ShapedResults

variable {α : Type}

/-- The single entity: none if there is no result, and a fault if there is more than one. -/
def singleResult (s : ShapedResults α) : Traced α QueryError (Option α) := do
  let r := s.results
  match ← r.start with
  | [] => return none
  | first :: rest =>
    r.pull
    let entity ← Traced.mapFailure .store (.ofExcept first)
    match rest with
    | [] => return some entity
    | second :: rest =>
      let others ← Traced.mapFailure .store (r.drain (second :: rest))
      .fail (.incorrectResultSize 1 (1 + others.length))

/-- The list of results; for a shape of a single entity, the list of that entity. -/
def resultList (s : ShapedResults α) : Traced α QueryError (Results α) :=
  if s.shape.isSingleEntity then do return .ofOption (← s.singleResult)
  else return s.results

/-- Whether there is a result. -/
def exists? (s : ShapedResults α) : Traced α QueryError Bool := do
  return !(← Traced.mapFailure .store s.results.isEmpty)

/-- A slice of the results. The total of a page comes from `count`, which is asked first; without
paging everything is in the page, and `count` is not asked. -/
def page (s : ShapedResults α) (pageable : Pageable) (count : Traced α QueryError UInt64) :
    Traced α QueryError (Page α) :=
  match pageable with
  | .unpaged => do
    let content ← Traced.mapFailure .store s.results.collect
    return ⟨content, pageable, UInt64.ofNat content.length⟩
  | .paged _ size => do
    let total ← count
    let elements ← s.results.start
    let rest ← Traced.mapFailure .store (s.results.skip pageable.offset.toNat elements)
    let content ← Traced.mapFailure .store (s.results.take size.toNat rest)
    return ⟨content, pageable, total⟩

end ShapedResults

end KeyAccess
