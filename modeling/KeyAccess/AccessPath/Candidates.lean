-- Index candidates: the indexes whose members include every queried property. An index with no
-- other member comes first, and there may be only one; the others follow by name, so the order of
-- their declaration plays no part.
import KeyAccess.Error
import KeyAccess.Schema.KeySchema

namespace KeyAccess

namespace IndexDefinition

/-- Whether the index has every one of some properties as a member. -/
def covers (i : IndexDefinition) (properties : List String) : Bool :=
  properties.all (fun p => i.members.contains p)

/-- Whether the index has exactly the given distinct properties as members. -/
def matchesExactly (i : IndexDefinition) (properties : List String) : Bool :=
  i.covers properties && (sortedDistinct i.members).length == properties.length

end IndexDefinition

/-- Indexes in ascending order of their names. -/
def sortByName (indexes : List IndexDefinition) : List IndexDefinition :=
  indexes.mergeSort (fun a b => a.name ≤ b.name)

/-- The candidates for some distinct properties, the best first. -/
def indexCandidates (indexes : List IndexDefinition) (properties : List String) :
    Except QueryError (List IndexDefinition) :=
  if properties.isEmpty then .ok []
  else
    let covering := indexes.filter (fun i => i.covers properties)
    let exact := covering.filter (fun i => i.matchesExactly properties)
    let partly := covering.filter (fun i => !i.matchesExactly properties)
    if 1 < exact.length then
      .error (.ambiguousIndex ((sortByName exact).map IndexDefinition.name) properties)
    else .ok (exact ++ sortByName partly)

end KeyAccess
