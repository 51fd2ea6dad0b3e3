-- Choosing the access path: a direct load if the full primary key is known, else a query on the
-- primary key, else a query on an index, else a scan. The choice depends on the schema and the
-- criteria alone.
import KeyAccess.AccessPath
import KeyAccess.AccessPath.Candidates
import KeyAccess.Criteria

namespace KeyAccess

namespace AccessPath

/-! ## The primary key -/

/-- The load that serves the criteria: they fix every key property and ask nothing else. -/
def directLoad? (schema : KeySchema) (c : Criteria) : Option AccessPath :=
  if !c.otherConditions.isEmpty then none
  else do
    let partition ← (← c.partitionEquality).condition.singleValue
    match schema.shape with
    | .partitionOnly _ => return .directLoad partition none
    | .partitionAndSort _ _ =>
      let sort ← c.sortCondition
      if !sort.condition.isEquality then none
      else return .directLoad partition (some (← sort.condition.singleValue))

/-- The query on a composite primary key that serves the criteria: they fix the partition key and
ask nothing else but at most one condition on the sort key that a key condition may use. -/
def primaryQuery? (schema : KeySchema) (c : Criteria) : Except QueryError (Option AccessPath) :=
  match schema.shape with
  | .partitionOnly _ => .ok none
  | .partitionAndSort _ sortKey =>
    match c.partitionEquality with
    | none => .ok none
    | some partition =>
      if !c.otherConditions.isEmpty then .ok none
      else if c.sortCondition.any (fun s => !s.condition.isQueryLegal) then .ok none
      else match partition.condition.singleValue with
        | none => .ok none
        | some value =>
          match c.sort.head? with
          | none => .ok (some (.primaryQuery value c.sortCondition none))
          | some order =>
            if order.property = sortKey then
              .ok (some (.primaryQuery value c.sortCondition (some order)))
            else .error (.unsupportedOperation (.sortNotBy sortKey))

/-! ## Indexes -/

/-- The key conditions on an index that serve the conditions of each property: an equality on the
partition member, at most one condition on the sort member that a key condition may use, and
nothing else. -/
def keyConditions? (i : IndexDefinition) (byProperty : SortedMap (List AttributeCondition)) :
    Option (AttributeCondition × Option AttributeCondition) :=
  match byProperty.get? i.partition with
  | some [partition] =>
    if !partition.condition.isEquality then none
    else match i.sort.bind byProperty.get? with
      | none => if byProperty.size = 1 then some (partition, none) else none
      | some [sort] =>
        if sort.condition.isQueryLegal && byProperty.size = 2 then some (partition, some sort)
        else none
      | some _ => none
  | _ => none

/-- The order of an index query: an index sorts by its sort member only, and there is nothing to
sort where an equality fixes that member too. -/
def indexOrder (sort : List SortOrder) (i : IndexDefinition)
    (sortCondition : Option AttributeCondition) : Except OperationFault (Option SortOrder) :=
  match sort.head? with
  | none => .ok none
  | some order =>
    match i.sort with
    | none => .error (.indexWithoutSort i.name order.property)
    | some range =>
      if order.property ≠ range then .error (.sortNotBy range)
      else if sortCondition.any (fun s => s.condition.isEquality) then
        .error (.indexFullyPinned i.name)
      else .ok (some order)

/-- The query on the first of some candidates that serves conditions and order. Where candidates
serve the conditions but none the order, the first one's fault is reported. -/
def firstIndexQuery (sort : List SortOrder) (byProperty : SortedMap (List AttributeCondition)) :
    Option OperationFault → List IndexDefinition → Except QueryError (Option AccessPath)
  | none, [] => .ok none
  | some fault, [] => .error (.unsupportedOperation fault)
  | fault?, i :: rest =>
    match keyConditions? i byProperty with
    | none => firstIndexQuery sort byProperty fault? rest
    | some (partition, sortCondition) =>
      match indexOrder sort i sortCondition with
      | .ok order => .ok (some (.indexQuery i.name partition sortCondition order))
      | .error fault => firstIndexQuery sort byProperty (fault?.or (some fault)) rest

/-- The index query that serves the criteria. -/
def indexQuery? (schema : KeySchema) (c : Criteria) : Except QueryError (Option AccessPath) := do
  let byProperty := c.conditionsByProperty
  let candidates ← indexCandidates schema.indexes byProperty.keys
  firstIndexQuery c.sort byProperty none candidates

/-! ## The choice -/

/-- The scan that serves the criteria, if scans are allowed and no order is asked for. -/
def scanOf (schema : KeySchema) (c : Criteria) : Except QueryError AccessPath :=
  match c.sort.head? with
  | some order => .error (.unsupportedOperation (.sortedScan order.property))
  | none =>
    if !c.config.scan.enabled then .error (.unsupportedOperation (.scanDisabled schema.entity))
    else .ok (.scan c.allConditions)

/-- The cheapest path that serves the criteria. -/
def select (schema : KeySchema) (c : Criteria) : Except QueryError AccessPath := do
  if 1 < c.sort.length then throw (.unsupportedOperation (.severalSorts c.sort.length))
  match directLoad? schema c with
  | some path => return path
  | none =>
    match ← primaryQuery? schema c with
    | some path => return path
    | none =>
      match ← indexQuery? schema c with
      | some path => return path
      | none => scanOf schema c

end AccessPath

end KeyAccess
