-- Explaining a choice: the path with its conditions, or the reason why there is none, in a fixed
-- layout.
import KeyAccess.AccessPath
import KeyAccess.Error

namespace KeyAccess

/-- The outcome of choosing an access path, in words. -/
structure Explanation where
  accepted : Bool
  path : Option String := none
  index : Option String := none
  /-- The conditions that the key serves. -/
  keyConditions : List String := []
  /-- The conditions that are applied as filters. -/
  filters : List String := []
  sort : Option String := none
  rejectionReason : Option String := none
  rejectionCode : Option String := none
  deriving DecidableEq

namespace Explanation

/-- An equality on a primary key property. -/
def keyEquality (role : String) (value : AttributeValue) : String := s!"{role} EQ {value.text}"

/-- The conditions that the key serves. -/
def keyConditionsOf : AccessPath → List String
  | .directLoad partition sort =>
    keyEquality "partition" partition :: (sort.map (keyEquality "sort")).toList
  | .primaryQuery partition sort _ =>
    keyEquality "partition" partition :: (sort.map AttributeCondition.text).toList
  | .indexQuery _ partition sort _ => partition.text :: (sort.map AttributeCondition.text).toList
  | .scan _ => []

/-- The conditions that are applied as filters. -/
def filtersOf : AccessPath → List String
  | .scan filters => filters.map AttributeCondition.text
  | .directLoad _ _ | .primaryQuery _ _ _ | .indexQuery _ _ _ _ => []

/-- The explanation of a path. -/
def ofPath (path : AccessPath) : Explanation :=
  { accepted := true
    path := some path.kind.name
    index := path.indexName
    keyConditions := keyConditionsOf path
    filters := filtersOf path
    sort := path.order.map SortOrder.text }

/-- The explanation of an error. -/
def ofError (error : QueryError) : Explanation :=
  { accepted := false
    rejectionReason := some error.message
    rejectionCode := some error.code.name }

/-- A line with a label, for a part that is there. -/
def labelled (label : String) (part : Option String) : List String :=
  (part.map (fun p => label ++ ": " ++ p)).toList

/-- A heading with a line for each of some items, if there are any. -/
def listed (heading : String) (items : List String) : List String :=
  if items.isEmpty then [] else (heading ++ ":") :: items.map (fun i => "  - " ++ i)

/-- The lines of an explanation. -/
def lines (p : Explanation) : List String :=
  "=== EXPLAIN PLAN ===" ::
    if p.accepted then
      "Status: ACCEPTED" :: labelled "Path" p.path ++ labelled "Index" p.index ++
        listed "Key Conditions" p.keyConditions ++ listed "Filters" p.filters ++
        labelled "Sort" p.sort
    else
      "Status: REJECTED" :: labelled "Error Code" p.rejectionCode ++
        labelled "Reason" p.rejectionReason

/-- The text of an explanation. Every line ends with a line feed. -/
def text (p : Explanation) : String := String.join (p.lines.map (· ++ "\n"))

end Explanation

end KeyAccess
