-- Predicates: clauses joined by AND, alternatives joined by OR, a sort, a limit and the shape of
-- the result that the caller expects.
import KeyAccess.Clause

namespace KeyAccess

/-- A property to sort by, and the direction. -/
structure SortOrder where
  property : String
  ascending : Bool
  deriving DecidableEq

namespace SortOrder

/-- The name of the direction. -/
def direction (d : SortOrder) : String := if d.ascending then "asc" else "desc"

/-- The written form of an order. -/
def text (d : SortOrder) : String := d.property ++ " " ++ d.direction

end SortOrder

/-- The shape of a result. -/
inductive ResultShape
  /-- No entity or one. -/
  | single
  /-- Any number of entities. -/
  | list
  /-- A slice of the entities and their total number. -/
  | page
  | count
  | existence
  /-- One entity, to be deleted. -/
  | delete
  deriving DecidableEq

namespace ResultShape

/-- The shapes and their names. -/
def named : List (String × ResultShape) :=
  [("single", single), ("list", list), ("page", page), ("count", count), ("exists", existence),
    ("delete", delete)]

/-- The name of a shape. -/
def name : ResultShape → String
  | single => "single"
  | list => "list"
  | page => "page"
  | count => "count"
  | existence => "exists"
  | delete => "delete"

/-- Whether the shape holds at most one entity. -/
def isSingleEntity : ResultShape → Bool
  | single | delete => true
  | list | page | count | existence => false

end ResultShape

/-- Alternatives of clauses that are joined by AND, and how the result is wanted. -/
structure Predicate where
  orParts : List (List Clause) := [[]]
  sort : List SortOrder := []
  limit : Option UInt32 := none
  shape : ResultShape := .list

namespace Predicate

/-- Appends a clause to the last of some alternatives, or makes it the first one. -/
def appendClause (clause : Clause) : List (List Clause) → List (List Clause)
  | [] => [[clause]]
  | [part] => [part ++ [clause]]
  | part :: rest => part :: appendClause clause rest

/-- Joins a clause to the current alternative by AND. -/
def and (t : Predicate) (clause : Clause) : Predicate :=
  { t with orParts := appendClause clause t.orParts }

/-- Starts another alternative. -/
def or (t : Predicate) : Predicate := { t with orParts := t.orParts ++ [[]] }

/-- Adds a sort order. -/
def sortedBy (t : Predicate) (order : SortOrder) : Predicate :=
  { t with sort := t.sort ++ [order] }

/-- Sets the limit. -/
def limitTo (t : Predicate) (limit : UInt32) : Predicate := { t with limit := some limit }

/-- Whether there is more than one alternative. -/
def hasOr (t : Predicate) : Bool := 1 < t.orParts.length

end Predicate

end KeyAccess
