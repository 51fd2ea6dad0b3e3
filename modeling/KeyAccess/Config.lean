-- How an entity may be queried: whether scans are allowed, and how consistent reads are.

namespace KeyAccess

/-- The read consistency that is asked of the store. -/
inductive ConsistencyMode
  /-- The choice is left to the store. -/
  | storeDefault
  | consistent
  | eventual
  deriving DecidableEq

namespace ConsistencyMode

/-- The modes and their names. -/
def named : List (String × ConsistencyMode) :=
  [("default", storeDefault), ("consistent", consistent), ("eventual", eventual)]

/-- The name of a mode. -/
def name : ConsistencyMode → String
  | storeDefault => "default"
  | consistent => "consistent"
  | eventual => "eventual"

/-- The flag that a request carries: none leaves the choice to the store. -/
def consistentRead : ConsistencyMode → Option Bool
  | storeDefault => none
  | consistent => some true
  | eventual => some false

end ConsistencyMode

/-- Whether an entity may be scanned. -/
structure ScanPolicy where
  /-- A query that no key condition serves may become a filtered scan. -/
  enabled : Bool := true
  /-- The total of a page may be computed by scanning. -/
  countEnabled : Bool := false
  deriving DecidableEq

namespace ScanPolicy

/-- Scans and counts by scanning are both allowed. -/
def permissive : ScanPolicy := ⟨true, true⟩

/-- No scans at all. -/
def disabled : ScanPolicy := ⟨false, false⟩

end ScanPolicy

/-- The query configuration of an entity. -/
structure QueryConfig where
  scan : ScanPolicy := {}
  consistency : ConsistencyMode := .storeDefault
  deriving DecidableEq

end KeyAccess
