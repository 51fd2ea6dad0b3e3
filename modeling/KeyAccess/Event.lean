-- Events: what the library reports about its work. The same event with the same fields always
-- reads the same.

namespace KeyAccess

/-- The level of an event. -/
inductive Level
  | trace
  | debug
  | info
  | warn
  deriving DecidableEq

namespace Level

/-- The name of a level. -/
def name : Level → String
  | trace => "TRACE"
  | debug => "DEBUG"
  | info => "INFO"
  | warn => "WARN"

/-- The rank of a level; the most urgent one is the greatest. -/
def rank : Level → Nat
  | trace => 0
  | debug => 1
  | info => 2
  | warn => 3

instance : LT Level := ⟨fun a b => a.rank < b.rank⟩

instance (a b : Level) : Decidable (a < b) := inferInstanceAs (Decidable (a.rank < b.rank))

end Level

/-- What happened. -/
inductive Event
  | schemaLoaded
  | accessPathSelected
  /-- No key condition serves the conditions of a query. -/
  | scanFallback
  | countViaScan
  /-- A request was answered by the store. -/
  | queryExecuted
  deriving DecidableEq

namespace Event

/-- The events in their order. -/
def all : List Event :=
  [schemaLoaded, accessPathSelected, scanFallback, countViaScan, queryExecuted]

/-- The name of an event. -/
def name : Event → String
  | schemaLoaded => "SCHEMA_LOADED"
  | accessPathSelected => "ACCESS_PATH_SELECTED"
  | scanFallback => "SCAN_FALLBACK"
  | countViaScan => "COUNT_VIA_SCAN"
  | queryExecuted => "QUERY_EXECUTED"

/-- The level of an event. -/
def level : Event → Level
  | schemaLoaded => .info
  | accessPathSelected => .debug
  | scanFallback | countViaScan => .warn
  | queryExecuted => .trace

end Event

/-- An event and what it is about. -/
structure EventRecord where
  event : Event
  fields : List (String × String)
  deriving DecidableEq

namespace EventRecord

/-- The fields in one line, ascending by their names; fields of one name keep their order. -/
def line (r : EventRecord) : String :=
  String.intercalate " "
    ((r.fields.mergeSort (fun a b => a.1 ≤ b.1)).map (fun f => f.1 ++ "=" ++ f.2))

end EventRecord

end KeyAccess
