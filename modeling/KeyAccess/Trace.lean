-- Traces: what can be observed while a query is built and run. An operation yields the effects it
-- had, in their order, and its outcome; nothing follows a failure.
import KeyAccess.Error
import KeyAccess.Event
import KeyAccess.Request
import KeyAccess.Schema.KeySchema

namespace KeyAccess

/-- A call of a store over entities of a type. -/
inductive StoreCall (α : Type)
  | load (schema : KeySchema) (request : LoadRequest)
  | query (schema : KeySchema) (request : QueryRequest)
  | scan (schema : KeySchema) (request : ScanRequest)
  | count (schema : KeySchema) (request : StoreRequest)
  | delete (schema : KeySchema) (entity : α)
  /-- The table that an index query is to name is asked for. -/
  | tableName (schema : KeySchema) (default : String)
  deriving DecidableEq

/-- Something that can be observed. -/
inductive Effect (α : Type)
  | event (record : EventRecord)
  | call (call : StoreCall α)
  /-- A pass over a list of the store begins. -/
  | passStarted
  /-- An element is pulled from a list of the store. -/
  | pulled
  deriving DecidableEq

/-- The effects of an operation and its outcome. -/
structure Traced (α ε β : Type) where
  effects : List (Effect α)
  outcome : Except ε β

namespace Traced

variable {α ε ε' β γ : Type}

/-- A value without effects. -/
def ok (x : β) : Traced α ε β := ⟨[], .ok x⟩

/-- A failure without effects. -/
def fail (e : ε) : Traced α ε β := ⟨[], .error e⟩

/-- One operation after another, which the first one's value decides. -/
def andThen (m : Traced α ε β) (f : β → Traced α ε γ) : Traced α ε γ :=
  match m.outcome with
  | .ok x => ⟨m.effects ++ (f x).effects, (f x).outcome⟩
  | .error e => ⟨m.effects, .error e⟩

instance : Monad (Traced α ε) where
  pure := ok
  bind := andThen

/-- An outcome without effects. -/
def ofExcept (outcome : Except ε β) : Traced α ε β := ⟨[], outcome⟩

/-- Nothing but an effect. -/
def emit (effect : Effect α) : Traced α ε Unit := ⟨[effect], .ok ()⟩

/-- Nothing but an event. -/
def log (event : Event) (fields : List (String × String)) : Traced α ε Unit :=
  emit (.event ⟨event, fields⟩)

/-- The operation with another kind of failure. -/
def mapFailure (f : ε → ε') (m : Traced α ε β) : Traced α ε' β :=
  ⟨m.effects, match m.outcome with
    | .ok x => .ok x
    | .error e => .error (f e)⟩

end Traced

end KeyAccess
