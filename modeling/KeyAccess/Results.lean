-- Lists of results. A list can be passed over any number of times, each pass from its beginning,
-- and it is never asked for its length or for an element by position. The elements of a list from
-- a store are fetched as they are pulled, so what is pulled matters.
import KeyAccess.Trace

namespace KeyAccess

/-- A list of results; any element may be a failure. -/
structure Results (α : Type) where
  elements : List (Except StoreError α)
  /-- Whether passes fetch from a store. Else the elements are at hand. -/
  fetched : Bool

namespace Results

variable {α ε : Type}

/-- A list that is fetched from a store. -/
def ofStore (elements : List (Except StoreError α)) : Results α := ⟨elements, true⟩

/-- A list of entities at hand. -/
def ofList (items : List α) : Results α := ⟨items.map .ok, false⟩

/-- A list of one entity at hand, or of none. -/
def ofOption (item : Option α) : Results α := ofList item.toList

/-- A list whose every pass fails. -/
def failing (message : String) : Results α := ⟨[.error { message }], false⟩

/-- The list without elements. -/
def empty : Results α := ofList []

/-- An effect on a store, if passes have one. -/
def emitIf (fetched : Bool) (effect : Effect α) : Traced α ε Unit :=
  if fetched then .emit effect else .ok ()

/-- Begins a pass; the elements that it will pull. -/
def start (r : Results α) : Traced α ε (List (Except StoreError α)) := do
  emitIf r.fetched .passStarted
  return r.elements

/-- Pulls the next element. -/
def pull (r : Results α) : Traced α ε Unit := emitIf r.fetched .pulled

/-- Pulls what is left of a pass, up to the first failure. -/
def drain (r : Results α) : List (Except StoreError α) → Traced α StoreError (List α)
  | [] => return []
  | element :: rest => do
    r.pull
    let x ← .ofExcept element
    let xs ← r.drain rest
    return x :: xs

/-- Pulls at most `count` elements without a look at them; what is left of the pass. -/
def skip (r : Results α) :
    Nat → List (Except StoreError α) → Traced α StoreError (List (Except StoreError α))
  | 0, rest => return rest
  | _ + 1, [] => return []
  | count + 1, _ :: rest => do
    r.pull
    r.skip count rest

/-- Pulls at most `count` elements, up to the first failure. -/
def take (r : Results α) : Nat → List (Except StoreError α) → Traced α StoreError (List α)
  | 0, _ => return []
  | _ + 1, [] => return []
  | count + 1, element :: rest => do
    r.pull
    let x ← .ofExcept element
    let xs ← r.take count rest
    return x :: xs

/-- Whether a pass has no element. -/
def isEmpty (r : Results α) : Traced α StoreError Bool := do
  match ← r.start with
  | [] => return true
  | element :: _ =>
    r.pull
    let _ ← .ofExcept element
    return false

/-- All elements of a pass. -/
def collect (r : Results α) : Traced α StoreError (List α) := do
  r.drain (← r.start)

end Results

end KeyAccess
