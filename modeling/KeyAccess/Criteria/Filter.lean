-- Raw filters: expression text in the store's own notation, with bindings for its placeholders.
-- A filter is consistent if it binds exactly the placeholders that stand in its text and if none
-- of them is reserved for generated expressions.
import KeyAccess.Clause.Conditions
import KeyAccess.Text.Placeholder

namespace KeyAccess

/-- What the placeholders of generated attribute names start with. -/
def reservedNames : String := "#kq_"

/-- What the placeholders of generated values start with. -/
def reservedValues : String := ":kq_"

/-- Whether a text starts with another one. -/
def startsWith (text start : String) : Bool := start.toList.isPrefixOf text.toList

/-- Whether a placeholder is reserved for generated expressions. -/
def isReserved (placeholder : String) : Bool :=
  startsWith placeholder reservedNames || startsWith placeholder reservedValues

/-- One binding of a placeholder. -/
inductive FilterBinding
  /-- A placeholder for an attribute name. -/
  | name (placeholder held : String)
  /-- A placeholder for a value. -/
  | value (placeholder : String) (value : ClauseValue)
  /-- A placeholder for a value that is encoded as a value of a property. -/
  | valueFor (placeholder property : String) (value : ClauseValue)

/-- A filter expression and its bindings, not checked yet. -/
structure RawFilter where
  expression : String
  names : SortedMap String := ∅
  values : SortedMap ClauseValue := ∅
  /-- For each value that is encoded as a value of a property, the property. -/
  valueProperties : SortedMap String := ∅

/-- A checked filter with encoded values. -/
structure BoundFilter where
  expression : String
  names : SortedMap String
  values : SortedMap AttributeValue
  deriving DecidableEq

namespace RawFilter

/-- Adds a binding, in place of any earlier one of its placeholder. -/
def bindOne (f : RawFilter) : FilterBinding → RawFilter
  | .name placeholder held => { f with names := f.names.insert placeholder held }
  | .value placeholder value =>
    { f with
      valueProperties := f.valueProperties.erase placeholder
      values := f.values.insert placeholder value }
  | .valueFor placeholder property value =>
    { f with
      valueProperties := f.valueProperties.insert placeholder property
      values := f.values.insert placeholder value }

/-- The filter with a text and bindings that were added one after the other. -/
def ofBindings (expression : String) (bindings : List FilterBinding) : RawFilter :=
  bindings.foldl bindOne { expression }

/-- Checks a placeholder that stands in the text. -/
def checkUsed (f : RawFilter) (placeholder : String) : Except QueryError Unit :=
  if isReserved placeholder then .error (.invalidFilter (.reserved placeholder))
  else
    let bound :=
      if startsWith placeholder "#" then f.names.contains placeholder
      else f.values.contains placeholder
    if bound then .ok () else .error (.invalidFilter (.unbound placeholder))

/-- Checks a placeholder that is bound, where `used` are those that stand in the text. -/
def checkBound (used : List String) (sigil : Char) (placeholder : String) :
    Except QueryError Unit :=
  if !startsWith placeholder sigil.toString then
    .error (.invalidFilter (.wrongSigil placeholder sigil))
  else if placeholder ∉ used then .error (.invalidFilter (.unused placeholder))
  else .ok ()

/-- Encodes a bound value: as a value of its property, or of the property that has the name of
the placeholder if the binding states none. -/
def encodeBound (f : RawFilter) (ctx : EncodingContext) (placeholder : String)
    (value : ClauseValue) : Except QueryError AttributeValue :=
  ctx.encode ((f.valueProperties.get? placeholder).getD placeholder) value none

/-- Checks the bindings and encodes the values. -/
def bind (f : RawFilter) (ctx : EncodingContext) : Except QueryError BoundFilter := do
  if Text.allBlank f.expression then throw (.invalidFilter .blank)
  let used := sortedDistinct (Text.placeholders f.expression)
  used.forM f.checkUsed
  f.names.keys.forM (checkBound used '#')
  f.values.keys.forM (checkBound used ':')
  let encoded ← f.values.entries.mapM fun (placeholder, value) => do
    return (placeholder, ← f.encodeBound ctx placeholder value)
  return ⟨f.expression, f.names, SortedMap.ofList encoded⟩

end RawFilter

end KeyAccess
