-- The conditions that clauses stand for. Each value of a clause is encoded: by the converter of its
-- property, else with the type that the clause states, else with the type that the schema declares,
-- else by its own kind.
import KeyAccess.Schema.KeySchema
import KeyAccess.Value.Converter
import KeyAccess.Value.Encoding

namespace KeyAccess

/-- What the encoding of an entity's values depends on. -/
structure EncodingContext where
  schema : KeySchema
  converters : ConverterRegistry

namespace EncodingContext

/-- Encodes a value for a property. -/
def encode (ctx : EncodingContext) (property : String) (value : ClauseValue)
    (type : Option AttributeType) : Except QueryError AttributeValue :=
  match ctx.converters.get? property with
  | some convert =>
    match convert value with
    | .ok encoded => .ok encoded
    | .error reason => .error (.unsupportedValue property (.stated reason))
  | none =>
    match value.encodeAs (type.or (ctx.schema.attributeType property)) with
    | .ok encoded => .ok encoded
    | .error fault => .error (.unsupportedValue property fault)

/-- Encodes values for a property, from the first to the last. -/
def encodeAll (ctx : EncodingContext) (property : String) (values : List ClauseValue)
    (type : Option AttributeType) : Except QueryError (List AttributeValue) :=
  values.mapM (fun value => ctx.encode property value type)

/-- An equality. -/
def equality (ctx : EncodingContext) (property : String) (value : ClauseValue)
    (type : Option AttributeType) : Except QueryError Condition := do
  return ⟨.eq, [← ctx.encode property value type]⟩

/-- A comparison with one value. -/
def comparison (ctx : EncodingContext) (property : String) (operator : ComparisonOperator)
    (value : ClauseValue) (type : Option AttributeType) : Except QueryError Condition :=
  match operator with
  | .between | .isIn | .null | .notNull =>
    .error (.unsupportedValue property (.notSingleComparison operator))
  | _ => do return ⟨operator, [← ctx.encode property value type]⟩

/-- A range with both ends. -/
def between (ctx : EncodingContext) (property : String) (low high : ClauseValue)
    (type : Option AttributeType) : Except QueryError Condition := do
  let low ← ctx.encode property low type
  let high ← ctx.encode property high type
  return ⟨.between, [low, high]⟩

/-- The elements of a membership: a collection among the values stands for its items. -/
def membershipElements (values : List ClauseValue) : List ClauseValue :=
  values.flatMap fun
    | .list items => items
    | value => [value]

/-- A membership among some values. -/
def membership (ctx : EncodingContext) (property : String) (values : List ClauseValue)
    (type : Option AttributeType) : Except QueryError Condition := do
  let encoded ← ctx.encodeAll property (membershipElements values) type
  if encoded.isEmpty then throw (.unsupportedValue property .emptyMembership)
  return ⟨.isIn, encoded⟩

/-- Whether a collection contains an element. A collection of one item stands for the item. -/
def containment (ctx : EncodingContext) (property : String) (value : ClauseValue) (negated : Bool)
    (type : Option AttributeType) : Except QueryError Condition :=
  let operator := if negated then .notContains else .contains
  match value with
  | .list [item] => do return ⟨operator, [← ctx.encode property item type]⟩
  | .list items =>
    .error (.unsupportedValue property (.notSingleElement operator items.length))
  | value => do return ⟨operator, [← ctx.encode property value type]⟩

/-- Whether there is a value at all. -/
def nullCheck (expectNull : Bool) : Condition := ⟨if expectNull then .null else .notNull, []⟩

/-- The condition that a clause stands for. -/
def conditionOf (ctx : EncodingContext) (clause : Clause) : Except QueryError Condition :=
  let property := clause.property
  let type := clause.valueType
  match clause.operator, clause.values with
  | .eq, [value] => ctx.equality property value type
  | .ne, [value] => ctx.comparison property .ne value type
  | .gt, [value] => ctx.comparison property .gt value type
  | .ge, [value] => ctx.comparison property .ge value type
  | .lt, [value] => ctx.comparison property .lt value type
  | .le, [value] => ctx.comparison property .le value type
  | .beginsWith, [value] => ctx.comparison property .beginsWith value type
  | .between, [low, high] => ctx.between property low high type
  | .isIn, first :: rest => ctx.membership property (first :: rest) type
  | .contains, [value] => ctx.containment property value false type
  | .notContains, [value] => ctx.containment property value true type
  | .isNull, [] => .ok (nullCheck true)
  | .isNotNull, [] => .ok (nullCheck false)
  | .isTrue, [] => ctx.equality property (.boolean true) type
  | .isFalse, [] => ctx.equality property (.boolean false) type
  | operator, values => .error (.unsupportedValue property (.arity operator values.length))

end EncodingContext

end KeyAccess
