-- Expressions: conditions in the store's notation. Names and values never stand in the text. Each
-- attribute has a numbered slot that is used again where it recurs, each value a slot of its own,
-- and the text holds placeholders for the slots.
import KeyAccess.Comparison
import KeyAccess.Criteria.Filter

namespace KeyAccess

/-- The attributes and the values that expressions refer to, in the order of their slots. -/
structure Slots where
  attributes : List String := []
  values : List AttributeValue := []
  deriving DecidableEq

/-- A condition in terms of slots: its values have consecutive ones. -/
structure Term where
  operator : ComparisonOperator
  attributeSlot : Nat
  firstValue : Nat
  valueCount : Nat
  deriving DecidableEq

/-- The placeholder of an attribute slot. -/
def namePlaceholder (slot : Nat) : String := reservedNames ++ "n" ++ toString slot

/-- The placeholder of a value slot. -/
def valuePlaceholder (slot : Nat) : String := reservedValues ++ "v" ++ toString slot

namespace Slots

/-- The slot of an attribute, which is a new one unless the attribute has one. -/
def slotOf (s : Slots) (attributeName : String) : Nat × Slots :=
  match s.attributes.findIdx? (· == attributeName) with
  | some slot => (slot, s)
  | none => (s.attributes.length, { s with attributes := s.attributes ++ [attributeName] })

/-- The term of a condition. -/
def term (s : Slots) (c : AttributeCondition) : Term × Slots :=
  let (slot, s) := s.slotOf c.attributeName
  (⟨c.operator, slot, s.values.length, c.condition.values.length⟩,
    { s with values := s.values ++ c.condition.values })

/-- The terms of some conditions. -/
def terms (s : Slots) : List AttributeCondition → List Term × Slots
  | [] => ([], s)
  | c :: rest =>
    let (t, s) := s.term c
    let (ts, s) := s.terms rest
    (t :: ts, s)

/-- The bindings of the attribute slots. -/
def names (s : Slots) : SortedMap String :=
  SortedMap.ofList (s.attributes.mapIdx (fun slot name => (namePlaceholder slot, name)))

/-- The bindings of the value slots. -/
def bindings (s : Slots) : SortedMap AttributeValue :=
  SortedMap.ofList (s.values.mapIdx (fun slot value => (valuePlaceholder slot, value)))

end Slots

namespace Term

/-- The placeholders of the values. -/
def valueTexts (t : Term) : List String :=
  (List.range' t.firstValue t.valueCount).map valuePlaceholder

/-- The text of a term. -/
def text (t : Term) : String :=
  let name := namePlaceholder t.attributeSlot
  let values := String.intercalate ", " t.valueTexts
  match t.operator with
  | .eq => s!"{name} = {values}"
  | .ne => s!"{name} <> {values}"
  | .lt => s!"{name} < {values}"
  | .le => s!"{name} <= {values}"
  | .gt => s!"{name} > {values}"
  | .ge => s!"{name} >= {values}"
  | .between =>
    let bounds := String.intercalate " AND " t.valueTexts
    s!"{name} BETWEEN {bounds}"
  | .isIn => s!"{name} IN ({values})"
  | .beginsWith => s!"begins_with({name}, {values})"
  | .contains => s!"contains({name}, {values})"
  | .notContains => s!"NOT contains({name}, {values})"
  | .null => s!"attribute_not_exists({name})"
  | .notNull => s!"attribute_exists({name})"

end Term

/-- The conjunction of some conditions and the slots that it refers to. There is no text if there
are no conditions. -/
def conjunction (s : Slots) (conditions : List AttributeCondition) : Option String × Slots :=
  let (terms, s) := s.terms conditions
  (if terms.isEmpty then none else some (String.intercalate " AND " (terms.map Term.text)), s)

end KeyAccess
