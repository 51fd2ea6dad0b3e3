-- The law of translation: a clause becomes a condition exactly if it has as many values as its
-- operator takes and every element that it compares with can be encoded. The condition has the
-- encodings in the order of the elements, and a failure names the property of the clause.
import Mathlib
import KeyAccess.Clause.Conditions
import KeyAccess.Proofs.Outcome
import KeyAccess.Proofs.Schema.Built

namespace KeyAccess

/-! ## The elements of a clause -/

/-- What a value stands for where collections are opened, one level deep. -/
def ClauseValue.items : ClauseValue → List ClauseValue
  | list items => items
  | value => [value]

namespace Operator

/-- The comparison that an operator becomes. -/
def comparison : Operator → ComparisonOperator
  | eq | isTrue | isFalse => .eq
  | ne => .ne
  | gt => .gt
  | ge => .ge
  | lt => .lt
  | le => .le
  | between => .between
  | isIn => .isIn
  | beginsWith => .beginsWith
  | contains => .contains
  | notContains => .notContains
  | isNull => .null
  | isNotNull => .notNull

/-- The elements that are compared with. A membership opens collections and needs an element; a
containment opens collections of one item and refuses the others. -/
def elements? : Operator → List ClauseValue → Option (List ClauseValue)
  | isIn, values =>
    if (values.flatMap ClauseValue.items).isEmpty then none
    else some (values.flatMap ClauseValue.items)
  | contains, values | notContains, values =>
    if values.all (fun value => value.items.length == 1) then
      some (values.flatMap ClauseValue.items)
    else none
  | isTrue, _ => some [.boolean true]
  | isFalse, _ => some [.boolean false]
  | isNull, _ | isNotNull, _ => some []
  | eq, values | ne, values | gt, values | ge, values | lt, values | le, values
  | between, values | beginsWith, values => some values

end Operator

namespace EncodingContext

variable {ctx : EncodingContext} {property : String} {type : Option AttributeType}

/-! ## Values by their place -/

/-- The condition of a clause whose values are taken by their place, once their number is checked.
There is none if a place past the last value is asked for. -/
def conditionByPlace (ctx : EncodingContext) (clause : Clause) :
    Option (Except QueryError Condition) :=
  let property := clause.property
  let type := clause.valueType
  if clause.operator.arity.allows clause.values.length then
    match clause.operator with
    | .eq => clause.values[0]?.map (ctx.equality property · type)
    | .ne => clause.values[0]?.map (ctx.comparison property .ne · type)
    | .gt => clause.values[0]?.map (ctx.comparison property .gt · type)
    | .ge => clause.values[0]?.map (ctx.comparison property .ge · type)
    | .lt => clause.values[0]?.map (ctx.comparison property .lt · type)
    | .le => clause.values[0]?.map (ctx.comparison property .le · type)
    | .beginsWith => clause.values[0]?.map (ctx.comparison property .beginsWith · type)
    | .between => do
      let low ← clause.values[0]?
      let high ← clause.values[1]?
      return ctx.between property low high type
    | .isIn => some (ctx.membership property clause.values type)
    | .contains => clause.values[0]?.map (ctx.containment property · false type)
    | .notContains => clause.values[0]?.map (ctx.containment property · true type)
    | .isNull => some (.ok (nullCheck true))
    | .isNotNull => some (.ok (nullCheck false))
    | .isTrue => some (ctx.equality property (.boolean true) type)
    | .isFalse => some (ctx.equality property (.boolean false) type)
  else
    some (.error (.unsupportedValue property (.arity clause.operator clause.values.length)))

/-- A number of values that is allowed leaves one form of the values. -/
theorem allows_iff (operator : Operator) (values : List ClauseValue) :
    operator.arity.allows values.length = true ↔
      match operator.arity with
      | .none => values = []
      | .one => ∃ value, values = [value]
      | .two => ∃ low high, values = [low, high]
      | .atLeastOne => ∃ first rest, values = first :: rest := by
  cases operator.arity with
  | none => simp [Arity.allows]
  | one => simp [Arity.allows, List.length_eq_one_iff]
  | two => simp [Arity.allows, List.length_eq_two]
  | atLeastOne =>
    cases values <;> simp [Arity.allows]

/-! ## Elements and their encodings -/

theorem encode_eq_error {value : ClauseValue} {e : QueryError}
    (h : ctx.encode property value type = .error e) :
    ∃ fault, e = .unsupportedValue property fault := by
  unfold encode at h
  split at h
  all_goals
    split at h
    · cases h
    · cases h
      exact ⟨_, rfl⟩

theorem encodeAll_eq_error {values : List ClauseValue} {e : QueryError}
    (h : ctx.encodeAll property values type = .error e) :
    ∃ fault, e = .unsupportedValue property fault := by
  obtain ⟨value, -, hvalue⟩ := mapM_eq_error h
  exact encode_eq_error hvalue

/-- The condition with the encodings of some elements. -/
def conditionWith (ctx : EncodingContext) (property : String) (operator : ComparisonOperator)
    (elements : List ClauseValue) (type : Option AttributeType) : Except QueryError Condition :=
  (ctx.encodeAll property elements type).map (Condition.mk operator)

theorem conditionWith_eq_ok_iff {operator : ComparisonOperator} {elements : List ClauseValue}
    {condition : Condition} :
    ctx.conditionWith property operator elements type = .ok condition ↔
      condition.operator = operator ∧
        List.Forall₂ (fun element encoded => ctx.encode property element type = .ok encoded)
          elements condition.values := by
  obtain ⟨op, encodings⟩ := condition
  rw [← mapM_eq_ok_iff]
  unfold conditionWith encodeAll
  cases elements.mapM fun value => ctx.encode property value type with
  | error e => simp [Except.map]
  | ok encoded => simp [Except.map, eq_comm]

theorem conditionWith_singleton (operator : ComparisonOperator) (value : ClauseValue) :
    ctx.conditionWith property operator [value] type =
      (ctx.encode property value type >>= fun encoded => .ok ⟨operator, [encoded]⟩) := by
  unfold conditionWith encodeAll
  rw [List.mapM_cons, List.mapM_nil]
  cases ctx.encode property value type <;> rfl

theorem between_eq (low high : ClauseValue) :
    ctx.between property low high type =
      ctx.conditionWith property .between [low, high] type := by
  unfold between conditionWith encodeAll
  rw [List.mapM_cons, List.mapM_cons, List.mapM_nil]
  cases ctx.encode property low type with
  | error e => rfl
  | ok _ => cases ctx.encode property high type <;> rfl

theorem membership_eq (values : List ClauseValue) :
    ctx.membership property values type =
      if (values.flatMap ClauseValue.items).isEmpty then
        .error (.unsupportedValue property .emptyMembership)
      else ctx.conditionWith property .isIn (values.flatMap ClauseValue.items) type := by
  have helements : membershipElements values = values.flatMap ClauseValue.items := rfl
  unfold membership conditionWith
  rw [helements]
  generalize values.flatMap ClauseValue.items = elements
  cases hencoded : ctx.encodeAll property elements type with
  | error e =>
    cases elements with
    | nil => cases hencoded
    | cons _ _ => rfl
  | ok encoded =>
    cases mapM_eq_ok_iff.1 hencoded with
    | nil => rfl
    | cons _ _ => rfl

theorem containment_eq (value : ClauseValue) (negated : Bool) :
    ctx.containment property value negated type =
      if value.items.length = 1 then
        ctx.conditionWith property (if negated then .notContains else .contains) value.items type
      else
        .error (.unsupportedValue property (.notSingleElement
          (if negated then .notContains else .contains) value.items.length)) := by
  unfold containment
  dsimp only
  generalize (if negated = true then ComparisonOperator.notContains else .contains) = operator
  split
  · simp only [ClauseValue.items, List.length_singleton, if_true, conditionWith_singleton]
    rfl
  · rename_i items hmany
    have hlength : items.length ≠ 1 := by
      intro hone
      obtain ⟨item, rfl⟩ := List.length_eq_one_iff.1 hone
      exact hmany item rfl
    rw [ClauseValue.items, if_neg hlength]
  · rename_i hscalar
    have hitems : value.items = [value] := by
      cases value <;> first | rfl | exact absurd rfl (hscalar _)
    simp only [hitems, List.length_singleton, if_true, conditionWith_singleton]
    rfl

/-! ## The condition of a clause -/

variable {clause : Clause}

theorem conditionOf_of_misfit (h : clause.operator.arity.allows clause.values.length = false) :
    ctx.conditionOf clause = .error (.unsupportedValue clause.property
      (.arity clause.operator clause.values.length)) := by
  obtain ⟨property, operator, values, type⟩ := clause
  rw [← Bool.not_eq_true, allows_iff] at h
  unfold conditionOf
  cases operator <;> simp_all [Operator.arity]

/-- A clause with as many values as its operator takes is translated element by element, or its
collections are refused. -/
theorem conditionOf_cases (ctx : EncodingContext)
    (hfits : clause.operator.arity.allows clause.values.length = true) :
    (∃ elements, clause.operator.elements? clause.values = some elements ∧
      ctx.conditionOf clause = ctx.conditionWith clause.property clause.operator.comparison elements
        clause.valueType) ∨
    clause.operator.elements? clause.values = none ∧
      ∃ fault, ctx.conditionOf clause = .error (.unsupportedValue clause.property fault) := by
  obtain ⟨property, operator, values, type⟩ := clause
  rw [allows_iff] at hfits
  cases operator with
  | eq | ne | gt | ge | lt | le | beginsWith =>
    obtain ⟨value, rfl⟩ := hfits
    exact Or.inl ⟨[value], rfl, (conditionWith_singleton _ value).symm⟩
  | between =>
    obtain ⟨low, high, rfl⟩ := hfits
    exact Or.inl ⟨[low, high], rfl, between_eq low high⟩
  | isIn =>
    obtain ⟨first, rest, rfl⟩ := hfits
    by_cases hempty : ((first :: rest).flatMap ClauseValue.items).isEmpty = true
    · exact Or.inr ⟨if_pos hempty, _, (membership_eq _).trans (if_pos hempty)⟩
    · exact Or.inl ⟨_, if_neg hempty, (membership_eq _).trans (if_neg hempty)⟩
  | contains | notContains =>
    obtain ⟨value, rfl⟩ := hfits
    by_cases hone : value.items.length = 1
    · refine Or.inl ⟨value.items, ?_, (containment_eq value _).trans (if_pos hone)⟩
      simp [Operator.elements?, hone]
    · refine Or.inr ⟨?_, _, (containment_eq value _).trans (if_neg hone)⟩
      simp [Operator.elements?, hone]
  | isNull | isNotNull =>
    cases hfits
    exact Or.inl ⟨[], rfl, rfl⟩
  | isTrue =>
    cases hfits
    exact Or.inl ⟨_, rfl, (conditionWith_singleton .eq (.boolean true)).symm⟩
  | isFalse =>
    cases hfits
    exact Or.inl ⟨_, rfl, (conditionWith_singleton .eq (.boolean false)).symm⟩

theorem conditionByPlace_eq (ctx : EncodingContext) (clause : Clause) :
    ctx.conditionByPlace clause = some (ctx.conditionOf clause) := by
  unfold conditionByPlace
  cases hfits : clause.operator.arity.allows clause.values.length with
  | false =>
    rw [conditionOf_of_misfit hfits]
    rfl
  | true =>
    obtain ⟨property, operator, values, type⟩ := clause
    rw [allows_iff] at hfits
    cases operator with
    | eq | ne | gt | ge | lt | le | beginsWith | contains | notContains =>
      obtain ⟨value, rfl⟩ := hfits
      rfl
    | between =>
      obtain ⟨low, high, rfl⟩ := hfits
      rfl
    | isIn =>
      obtain ⟨first, rest, rfl⟩ := hfits
      rfl
    | isNull | isNotNull | isTrue | isFalse =>
      cases hfits
      rfl

theorem conditionOf_eq_ok_iff {condition : Condition} :
    ctx.conditionOf clause = .ok condition ↔
      clause.operator.arity.allows clause.values.length = true ∧
        ∃ elements, clause.operator.elements? clause.values = some elements ∧
          condition.operator = clause.operator.comparison ∧
          List.Forall₂ (fun element encoded =>
            ctx.encode clause.property element clause.valueType = .ok encoded)
            elements condition.values := by
  cases hfits : clause.operator.arity.allows clause.values.length with
  | false => simp [conditionOf_of_misfit hfits]
  | true =>
    rcases ctx.conditionOf_cases hfits with ⟨elements, helements, heq⟩ | ⟨hnone, fault, herror⟩
    · simp [heq, helements, conditionWith_eq_ok_iff]
    · simp [herror, hnone]

theorem conditionOf_eq_error {e : QueryError} (h : ctx.conditionOf clause = .error e) :
    ∃ fault, e = .unsupportedValue clause.property fault := by
  cases hfits : clause.operator.arity.allows clause.values.length with
  | false =>
    rw [conditionOf_of_misfit hfits] at h
    cases h
    exact ⟨_, rfl⟩
  | true =>
    rcases ctx.conditionOf_cases hfits with ⟨elements, -, heq⟩ | ⟨-, fault, herror⟩
    · rw [heq] at h
      unfold conditionWith at h
      cases hall : ctx.encodeAll clause.property elements clause.valueType with
      | ok _ =>
        rw [hall] at h
        cases h
      | error e' =>
        rw [hall] at h
        cases h
        exact encodeAll_eq_error hall
    · rw [herror] at h
      cases h
      exact ⟨fault, rfl⟩

/-! ## The law -/

/-- No value is taken from a place that the clause does not have. A clause is translated exactly if
it has as many values as its operator takes and each of its elements can be encoded; the condition
has the operator's comparison and the encodings in the order of the elements. A clause that is not
translated fails with a fault of its property. -/
theorem a_clause_is_translated_element_by_element (ctx : EncodingContext) (clause : Clause) :
    ctx.conditionByPlace clause = some (ctx.conditionOf clause) ∧
    ((∃ condition, ctx.conditionOf clause = .ok condition) ↔
      clause.operator.arity.allows clause.values.length = true ∧
        ∃ elements, clause.operator.elements? clause.values = some elements ∧
          ∀ element ∈ elements, ∃ encoded,
            ctx.encode clause.property element clause.valueType = .ok encoded) ∧
    (∀ condition, ctx.conditionOf clause = .ok condition →
      condition.operator = clause.operator.comparison ∧
        ∃ elements, clause.operator.elements? clause.values = some elements ∧
          List.Forall₂ (fun element encoded =>
            ctx.encode clause.property element clause.valueType = .ok encoded)
            elements condition.values) ∧
    ∀ e, ctx.conditionOf clause = .error e →
      ∃ fault, e = .unsupportedValue clause.property fault := by
  refine ⟨ctx.conditionByPlace_eq clause, ?_, fun condition h => ?_,
    fun e h => conditionOf_eq_error h⟩
  · simp only [← exists_mapM_eq_ok_iff, mapM_eq_ok_iff]
    constructor
    · rintro ⟨condition, h⟩
      obtain ⟨hfits, elements, helements, -, hencoded⟩ := conditionOf_eq_ok_iff.1 h
      exact ⟨hfits, elements, helements, condition.values, hencoded⟩
    · rintro ⟨hfits, elements, helements, encoded, hencoded⟩
      exact ⟨⟨clause.operator.comparison, encoded⟩,
        conditionOf_eq_ok_iff.2 ⟨hfits, elements, helements, rfl, hencoded⟩⟩
  · obtain ⟨-, elements, helements, hoperator, hencoded⟩ := conditionOf_eq_ok_iff.1 h
    exact ⟨hoperator, elements, helements, hencoded⟩

/-- Notes on some topics. A collection stands for its items, but one within it does not. -/
def amongTopics (topics : List ClauseValue) : Clause :=
  .isIn "topic" [.list topics, .string "logic"]

theorem topics_are_opened_one_level :
    (∃ condition,
      (⟨noteSchema, {}⟩ : EncodingContext).conditionOf
          (amongTopics [.string "lean", .integer 2]) = .ok condition ∧
        condition.operator = .isIn ∧
        condition.values = [.string "lean", .number "2", .string "logic"]) ∧
      ∃ e fault, (⟨noteSchema, {}⟩ : EncodingContext).conditionOf
          (amongTopics [.string "lean", .list [.string "coq"]]) = .error e ∧
        e = .unsupportedValue "topic" fault := by
  have hok : (⟨noteSchema, {}⟩ : EncodingContext).conditionOf
      (amongTopics [.string "lean", .integer 2]) =
        .ok ⟨.isIn, [.string "lean", .number "2", .string "logic"]⟩ := by
    decide +kernel
  have herror : (⟨noteSchema, {}⟩ : EncodingContext).conditionOf
      (amongTopics [.string "lean", .list [.string "coq"]]) =
        .error (.unsupportedValue "topic" .collection) := by
    decide +kernel
  obtain ⟨-, -, hcondition, -⟩ := a_clause_is_translated_element_by_element ⟨noteSchema, {}⟩
    (amongTopics [.string "lean", .integer 2])
  obtain ⟨-, -, -, hfault⟩ := a_clause_is_translated_element_by_element ⟨noteSchema, {}⟩
    (amongTopics [.string "lean", .list [.string "coq"]])
  obtain ⟨fault, he⟩ := hfault _ herror
  exact ⟨⟨_, hok, (hcondition _ hok).1, rfl⟩, _, fault, herror, he⟩

end EncodingContext

end KeyAccess
