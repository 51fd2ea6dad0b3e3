-- Criteria over the same entity with other indexes. Nothing that is done to criteria looks at the
-- indexes, so the same calls lead to the same criteria, or fail in the same way.
import Mathlib
import KeyAccess.Proofs.Criteria.Run
import KeyAccess.Proofs.Schema.IndexOrder

namespace KeyAccess

namespace Criteria

/-- The criteria over the schema with other indexes. -/
def withIndexes (indexes : List IndexDefinition) (c : Criteria) : Criteria :=
  { c with schema := c.schema.withIndexes indexes }

variable {c : Criteria} {indexes : List IndexDefinition}

section Commute

variable {ε α β : Type} {step : β → α → Except ε β} {g : β → β}

/-- What commutes with every step commutes with a run of steps, failures included. -/
theorem foldlM_map_comm (hstep : ∀ s a, step (g s) a = (step s a).map g) (l : List α) (s : β) :
    l.foldlM step (g s) = (l.foldlM step s).map g := by
  induction l generalizing s with
  | nil => rfl
  | cons a l ih =>
    rw [List.foldlM_cons, List.foldlM_cons, hstep]
    cases step s a with
    | error e => rfl
    | ok s' => exact ih s'

end Commute

theorem place_withIndexes (c : Criteria) (property : String) (condition : Condition) :
    (c.withIndexes indexes).place property condition =
      (c.place property condition).map (withIndexes indexes) := by
  unfold place
  dsimp only
  change (if c.schema.isPartitionKey property && condition.isEquality then _
    else if c.schema.isSortKey property && c.sortCondition.isNone then _ else _) = _
  split
  · change (if c.partitionEquality.isSome then _ else _) = _
    split <;> rfl
  · split <;> rfl

theorem withClause_withIndexes (c : Criteria) (clause : Clause) :
    (c.withIndexes indexes).withClause clause =
      (c.withClause clause).map (withIndexes indexes) := by
  have hcondition : (c.withIndexes indexes).context.conditionOf clause =
      c.context.conditionOf clause := rfl
  unfold withClause
  rw [hcondition]
  cases c.context.conditionOf clause with
  | error e => rfl
  | ok condition => exact place_withIndexes c clause.property condition

theorem withClauses_withIndexes (c : Criteria) (clauses : List Clause) :
    (c.withIndexes indexes).withClauses clauses =
      (c.withClauses clauses).map (withIndexes indexes) :=
  foldlM_map_comm withClause_withIndexes clauses c

theorem withFilter_withIndexes (c : Criteria) (f : RawFilter) :
    (c.withIndexes indexes).withFilter f = (c.withFilter f).map (withIndexes indexes) := by
  have hbind : f.bind (c.withIndexes indexes).context = f.bind c.context := rfl
  unfold withFilter
  rw [hbind]
  change (if c.filter.isSome then _ else _) = _
  split
  · rfl
  · cases f.bind c.context <;> rfl

theorem withPredicate_withIndexes (c : Criteria) (p : Predicate) :
    (c.withIndexes indexes).withPredicate p = (c.withPredicate p).map (withIndexes indexes) := by
  unfold withPredicate
  rw [withClauses_withIndexes]
  split
  · rfl
  · cases c.withClauses p.orParts.flatten <;> rfl

theorem apply_withIndexes (c : Criteria) (call : Call) :
    (c.withIndexes indexes).apply call = (c.apply call).map (withIndexes indexes) := by
  cases call with
  | clause clause => exact withClause_withIndexes c clause
  | equality property value => exact withClause_withIndexes c _
  | range property operator value =>
    change (c.withIndexes indexes).withRange property operator value =
      (c.withRange property operator value).map (withIndexes indexes)
    unfold withRange
    split
    · rfl
    · exact withClause_withIndexes c _
  | between property low high => exact withClause_withIndexes c _
  | membership property values => exact withClause_withIndexes c _
  | nullCheck property expectNull => exact withClause_withIndexes c _
  | predicate p => exact withPredicate_withIndexes c p
  | filter filter => exact withFilter_withIndexes c filter
  | sort _ | limit _ | consistency _ | projection _ | config _ | scanPolicy _ | converters _
  | shape _ => rfl

/-- The same calls lead to the same criteria over other indexes. -/
theorem run_withIndexes (c : Criteria) (calls : List Call) :
    (c.withIndexes indexes).run calls = (c.run calls).map (withIndexes indexes) :=
  foldlM_map_comm apply_withIndexes calls c

end Criteria

end KeyAccess
