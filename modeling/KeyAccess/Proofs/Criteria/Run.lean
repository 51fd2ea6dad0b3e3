-- Runs of criteria. Every way to change criteria is a call, criteria are reached by calls that all
-- succeed, and a call does nothing to the conditions but add those of its clauses.
import Mathlib
import KeyAccess.Criteria
import KeyAccess.Proofs.Outcome

namespace KeyAccess

/-- A condition on a property and on the attribute that a schema holds it in. -/
def KeySchema.conditionOn (s : KeySchema) (property : String) (condition : Condition) :
    AttributeCondition := ⟨property, s.attributeName property, condition⟩

theorem KeySchema.isPartitionKey_iff {s : KeySchema} {property : String} :
    s.isPartitionKey property = true ↔ property = s.partitionKey := by
  unfold isPartitionKey partitionKey
  rw [beq_iff_eq, eq_comm]

theorem KeySchema.isSortKey_iff {s : KeySchema} {property : String} :
    s.isSortKey property = true ↔ s.sortKey = some property := by
  unfold isSortKey sortKey
  rw [beq_iff_eq]

/-- An equality on the partition key. -/
def KeySchema.Pins (s : KeySchema) (a : AttributeCondition) : Prop :=
  a.property = s.partitionKey ∧ a.condition.isEquality = true

instance (s : KeySchema) (a : AttributeCondition) : Decidable (s.Pins a) :=
  inferInstanceAs (Decidable (_ ∧ _))

/-! ## Calls -/

/-- One call that adds to criteria or changes them. -/
inductive Call
  | clause (clause : Clause)
  | equality (property : String) (value : ClauseValue)
  | range (property : String) (operator : Operator) (value : ClauseValue)
  | between (property : String) (low high : ClauseValue)
  | membership (property : String) (values : List ClauseValue)
  | nullCheck (property : String) (expectNull : Bool)
  | predicate (p : Predicate)
  | filter (filter : RawFilter)
  | sort (order : SortOrder)
  | limit (limit : UInt32)
  | consistency (mode : ConsistencyMode)
  | projection (projection : String)
  | config (config : QueryConfig)
  | scanPolicy (policy : ScanPolicy)
  | converters (converters : ConverterRegistry)
  | shape (shape : ResultShape)

/-- The clauses that a call adds. -/
def Call.clauses : Call → List Clause
  | .clause added => [added]
  | .equality property value => [.equals property value]
  | .range property operator value => [.single property operator value]
  | .between property low high => [.between property low high]
  | .membership property values => [.isIn property values]
  | .nullCheck property expectNull => [.nullCheck property expectNull]
  | .predicate p => p.orParts.flatten
  | .filter _ | .sort _ | .limit _ | .consistency _ | .projection _ | .config _ | .scanPolicy _
  | .converters _ | .shape _ => []

namespace Criteria

/-- The criteria after a call. -/
def apply (c : Criteria) : Call → Except QueryError Criteria
  | .clause clause => c.withClause clause
  | .equality property value => c.withEquality property value
  | .range property operator value => c.withRange property operator value
  | .between property low high => c.withBetween property low high
  | .membership property values => c.withMembership property values
  | .nullCheck property expectNull => c.withNullCheck property expectNull
  | .predicate p => c.withPredicate p
  | .filter filter => c.withFilter filter
  | .sort order => .ok (c.withSort order)
  | .limit limit => .ok (c.withLimit limit)
  | .consistency mode => .ok (c.withConsistency mode)
  | .projection projection => .ok (c.withProjection projection)
  | .config config => .ok (c.withConfig config)
  | .scanPolicy policy => .ok (c.withScanPolicy policy)
  | .converters converters => .ok (c.withConverters converters)
  | .shape shape => .ok (c.withShape shape)

/-- The criteria after some calls. -/
def run (c : Criteria) (calls : List Call) : Except QueryError Criteria := calls.foldlM apply c

/-- Criteria for an entity with a schema, after calls that all succeeded. New criteria without an
entity are those of an entity with the default configuration. -/
def Reachable (schema : KeySchema) (c : Criteria) : Prop :=
  ∃ (config : QueryConfig) (calls : List Call), (ofEntity ⟨schema, config⟩).run calls = .ok c

/-- The same conditions, in the same places. -/
structure SameConditions (c c' : Criteria) : Prop where
  schema : c'.schema = c.schema
  partition : c'.partitionEquality = c.partitionEquality
  sort : c'.sortCondition = c.sortCondition
  others : c'.otherConditions = c.otherConditions

theorem SameConditions.allConditions {c c' : Criteria} (h : SameConditions c c') :
    c'.allConditions = c.allConditions := by
  unfold Criteria.allConditions
  rw [h.partition, h.sort, h.others]

/-- The same but for the conditions and the places where they stand. -/
structure SameRest (c c' : Criteria) : Prop where
  schema : c'.schema = c.schema
  converters : c'.converters = c.converters
  config : c'.config = c.config
  sort : c'.sort = c.sort
  filter : c'.filter = c.filter

theorem SameRest.refl (c : Criteria) : SameRest c c := ⟨rfl, rfl, rfl, rfl, rfl⟩

theorem SameRest.symm {c c' : Criteria} (h : SameRest c c') : SameRest c' c :=
  ⟨h.schema.symm, h.converters.symm, h.config.symm, h.sort.symm, h.filter.symm⟩

theorem SameRest.trans {c₁ c₂ c₃ : Criteria} (h : SameRest c₁ c₂) (h' : SameRest c₂ c₃) :
    SameRest c₁ c₃ :=
  ⟨h'.schema.trans h.schema, h'.converters.trans h.converters, h'.config.trans h.config,
    h'.sort.trans h.sort, h'.filter.trans h.filter⟩

theorem SameRest.context {c c' : Criteria} (h : SameRest c c') : c'.context = c.context := by
  unfold Criteria.context
  rw [h.schema, h.converters]

/-! ## Placing a condition -/

/-- The criteria with a condition in its place, where an equality on the partition key has one
whether or not there is an earlier one. -/
def put (c : Criteria) (a : AttributeCondition) : Criteria :=
  if c.schema.Pins a then { c with partitionEquality := some a }
  else if c.schema.sortKey = some a.property ∧ c.sortCondition = none then
    { c with sortCondition := some a }
  else { c with otherConditions := c.otherConditions.update a.property [] (· ++ [a]) }

theorem put_of_pins {c : Criteria} {a : AttributeCondition} (h : c.schema.Pins a) :
    c.put a = { c with partitionEquality := some a } := if_pos h

theorem put_of_sort {c : Criteria} {a : AttributeCondition} (h : ¬ c.schema.Pins a)
    (hsort : c.schema.sortKey = some a.property ∧ c.sortCondition = none) :
    c.put a = { c with sortCondition := some a } := by
  unfold put
  rw [if_neg h, if_pos hsort]

theorem put_of_other {c : Criteria} {a : AttributeCondition} (h : ¬ c.schema.Pins a)
    (hsort : ¬ (c.schema.sortKey = some a.property ∧ c.sortCondition = none)) :
    c.put a =
      { c with otherConditions := c.otherConditions.update a.property [] (· ++ [a]) } := by
  unfold put
  rw [if_neg h, if_neg hsort]

theorem put_partitionEquality (c : Criteria) (a : AttributeCondition) :
    (c.put a).partitionEquality = if c.schema.Pins a then some a else c.partitionEquality := by
  unfold put
  split
  · rfl
  · split <;> rfl

/-- A condition is placed unless it is a second equality on the partition key. -/
theorem place_eq_ok_iff {c c' : Criteria} {property : String} {condition : Condition} :
    c.place property condition = .ok c' ↔
      (c.schema.Pins (c.schema.conditionOn property condition) → c.partitionEquality = none) ∧
        c.put (c.schema.conditionOn property condition) = c' := by
  have hpins : (c.schema.isPartitionKey property && condition.isEquality) = true ↔
      c.schema.Pins (c.schema.conditionOn property condition) := by
    rw [Bool.and_eq_true, KeySchema.isPartitionKey_iff]
    rfl
  have hsort : (c.schema.isSortKey property && c.sortCondition.isNone) = true ↔
      c.schema.sortKey = some property ∧ c.sortCondition = none := by
    rw [Bool.and_eq_true, KeySchema.isSortKey_iff, Option.isNone_iff_eq_none]
  unfold place
  simp only [hpins, hsort, Option.isSome_iff_ne_none, ne_eq]
  by_cases hp : c.schema.Pins (c.schema.conditionOn property condition)
  · rw [if_pos hp, put_of_pins hp]
    by_cases hfree : c.partitionEquality = none
    · simp only [hfree, not_true_eq_false, if_false, Except.ok.injEq, implies_true, true_and]
      rfl
    · simp [hfree, hp]
  · rw [if_neg hp]
    by_cases hs : c.schema.sortKey = some property ∧ c.sortCondition = none
    · rw [if_pos hs, put_of_sort hp hs, Except.ok.injEq]
      exact ⟨fun h => ⟨fun h' => absurd h' hp, h⟩, And.right⟩
    · rw [if_neg hs, put_of_other hp hs, Except.ok.injEq]
      exact ⟨fun h => ⟨fun h' => absurd h' hp, h⟩, And.right⟩

/-- A condition that is placed is the equality on the partition key, the first condition on the
sort key, or one more of the others. -/
theorem place_cases {c c' : Criteria} {property : String} {condition : Condition}
    (h : c.place property condition = .ok c') :
    (property = c.schema.partitionKey ∧ condition.isEquality = true ∧
      c.partitionEquality = none ∧
      c' = { c with partitionEquality := some (c.schema.conditionOn property condition) }) ∨
    (c.schema.sortKey = some property ∧ c.sortCondition = none ∧
      c' = { c with sortCondition := some (c.schema.conditionOn property condition) }) ∨
    (¬ (property = c.schema.partitionKey ∧ condition.isEquality = true) ∧
      (c.schema.sortKey = some property → c.sortCondition.isSome = true) ∧
      c' = { c with
        otherConditions := c.otherConditions.update property []
          (· ++ [c.schema.conditionOn property condition]) }) := by
  obtain ⟨hfree, rfl⟩ := place_eq_ok_iff.1 h
  by_cases hp : c.schema.Pins (c.schema.conditionOn property condition)
  · exact Or.inl ⟨hp.1, hp.2, hfree hp, put_of_pins hp⟩
  · by_cases hs : c.schema.sortKey = some property ∧ c.sortCondition = none
    · exact Or.inr (Or.inl ⟨hs.1, hs.2, put_of_sort hp hs⟩)
    · refine Or.inr (Or.inr ⟨hp, fun hsort => ?_, put_of_other hp hs⟩)
      rw [Option.isSome_iff_ne_none]
      exact fun hnone => hs ⟨hsort, hnone⟩

theorem sameRest_put (c : Criteria) (a : AttributeCondition) : SameRest c (c.put a) := by
  unfold put
  split
  · exact ⟨rfl, rfl, rfl, rfl, rfl⟩
  · split <;> exact ⟨rfl, rfl, rfl, rfl, rfl⟩

theorem place_frame {c c' : Criteria} {property : String} {condition : Condition}
    (h : c.place property condition = .ok c') : SameRest c c' := by
  obtain ⟨-, rfl⟩ := place_eq_ok_iff.1 h
  exact sameRest_put c _

/-! ## What one call does -/

theorem withClauses_singleton (c : Criteria) (clause : Clause) :
    c.withClauses [clause] = c.withClause clause := by
  unfold withClauses
  rw [List.foldlM_cons]
  cases c.withClause clause <;> rfl

theorem withClause_eq_ok_iff {c c' : Criteria} {clause : Clause} :
    c.withClause clause = .ok c' ↔
      ∃ condition, c.context.conditionOf clause = .ok condition ∧
        c.place clause.property condition = .ok c' := bind_eq_ok_iff

theorem withClauses_frame {c c' : Criteria} {clauses : List Clause}
    (h : c.withClauses clauses = .ok c') : SameRest c c' := by
  induction clauses generalizing c with
  | nil => cases h; exact .refl _
  | cons clause rest ih =>
    unfold withClauses at h
    rw [List.foldlM_cons] at h
    obtain ⟨c₁, hclause, hrest⟩ := bind_eq_ok_iff.1 h
    obtain ⟨condition, -, hplace⟩ := withClause_eq_ok_iff.1 hclause
    exact (place_frame hplace).trans (ih hrest)

theorem withFilter_ok {c c' : Criteria} {f : RawFilter} (h : c.withFilter f = .ok c') :
    c.filter = none ∧ ∃ b, f.bind c.context = .ok b ∧ c' = { c with filter := some b } := by
  unfold withFilter at h
  dsimp only at h
  split at h
  · cases h
  · rename_i hfree
    obtain ⟨b, hb, h⟩ := bind_eq_ok_iff.1 h
    cases h
    exact ⟨by simpa using hfree, b, hb, rfl⟩

theorem withFilter_of_bind {c : Criteria} {f : RawFilter} {b : BoundFilter}
    (hfree : c.filter = none) (h : f.bind c.context = .ok b) :
    c.withFilter f = .ok { c with filter := some b } := by
  unfold withFilter
  rw [hfree, h]
  rfl

/-- The converters that are in force after a call. -/
def convertersAfter (current : ConverterRegistry) : Call → ConverterRegistry
  | .converters converters => converters
  | _ => current

/-- A call adds its clauses and leaves their conditions in place. It changes the filter only to one
that was bound under the criteria before it. -/
theorem apply_cases {c c' : Criteria} {call : Call} (h : c.apply call = .ok c') :
    ∃ c₁, c.withClauses call.clauses = .ok c₁ ∧ SameConditions c₁ c' ∧
      c'.converters = convertersAfter c.converters call ∧
      (c'.filter = c.filter ∨ ∃ (f : RawFilter) (b : BoundFilter),
        f.bind c.context = .ok b ∧ c'.filter = some b) := by
  have hclause : ∀ {clause : Clause}, c.withClause clause = .ok c' →
      ∃ c₁, c.withClauses [clause] = .ok c₁ ∧ SameConditions c₁ c' ∧
        c'.converters = c.converters ∧ (c'.filter = c.filter ∨ ∃ (f : RawFilter) (b : BoundFilter),
          f.bind c.context = .ok b ∧ c'.filter = some b) := by
    intro clause hc
    rw [← withClauses_singleton] at hc
    have hrest := withClauses_frame hc
    exact ⟨c', hc, ⟨rfl, rfl, rfl, rfl⟩, hrest.converters, Or.inl hrest.filter⟩
  cases call with
  | clause clause => exact hclause h
  | equality property value => exact hclause h
  | range property operator value =>
    change c.withRange property operator value = .ok c' at h
    unfold withRange at h
    split at h
    · cases h
    · exact hclause h
  | between property low high => exact hclause h
  | membership property values => exact hclause h
  | nullCheck property expectNull => exact hclause h
  | predicate p =>
    change c.withPredicate p = .ok c' at h
    unfold withPredicate at h
    dsimp only at h
    split at h
    · cases h
    · obtain ⟨c₁, hc, h⟩ := bind_eq_ok_iff.1 h
      have hrest := withClauses_frame hc
      cases h
      exact ⟨c₁, hc, ⟨rfl, rfl, rfl, rfl⟩, hrest.converters, Or.inl hrest.filter⟩
  | filter filter =>
    obtain ⟨-, b, hb, rfl⟩ := withFilter_ok h
    exact ⟨c, rfl, ⟨rfl, rfl, rfl, rfl⟩, rfl, Or.inr ⟨filter, b, hb, rfl⟩⟩
  | sort _ | limit _ | consistency _ | projection _ | config _ | scanPolicy _ | converters _
  | shape _ =>
    cases h
    exact ⟨c, rfl, ⟨rfl, rfl, rfl, rfl⟩, rfl, Or.inl rfl⟩

/-! ## What a run does -/

theorem run_cons {c c' : Criteria} {call : Call} {calls : List Call} :
    c.run (call :: calls) = .ok c' ↔ ∃ c₁, c.apply call = .ok c₁ ∧ c₁.run calls = .ok c' := by
  unfold run
  rw [List.foldlM_cons]
  exact bind_eq_ok_iff

theorem run_schema {calls : List Call} {c c' : Criteria} (h : c.run calls = .ok c') :
    c'.schema = c.schema := by
  induction calls generalizing c with
  | nil => cases h; rfl
  | cons call rest ih =>
    obtain ⟨c₁, happly, hrest⟩ := run_cons.1 h
    obtain ⟨c₂, hadd, hkeep, -⟩ := apply_cases happly
    rw [ih hrest, hkeep.schema, (withClauses_frame hadd).schema]

theorem Reachable.schema_eq {schema : KeySchema} {c : Criteria} (h : Reachable schema c) :
    c.schema = schema := by
  obtain ⟨config, calls, hrun⟩ := h
  exact run_schema hrun

/-- What every placed condition and every change around the conditions keeps holds after a run. -/
theorem run_induction {P : Criteria → Prop}
    (hplace : ∀ {c c' : Criteria} {clause : Clause} {condition : Condition}, P c →
      c.context.conditionOf clause = .ok condition →
      c.place clause.property condition = .ok c' → P c')
    (hsame : ∀ {c c₁ c' : Criteria}, P c₁ → c₁.filter = c.filter → SameConditions c₁ c' →
      (c'.filter = c.filter ∨ ∃ (f : RawFilter) (b : BoundFilter),
        f.bind c.context = .ok b ∧ c'.filter = some b) → P c')
    {c c' : Criteria} {calls : List Call} (h : P c) (hrun : c.run calls = .ok c') : P c' := by
  have hclauses : ∀ (clauses : List Clause) {c c' : Criteria}, P c →
      c.withClauses clauses = .ok c' → P c' := by
    intro clauses
    induction clauses with
    | nil => intro c c' hc hw; cases hw; exact hc
    | cons clause rest ih =>
      intro c c' hc hw
      unfold withClauses at hw
      rw [List.foldlM_cons] at hw
      obtain ⟨c₁, hclause, hrest⟩ := bind_eq_ok_iff.1 hw
      obtain ⟨condition, hcond, hp⟩ := withClause_eq_ok_iff.1 hclause
      exact ih (hplace hc hcond hp) hrest
  induction calls generalizing c with
  | nil => cases hrun; exact h
  | cons call calls ih =>
    obtain ⟨c₁, happly, hrest⟩ := run_cons.1 hrun
    obtain ⟨c₂, hadd, hkeep, -, hfilter⟩ := apply_cases happly
    exact ih (hsame (hclauses _ h hadd) (withClauses_frame hadd).filter hkeep hfilter) hrest

end Criteria

end KeyAccess
