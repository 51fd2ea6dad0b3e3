-- The law of ambiguity. Where the primary key serves nothing and two indexes are declared on
-- exactly the conditioned properties, no index is preferred and the failure names them all. Every
-- other failure of the choice is that the query is not supported.
import Mathlib
import KeyAccess.Proofs.AccessPath.Cheapest

namespace KeyAccess

namespace Criteria

/-- The choice comes to the indexes, and two of them have exactly the conditioned properties as
their members. -/
structure Ambiguous (c : Criteria) : Prop where
  not_load : ¬ c.FullyPinned
  not_primary : ¬ c.PrimaryServed
  conditioned : c.allConditions ≠ []
  two : ∃ i ∈ c.schema.indexes, ∃ j ∈ c.schema.indexes, i ≠ j ∧ c.MatchedBy i ∧ c.MatchedBy j

/-- What the failure names: the indexes that have exactly the conditioned properties as their
members, and these properties, both ascending. -/
structure Named (c : Criteria) (indexes properties : List String) : Prop where
  indexes_ascending : indexes.Pairwise (fun a b => a < b)
  mem_indexes : ∀ name, name ∈ indexes ↔
    ∃ i ∈ c.schema.indexes, i.name = name ∧ c.MatchedBy i
  properties_ascending : properties.Pairwise (fun a b => a < b)
  mem_properties : ∀ property, property ∈ properties ↔
    ∃ a ∈ c.allConditions, a.property = property

end Criteria

/-! ## The failure of the candidates -/

/-- Indexes with names of their own are listed in strictly ascending order. -/
theorem ascending_sortByName {indexes : List IndexDefinition}
    (hnames : (indexes.map IndexDefinition.name).Nodup) :
    ((sortByName indexes).map IndexDefinition.name).Pairwise (fun a b => a < b) := by
  have hperm : (sortByName indexes).Perm indexes := List.mergeSort_perm indexes _
  have hdiffer := (hperm.map IndexDefinition.name).nodup_iff.2 hnames
  rw [List.Nodup, List.pairwise_map] at hdiffer
  rw [List.pairwise_map]
  refine ((pairwise_sortByName indexes).and hdiffer).imp ?_
  rintro i j ⟨hle, hne⟩
  exact lt_of_le_of_ne hle hne

theorem indexCandidates_eq_error {indexes : List IndexDefinition} {properties : List String}
    {e : QueryError} (h : indexCandidates indexes properties = .error e) :
    e = .ambiguousIndex ((sortByName (indexes.filter fun i => i.matchesExactly properties)).map
      IndexDefinition.name) properties := by
  have hexact : (indexes.filter fun i => i.covers properties).filter
      (fun i => i.matchesExactly properties) =
      indexes.filter fun i => i.matchesExactly properties := by
    rw [List.filter_filter]
    refine List.filter_congr (fun i _ => ?_)
    unfold IndexDefinition.matchesExactly
    cases i.covers properties <;> simp
  unfold indexCandidates at h
  split at h
  · cases h
  · dsimp only at h
    rw [hexact] at h
    split at h
    · cases h
      rfl
    · cases h

namespace AccessPath

variable {c : Criteria} {e : QueryError}

theorem named_of_indexCandidates (hs : c.schema.Sound) {names properties : List String}
    (h : indexCandidates c.schema.indexes c.conditionsByProperty.keys =
      .error (.ambiguousIndex names properties)) : c.Named names properties := by
  have heq := indexCandidates_eq_error h
  simp only [QueryError.ambiguousIndex.injEq] at heq
  obtain ⟨rfl, rfl⟩ := heq
  refine ⟨?_, fun name => ?_, c.conditionsByProperty.keys_ascending,
    c.mem_keys_conditionsByProperty⟩
  · exact ascending_sortByName (hs.names_differ.sublist (List.filter_sublist.map _))
  · simp only [List.mem_map, mem_sortByName, List.mem_filter, Criteria.matchesExactly_keys_iff]
    constructor
    · rintro ⟨i, ⟨hi, hmatched⟩, rfl⟩
      exact ⟨i, hi, rfl, hmatched⟩
    · rintro ⟨i, hi, rfl, hmatched⟩
      exact ⟨i, ⟨hi, hmatched⟩, rfl⟩

/-! ## The failures of the other steps -/

/-- The primary key is passed over exactly if it serves neither a load nor a query. -/
theorem primaryKey_passed_iff (h : c.Sound) (hs : c.schema.Sound) :
    directLoad? c.schema c = none ∧ primaryQuery? c.schema c = .ok none ↔
      ¬ c.FullyPinned ∧ ¬ c.PrimaryServed := by
  constructor
  · rintro ⟨hload, hprimary⟩
    constructor
    · intro hpin
      obtain ⟨v, w, hsome, -⟩ := directLoad?_of_fullyPinned h hs hpin
      rw [hsome] at hload
      cases hload
    · rintro ⟨s, hsort, hserved⟩
      obtain ⟨v, -, hquery⟩ := primaryQuery?_of_served h hs hsort hserved
      rw [hquery] at hprimary
      split at hprimary
      · cases hprimary
      · split at hprimary <;> cases hprimary
  · rintro ⟨hpin, hnot⟩
    refine ⟨directLoad?_eq_none h hs hpin, primaryQuery?_of_not_served h hs ?_⟩
    intro s hsort hserved
    exact hnot ⟨s, hsort, hserved⟩

theorem primaryQuery?_eq_error {schema : KeySchema} (h : primaryQuery? schema c = .error e) :
    ∃ fault, e = .unsupportedOperation fault := by
  unfold primaryQuery? at h
  repeat' split at h
  all_goals cases h
  exact ⟨_, rfl⟩

theorem firstIndexQuery_eq_error {sort : List SortOrder}
    {byProperty : SortedMap (List AttributeCondition)} {fault? : Option OperationFault}
    {l : List IndexDefinition} (h : firstIndexQuery sort byProperty fault? l = .error e) :
    ∃ fault, e = .unsupportedOperation fault := by
  fun_induction firstIndexQuery sort byProperty fault? l with
  | case1 => cases h
  | case2 fault =>
    cases h
    exact ⟨fault, rfl⟩
  | case3 _ _ _ _ ih => exact ih h
  | case4 => cases h
  | case5 _ _ _ _ _ _ _ _ ih => exact ih h

theorem scanOf_eq_error {schema : KeySchema} (h : scanOf schema c = .error e) :
    ∃ fault, e = .unsupportedOperation fault := by
  unfold scanOf at h
  split at h
  · cases h
    exact ⟨_, rfl⟩
  · split at h
    · cases h
      exact ⟨_, rfl⟩
    · cases h

/-- The choice does not support the query, or it comes to the indexes and fails as its candidates
do. -/
theorem select_eq_error {schema : KeySchema} (h : select schema c = .error e) :
    (∃ fault, e = .unsupportedOperation fault) ∨
      (directLoad? schema c = none ∧ primaryQuery? schema c = .ok none ∧
        indexCandidates schema.indexes c.conditionsByProperty.keys = .error e) := by
  unfold select at h
  dsimp only at h
  split at h
  · cases h
    exact Or.inl ⟨_, rfl⟩
  · split at h
    · cases h
    · rename_i hload
      rcases bind_eq_error_iff.1 h with hprimary | ⟨primary?, hprimary, h⟩
      · exact Or.inl (primaryQuery?_eq_error hprimary)
      · split at h
        · cases h
        · rcases bind_eq_error_iff.1 h with hindex | ⟨index?, -, h⟩
          · rcases bind_eq_error_iff.1 hindex with hcandidates | ⟨l, -, hfirst⟩
            · exact Or.inr ⟨hload, hprimary, hcandidates⟩
            · exact Or.inl (firstIndexQuery_eq_error hfirst)
          · split at h
            · cases h
            · exact Or.inl (scanOf_eq_error h)

theorem ambiguous_of_select (h : c.Sound) (hs : c.schema.Sound) {names properties : List String}
    (hselect : select c.schema c = .error (.ambiguousIndex names properties)) :
    c.Ambiguous ∧ c.Named names properties := by
  rcases select_eq_error hselect with ⟨fault, hfault⟩ | ⟨hload, hprimary, hcandidates⟩
  · cases hfault
  · obtain ⟨hpin, hnot⟩ := (primaryKey_passed_iff h hs).1 ⟨hload, hprimary⟩
    have hun : ¬ c.Unambiguous := by
      intro hun
      obtain ⟨l, hl⟩ := indexCandidates_isOk (List.Nodup.of_map _ hs.names_differ) hun
      rw [hl] at hcandidates
      cases hcandidates
    simp only [Criteria.Unambiguous, not_forall] at hun
    obtain ⟨i, hi, j, hj, him, hjm, hne⟩ := hun
    obtain ⟨a, ha, -⟩ := (him i.partition).1 List.mem_cons_self
    exact ⟨⟨hpin, hnot, List.ne_nil_of_mem ha, i, hi, j, hj, hne, him, hjm⟩,
      named_of_indexCandidates hs hcandidates⟩

theorem select_of_ambiguous (h : c.Sound) (hs : c.schema.Sound) (hone : c.sort.length ≤ 1)
    (hambiguous : c.Ambiguous) : ∃ names properties,
    select c.schema c = .error (.ambiguousIndex names properties) := by
  obtain ⟨hpin, hnot, -, i, hi, j, hj, hne, him, hjm⟩ := hambiguous
  apply ((select_cheapestFirst h hs hone).otherwise hpin hnot).ambiguous
  intro hun
  exact hne (hun i hi j hj him hjm)

end AccessPath

/-! ## The law -/

namespace Criteria

/-- With at most one order, the choice reports an ambiguity exactly if there is one, and then it
names the indexes and the properties that make it. Every other failure is of a query that is not
supported. -/
theorem an_ambiguity_is_reported_exactly_if_there_is_one {α : Type} {schema : KeySchema}
    {c : Criteria} (hbuilt : schema.Built) (hreach : Reachable schema c)
    (hone : c.sort.length ≤ 1) :
    (AccessPath.directLoad? c.schema c = none ∧ AccessPath.primaryQuery? c.schema c = .ok none ↔
      ¬ c.FullyPinned ∧ ¬ c.PrimaryServed) ∧
    ((∃ names properties, (c.accessPath : Traced α QueryError AccessPath).outcome =
      .error (.ambiguousIndex names properties)) ↔ c.Ambiguous) ∧
    (∀ names properties, (c.accessPath : Traced α QueryError AccessPath).outcome =
      .error (.ambiguousIndex names properties) → c.Named names properties) ∧
    ∀ e, (c.accessPath : Traced α QueryError AccessPath).outcome = .error e → ¬ c.Ambiguous →
      ∃ fault, e = .unsupportedOperation fault := by
  have hs := hreach.schema_sound hbuilt
  rw [AccessPath.accessPath_outcome]
  refine ⟨AccessPath.primaryKey_passed_iff hreach.sound hs, ⟨?_, ?_⟩, ?_, ?_⟩
  · rintro ⟨names, properties, hselect⟩
    exact (AccessPath.ambiguous_of_select hreach.sound hs hselect).1
  · exact AccessPath.select_of_ambiguous hreach.sound hs hone
  · intro names properties hselect
    exact (AccessPath.ambiguous_of_select hreach.sound hs hselect).2
  · intro e hselect hnot
    rcases AccessPath.select_eq_error hselect with hfault | ⟨-, -, hcandidates⟩
    · exact hfault
    · rw [indexCandidates_eq_error hcandidates] at hselect
      exact absurd (AccessPath.ambiguous_of_select hreach.sound hs hselect).1 hnot

end Criteria

/-! ## Two indexes on the same properties -/

/-- Notes by an identity of their own, with two indexes on topic and day that differ in the roles of
their members. -/
def mirroredDraft : SchemaDraft :=
  SchemaDraft.declareAll { entity := "note" }
    [.partitionKey "id", .index ⟨"topicDays", "topic", some "day"⟩,
      .index ⟨"dayTopics", "day", some "topic"⟩]

def mirroredSchema : KeySchema :=
  { entity := "note"
    tableName := "note"
    shape := .partitionOnly "id"
    properties := mirroredDraft.properties
    indexes := mirroredDraft.indexes
    memberships := SchemaDraft.membershipsOf mirroredDraft.indexes }

theorem mirroredSchema_built : mirroredSchema.Built := ⟨mirroredDraft, by decide⟩

namespace Criteria

/-- The notes on a topic from a day on. -/
def recentOnTopic : List Call := [.equality "topic" (.string "x"), .range "day" .ge (.string "a")]

/-- Either index would serve both conditions, so neither is chosen. -/
theorem mirrored_indexes_are_ambiguous :
    ∃ c names, (ofEntity ⟨mirroredSchema, {}⟩).run recentOnTopic = .ok c ∧ c.sort.length ≤ 1 ∧
      (c.accessPath : Traced Unit QueryError AccessPath).outcome =
        .error (.ambiguousIndex names ["day", "topic"]) ∧
      c.Ambiguous ∧ c.Named names ["day", "topic"] := by
  -- the kernel does not sort, so the names stay as they are
  have hok : ((ofEntity ⟨mirroredSchema, {}⟩).run recentOnTopic >>= fun c =>
      Except.ok (decide (c.sort.length ≤ 1),
        match (c.accessPath : Traced Unit QueryError AccessPath).outcome with
        | .error (.ambiguousIndex _ properties) => some properties
        | _ => none)) = .ok (true, some ["day", "topic"]) := by
    decide +kernel
  obtain ⟨c, hrun, hpair⟩ := bind_eq_ok_iff.1 hok
  simp only [Except.ok.injEq, Prod.mk.injEq, decide_eq_true_eq] at hpair
  obtain ⟨hone, hproperties⟩ := hpair
  have hreach : Reachable mirroredSchema c := ⟨{}, recentOnTopic, hrun⟩
  obtain ⟨-, hiff, hnamed, -⟩ := an_ambiguity_is_reported_exactly_if_there_is_one (α := Unit)
    mirroredSchema_built hreach hone
  split at hproperties
  · rename_i names properties houtcome
    cases hproperties
    exact ⟨c, names, hrun, hone, houtcome, hiff.1 ⟨_, _, houtcome⟩, hnamed _ _ houtcome⟩
  · cases hproperties

end Criteria

end KeyAccess
