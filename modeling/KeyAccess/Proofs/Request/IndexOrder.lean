-- The law of index order: the order in which indexes are declared plays no part. A schema is built
-- of any order if it is built of one, and queries are planned and assembled in the same way over
-- both, down to the words of a failure.
import Mathlib
import KeyAccess.Proofs.AccessPath.Cheapest
import KeyAccess.Proofs.Criteria.OtherIndexes
import KeyAccess.Proofs.Request.Emitted

namespace KeyAccess

/-! ## The choice over other indexes -/

namespace AccessPath

variable {c : Criteria} {indexes : List IndexDefinition}

theorem indexQuery?_withIndexes (hs : c.schema.Sound) (hperm : c.schema.indexes.Perm indexes) :
    indexQuery? (c.schema.withIndexes indexes) (c.withIndexes indexes) =
      indexQuery? c.schema c := by
  have hcandidates : indexCandidates c.schema.indexes c.conditionsByProperty.keys =
      indexCandidates indexes c.conditionsByProperty.keys :=
    indexCandidates_perm hs.names_differ hperm
  unfold indexQuery?
  dsimp only
  rw [hcandidates]
  rfl

/-- The same path is chosen, and the same failure is reported. -/
theorem select_withIndexes (hs : c.schema.Sound) (hperm : c.schema.indexes.Perm indexes) :
    select (c.schema.withIndexes indexes) (c.withIndexes indexes) = select c.schema c := by
  -- the indexes count in one step of the choice only
  have hload : directLoad? (c.schema.withIndexes indexes) (c.withIndexes indexes) =
      directLoad? c.schema c := rfl
  have hprimary : primaryQuery? (c.schema.withIndexes indexes) (c.withIndexes indexes) =
      primaryQuery? c.schema c := rfl
  have hscan : scanOf (c.schema.withIndexes indexes) (c.withIndexes indexes) =
      scanOf c.schema c := rfl
  unfold select
  rw [hload, hprimary, indexQuery?_withIndexes hs hperm, hscan]
  rfl

end AccessPath

/-- The same request is made of the same path. -/
theorem StoreRequest.ofPath_withIndexes (c : Criteria) (indexes : List IndexDefinition)
    (path : AccessPath) (mode : RequestMode) (table : String) :
    ofPath (c.withIndexes indexes) path mode table = ofPath c path mode table := by
  cases path <;> rfl

/-! ## The law -/

namespace Criteria

variable {c : Criteria} {indexes : List IndexDefinition}

/-- The store names the same table for the index queries of both. -/
def SameTable {α : Type} (store : Store α) (c c' : Criteria) : Prop :=
  store.tableName c.schema c.schema.tableName = store.tableName c'.schema c'.schema.tableName

/-- Two criteria are answered alike: with the same path or the same failure, with the same events,
and, over a store that names the same table for both, with the same requests. -/
structure AnsweredAlike (α : Type) (c c' : Criteria) : Prop where
  path : (c.accessPath : Traced α QueryError AccessPath) = c'.accessPath
  items : ∀ store : Store α, SameTable store c c' →
    (c.buildQuery store).outcome.map (fun q => (q.path, q.request, q.shape)) =
      (c'.buildQuery store).outcome.map (fun q => (q.path, q.request, q.shape))
  count : ∀ store : Store α, SameTable store c c' → ∀ paged,
    (c.buildCountQuery store paged).outcome.map (fun q => (q.request, q.servesPages)) =
      (c'.buildCountQuery store paged).outcome.map (fun q => (q.request, q.servesPages))

theorem schema_withIndexes (c : Criteria) (indexes : List IndexDefinition) :
    (c.withIndexes indexes).schema = c.schema.withIndexes indexes := rfl

/-- Where the store names the same table, the paths lead to the same requests. -/
theorem ofPath_tableOf_withIndexes {α : Type} {store : Store α}
    (htable : SameTable store c (c.withIndexes indexes))
    (path : AccessPath) (mode : RequestMode) :
    StoreRequest.ofPath (c.withIndexes indexes) path mode
        ((c.withIndexes indexes).tableOf store path) =
      StoreRequest.ofPath c path mode (c.tableOf store path) := by
  have hsame : (c.withIndexes indexes).tableOf store path = c.tableOf store path := by
    cases path with
    | indexQuery _ _ _ _ => exact htable.symm
    | directLoad _ _ | primaryQuery _ _ _ | scan _ => rfl
  rw [StoreRequest.ofPath_withIndexes, hsame]

theorem answeredAlike_withIndexes (α : Type) (hs : c.schema.Sound)
    (hperm : c.schema.indexes.Perm indexes) : AnsweredAlike α c (c.withIndexes indexes) := by
  have hselect := AccessPath.select_withIndexes hs hperm
  constructor
  · unfold accessPath accessPathIn
    rw [schema_withIndexes, hselect]
    rfl
  · intro store htable
    rw [buildQuery_outcome, buildQuery_outcome, schema_withIndexes, hselect]
    cases AccessPath.select c.schema c with
    | error e => rfl
    | ok path =>
      have hrequest := ofPath_tableOf_withIndexes htable path .items
      exact congrArg (fun r => Except.ok (path, r, c.shape)) hrequest.symm
  · intro store htable paged
    rw [buildCountQuery_outcome, buildCountQuery_outcome, schema_withIndexes, hselect]
    cases AccessPath.select c.schema c with
    | error e => rfl
    | ok path =>
      have hrequest := ofPath_tableOf_withIndexes htable path .count
      change Except.map _ (if paged && !c.countsPages path then _ else _) =
        Except.map _ (if paged && !c.countsPages path then _ else _)
      split
      · rfl
      · exact congrArg (fun r => Except.ok (r, c.countsPages path)) hrequest.symm

/-- The order in which the indexes of an entity are declared plays no part. A schema is built of one
order if and only if it is built of the other, and the same calls on criteria over the two schemas
are refused in the same way or lead to criteria that are answered alike. -/
theorem the_order_of_indexes_does_not_matter {α : Type} {d : SchemaDraft}
    {indexes : List IndexDefinition} (hperm : d.indexes.Perm indexes) :
    ((∃ s, d.build = .ok s) ↔ ∃ s, ({ d with indexes } : SchemaDraft).build = .ok s) ∧
    ∀ s s', d.build = .ok s → ({ d with indexes } : SchemaDraft).build = .ok s' →
      ∀ (config : QueryConfig) (calls : List Call),
        Agree (AnsweredAlike α) ((ofEntity ⟨s, config⟩).run calls)
          ((ofEntity ⟨s', config⟩).run calls) := by
  refine ⟨⟨?_, ?_⟩, ?_⟩
  · rintro ⟨s, hs⟩
    exact ⟨_, SchemaDraft.build_perm hperm hs⟩
  · rintro ⟨s, hs⟩
    exact ⟨_, SchemaDraft.build_perm (d := { d with indexes }) hperm.symm hs⟩
  · intro s s' hs hs' config calls
    rw [SchemaDraft.build_perm hperm hs] at hs'
    cases hs'
    have hrun : (ofEntity ⟨s.withIndexes indexes, config⟩).run calls =
        ((ofEntity ⟨s, config⟩).run calls).map (withIndexes indexes) :=
      run_withIndexes (ofEntity ⟨s, config⟩) calls
    rw [hrun]
    cases hc : (ofEntity ⟨s, config⟩).run calls with
    | error e => exact .error e
    | ok c =>
      have hreach : Reachable s c := ⟨config, calls, hc⟩
      apply Agree.ok
      apply answeredAlike_withIndexes α (hreach.schema_sound ⟨d, hs⟩)
      rw [hreach.schema_eq, SchemaDraft.build_indexes hs]
      exact hperm

theorem notes_are_found_in_either_order :
    noteDraft.indexes.Perm noteDraft.indexes.reverse ∧ ∃ s c c',
      ({ noteDraft with indexes := noteDraft.indexes.reverse } : SchemaDraft).build = .ok s ∧
      s.indexes ≠ noteSchema.indexes ∧
      (ofEntity ⟨noteSchema, {}⟩).run latestOnTopic = .ok c ∧
      (ofEntity ⟨s, {}⟩).run latestOnTopic = .ok c' ∧
      (c'.accessPath : Traced Unit QueryError AccessPath).outcome = .ok latestOnTopicPath ∧
      AnsweredAlike Unit c c' := by
  have hperm : noteDraft.indexes.Perm noteDraft.indexes.reverse :=
    noteDraft.indexes.reverse_perm.symm
  have hbuild : noteDraft.build = .ok noteSchema := by decide
  have hreversed := SchemaDraft.build_perm hperm hbuild
  have hok : ((ofEntity ⟨noteSchema, {}⟩).run latestOnTopic >>= fun _ =>
      (ofEntity ⟨noteSchema.withIndexes noteDraft.indexes.reverse, {}⟩).run latestOnTopic >>=
        fun c' => Except.ok (c'.accessPath : Traced Unit QueryError AccessPath).outcome) =
      .ok (.ok latestOnTopicPath) := by
    decide +kernel
  obtain ⟨c, hrun, hok⟩ := bind_eq_ok_iff.1 hok
  obtain ⟨c', hrun', hok⟩ := bind_eq_ok_iff.1 hok
  have hagree := (the_order_of_indexes_does_not_matter (α := Unit) hperm).2 noteSchema _ hbuild
    hreversed {} latestOnTopic
  rw [hrun, hrun'] at hagree
  cases hagree with
  | ok halike =>
    exact ⟨hperm, _, c, c', hreversed, by decide, hrun, hrun', Except.ok.inj hok, halike⟩

end Criteria

end KeyAccess
