-- The conditions on one property. The places of the criteria and the grouping by property both tell
-- which conditions a property carries, and they agree with the list of all conditions.
import Mathlib
import KeyAccess.Proofs.Criteria.Placement
import KeyAccess.Proofs.Schema.Built

namespace KeyAccess

namespace Criteria

/-- The conditions that a property carries. -/
def conditionsOn (c : Criteria) (property : String) : List AttributeCondition :=
  c.allConditions.filter (fun a => a.property == property)

theorem mem_conditionsOn {c : Criteria} {property : String} {a : AttributeCondition} :
    a ∈ c.conditionsOn property ↔ a ∈ c.allConditions ∧ a.property = property := by
  unfold conditionsOn
  rw [List.mem_filter, beq_iff_eq]

theorem conditionsOn_eq_nil_iff {c : Criteria} {property : String} :
    c.conditionsOn property = [] ↔ ∀ a ∈ c.allConditions, a.property ≠ property := by
  unfold conditionsOn
  rw [List.filter_eq_nil_iff]
  simp

/-! ## From the places -/

theorem filter_keyed {l : List AttributeCondition} {p property : String}
    (h : ∀ a ∈ l, a.property = p) :
    l.filter (fun a => a.property == property) = if property = p then l else [] := by
  split
  · rename_i heq
    rw [List.filter_eq_self]
    intro a ha
    rw [beq_iff_eq, h a ha, heq]
  · rename_i hne
    rw [List.filter_eq_nil_iff]
    intro a ha heq
    rw [beq_iff_eq, h a ha] at heq
    exact hne heq.symm

/-- Of lists that are kept by property, only the list of a property has conditions on it. -/
theorem filter_flatten_values {m : SortedMap (List AttributeCondition)}
    (h : ∀ p l, m.get? p = some l → ∀ a ∈ l, a.property = p) (property : String) :
    m.values.flatten.filter (fun a => a.property == property) = (m.get? property).getD [] := by
  have hlist : ∀ entries : List (String × List AttributeCondition),
      (entries.map Prod.fst).Nodup → (∀ e ∈ entries, ∀ a ∈ e.2, a.property = e.1) →
      (entries.map Prod.snd).flatten.filter (fun a => a.property == property) =
        (SortedMap.findEntry entries property).getD [] := by
    intro entries
    induction entries with
    | nil => intro _ _; rfl
    | cons e rest ih =>
      intro hnodup hkeyed
      rw [List.map_cons, List.nodup_cons] at hnodup
      rw [List.map_cons, List.flatten_cons, List.filter_append,
        ih hnodup.2 (fun e he => hkeyed e (List.mem_cons_of_mem _ he)),
        filter_keyed (hkeyed e List.mem_cons_self), SortedMap.findEntry_cons]
      by_cases hp : property = e.1
      · subst hp
        have hnone : SortedMap.findEntry rest e.1 = none := by
          rw [Option.eq_none_iff_forall_ne_some]
          intro l hl
          exact hnodup.1 (List.mem_map.2
            ⟨_, (SortedMap.findEntry_eq_some_iff hnodup.2 _ _).1 hl, rfl⟩)
        simp [hnone]
      · simp [hp, Ne.symm hp]
  refine hlist m.entries m.keys_nodup ?_
  rintro ⟨p, l⟩ he
  exact h p l ((SortedMap.get?_eq_some_iff _ _ _).2 he)

/-- The conditions on a property stand in the slot of its key and among the others. -/
theorem conditionsOn_eq {c : Criteria} (h : c.Sound) (property : String) :
    c.conditionsOn property =
      (if property = c.schema.partitionKey then c.partitionEquality.toList else []) ++
        (if c.schema.sortKey = some property then c.sortCondition.toList else []) ++
        (c.otherConditions.get? property).getD [] := by
  have hsort : c.sortCondition.toList.filter (fun a => a.property == property) =
      if c.schema.sortKey = some property then c.sortCondition.toList else [] := by
    cases hc : c.sortCondition with
    | none => simp
    | some a =>
      have ha := h.sort_condition a hc
      rw [Option.toList_some, filter_keyed (p := a.property) (by simp), ha]
      simp only [Option.some.injEq, eq_comm]
  unfold conditionsOn allConditions
  rw [List.filter_append, List.filter_append, hsort, filter_flatten_values h.others_keyed]
  congr 2
  apply filter_keyed
  intro a ha
  exact (h.partition_equality a (Option.mem_toList.1 ha)).1

theorem conditionsOn_partitionKey {c : Criteria} (h : c.Sound) (hs : c.schema.Sound) :
    c.conditionsOn c.schema.partitionKey = c.partitionEquality.toList ++
      (c.otherConditions.get? c.schema.partitionKey).getD [] := by
  rw [conditionsOn_eq h, if_pos rfl, if_neg hs.keys_differ, List.append_nil]

theorem conditionsOn_sortKey {c : Criteria} (h : c.Sound) (hs : c.schema.Sound) {sort : String}
    (hsort : c.schema.sortKey = some sort) :
    c.conditionsOn sort =
      c.sortCondition.toList ++ (c.otherConditions.get? sort).getD [] := by
  have hne : sort ≠ c.schema.partitionKey := fun he => hs.keys_differ (he ▸ hsort)
  rw [conditionsOn_eq h, if_neg hne, if_pos hsort, List.nil_append]

/-- No others at all means that every property has none. -/
theorem others_isEmpty_iff {c : Criteria} (h : c.Sound) :
    c.otherConditions.isEmpty = true ↔ ∀ p, (c.otherConditions.get? p).getD [] = [] := by
  rw [SortedMap.isEmpty_iff]
  constructor
  · intro hnone p
    rw [hnone p]
    rfl
  · intro hnil p
    cases hl : c.otherConditions.get? p with
    | none => rfl
    | some l =>
      have := hnil p
      rw [hl] at this
      exact absurd this (h.others_filled p l hl)

theorem allConditions_of_no_others {c : Criteria} (h : c.otherConditions.isEmpty = true) :
    c.allConditions = c.partitionEquality.toList ++ c.sortCondition.toList := by
  have hvalues : c.otherConditions.values = [] := by
    unfold SortedMap.values
    rw [List.isEmpty_iff.1 h]
    rfl
  unfold allConditions
  rw [hvalues, List.flatten_nil, List.append_nil]

/-! ## From the grouping -/

theorem conditionsByProperty_eq (c : Criteria) : c.conditionsByProperty =
    (∅ : SortedMap (List AttributeCondition)).appendAll
      (c.allConditions.map fun a => (a.property, a)) := by
  unfold conditionsByProperty SortedMap.appendAll
  rw [List.foldl_map]

theorem get?_conditionsByProperty (c : Criteria) (property : String) :
    c.conditionsByProperty.get? property =
      if c.conditionsOn property = [] then none else some (c.conditionsOn property) := by
  have hfilter : (c.allConditions.map fun a => (a.property, a)).filter
      (fun e => e.1 == property) = (c.conditionsOn property).map fun a => (a.property, a) := by
    rw [List.filter_map]
    rfl
  rw [conditionsByProperty_eq, SortedMap.get?_appendAll, hfilter]
  simp [Function.comp_def]

theorem mem_keys_conditionsByProperty (c : Criteria) (property : String) :
    property ∈ c.conditionsByProperty.keys ↔ ∃ a ∈ c.allConditions, a.property = property := by
  rw [conditionsByProperty_eq, SortedMap.mem_keys_appendAll]
  simp [SortedMap.mem_keys_iff]

/-- Distinct properties that carry conditions are all of them if and only if there are as many. -/
theorem size_conditionsByProperty_iff {c : Criteria} {members : List String}
    (hnodup : members.Nodup) (hsub : ∀ p ∈ members, p ∈ c.conditionsByProperty.keys) :
    c.conditionsByProperty.size = members.length ↔
      ∀ a ∈ c.allConditions, a.property ∈ members := by
  rw [← SortedMap.length_keys]
  constructor
  · intro hlen a ha
    have hperm := (List.subperm_of_subset hnodup hsub).perm_of_length_le hlen.le
    exact hperm.mem_iff.2 ((mem_keys_conditionsByProperty c _).2 ⟨a, ha, rfl⟩)
  · intro hall
    refine le_antisymm ?_ (List.subperm_of_subset hnodup hsub).length_le
    refine (List.subperm_of_subset c.conditionsByProperty.keys_nodup ?_).length_le
    intro p hp
    obtain ⟨a, ha, rfl⟩ := (mem_keys_conditionsByProperty c p).1 hp
    exact hall a ha

end Criteria

end KeyAccess
