-- The choice sees only which conditions there are. Two conditions on the sort key may stand in each
-- other's places and the conditions of a property in another order, the path is the same for all
-- that, or the failure is. Only a scan lists its filters as they stand.
import Mathlib
import KeyAccess.Proofs.AccessPath.Chosen
import KeyAccess.Proofs.Criteria.Fold

namespace KeyAccess

/-! ## The pure model -/

/-- Two paths are the same but for the order in which a scan lists its filters. -/
inductive AccessPath.Alike : AccessPath → AccessPath → Prop
  | same (path : AccessPath) : Alike path path
  | scan {filters filters' : List AttributeCondition} :
      filters.Perm filters' → Alike (.scan filters) (.scan filters')

/-- The first query depends on the conditions on the candidates' keys only. -/
theorem AccessPath.firstIndexQuery_congr {sort : List SortOrder}
    {m m' : SortedMap (List AttributeCondition)} {l : List IndexDefinition}
    (h : ∀ i ∈ l, keyConditions? i m = keyConditions? i m') (fault? : Option OperationFault) :
    firstIndexQuery sort m fault? l = firstIndexQuery sort m' fault? l := by
  induction l generalizing fault? with
  | nil => cases fault? <;> rfl
  | cons i l ih =>
    rw [List.forall_mem_cons] at h
    unfold firstIndexQuery
    simp only [h.1, ih h.2]

namespace Criteria

/-- Two criteria ask the same, with their conditions in any order and in any places. -/
structure SameAsked (c c' : Criteria) : Prop where
  rest : SameRest c c'
  conditions : c.allConditions.Perm c'.allConditions

variable {c c' : Criteria}

/-! ## What the places tell -/

theorem eq_of_toList_perm {α : Type} {x y : Option α} (h : x.toList.Perm y.toList) : x = y := by
  cases x with
  | none =>
    cases y with
    | none => rfl
    | some b => simp at h
  | some a =>
    cases y with
    | none => simp at h
    | some b => simpa using h

/-- The equality that is held is the only one on the partition key. -/
theorem filter_isEquality (h : c.Sound) (hs : c.schema.Sound) :
    (c.conditionsOn c.schema.partitionKey).filter (fun a => a.condition.isEquality) =
      c.partitionEquality.toList := by
  rw [conditionsOn_partitionKey h hs, List.filter_append]
  have hheld : c.partitionEquality.toList.filter (fun a => a.condition.isEquality) =
      c.partitionEquality.toList := by
    rw [List.filter_eq_self]
    intro a ha
    exact (h.partition_equality a (Option.mem_toList.1 ha)).2
  have hothers : ((c.otherConditions.get? c.schema.partitionKey).getD []).filter
      (fun a => a.condition.isEquality) = [] := by
    rw [List.filter_eq_nil_iff]
    intro a ha
    cases hl : c.otherConditions.get? c.schema.partitionKey with
    | none => simp [hl] at ha
    | some l =>
      rw [hl, Option.getD_some] at ha
      simp [h.others_not_pinned l hl a ha]
  rw [hheld, hothers, List.append_nil]

theorem length_allConditions (c : Criteria) : c.allConditions.length =
    c.partitionEquality.toList.length + c.sortCondition.toList.length +
      c.otherConditions.values.flatten.length := by
  unfold allConditions
  rw [List.length_append, List.length_append]

theorem others_isEmpty_iff_flatten (h : c.Sound) :
    c.otherConditions.isEmpty = true ↔ c.otherConditions.values.flatten.length = 0 := by
  rw [List.length_eq_zero_iff, others_isEmpty_iff h]
  constructor
  · intro hnil
    rw [List.flatten_eq_nil_iff]
    intro l hl
    obtain ⟨⟨p, l'⟩, he, rfl⟩ := List.mem_map.1 hl
    have hp := hnil p
    rw [(SortedMap.get?_eq_some_iff _ _ _).2 he] at hp
    exact hp
  · intro hnil p
    rw [← filter_flatten_values h.others_keyed, hnil]
    rfl

namespace SameAsked

variable (hsame : SameAsked c c')

include hsame

theorem conditionsOn_perm (property : String) :
    (c.conditionsOn property).Perm (c'.conditionsOn property) :=
  hsame.conditions.filter _

theorem conditionsOn_eq_singleton (property : String) (a : AttributeCondition) :
    c.conditionsOn property = [a] ↔ c'.conditionsOn property = [a] := by
  have hperm := hsame.conditionsOn_perm property
  constructor
  · intro h
    rw [h] at hperm
    exact List.perm_singleton.1 hperm.symm
  · intro h
    rw [h] at hperm
    exact List.perm_singleton.1 hperm

theorem conditionsOn_eq_nil (property : String) :
    c.conditionsOn property = [] ↔ c'.conditionsOn property = [] := by
  have hperm := hsame.conditionsOn_perm property
  rw [← List.length_eq_zero_iff, hperm.length_eq, List.length_eq_zero_iff]

theorem partitionEquality_eq (h : c.Sound) (h' : c'.Sound) (hs : c.schema.Sound) :
    c'.partitionEquality = c.partitionEquality := by
  have hperm := (hsame.conditionsOn_perm c.schema.partitionKey).filter
    (fun a => a.condition.isEquality)
  have hs' : c'.schema.Sound := hsame.rest.schema ▸ hs
  rw [filter_isEquality h hs, ← hsame.rest.schema, filter_isEquality h' hs'] at hperm
  exact (eq_of_toList_perm hperm).symm

/-- The slot of the sort key is filled as soon as there is a condition on it. -/
theorem sortCondition_length (h : c.Sound) (h' : c'.Sound) (hs : c.schema.Sound) :
    c'.sortCondition.toList.length = c.sortCondition.toList.length := by
  have hs' : c'.schema.Sound := hsame.rest.schema ▸ hs
  have hnone : c'.sortCondition = none ↔ c.sortCondition = none := by
    cases hsort : c.schema.sortKey with
    | none =>
      have hempty : ∀ {x : Criteria}, x.Sound → x.schema.sortKey = none →
          x.sortCondition = none := by
        intro x hx hkey
        rw [Option.eq_none_iff_forall_ne_some]
        intro a ha
        rw [hx.sort_condition a ha] at hkey
        cases hkey
      rw [hempty h hsort, hempty h' (hsame.rest.schema ▸ hsort)]
    | some sort =>
      rw [← conditionsOn_sortKey_eq_nil_iff h hs hsort,
        ← conditionsOn_sortKey_eq_nil_iff h' hs' (hsame.rest.schema ▸ hsort),
        hsame.conditionsOn_eq_nil]
  cases hc : c.sortCondition <;> cases hc' : c'.sortCondition <;> simp_all

theorem others_isEmpty_eq (h : c.Sound) (h' : c'.Sound) (hs : c.schema.Sound) :
    c'.otherConditions.isEmpty = c.otherConditions.isEmpty := by
  have hlength := hsame.conditions.length_eq
  -- the two slots hold as many conditions on either side, so as many are left for the others
  rw [length_allConditions, length_allConditions, hsame.partitionEquality_eq h h' hs,
    hsame.sortCondition_length h h' hs] at hlength
  rw [Bool.eq_iff_iff, others_isEmpty_iff_flatten h, others_isEmpty_iff_flatten h']
  omega

/-- Without others the one condition on the sort key is the one that is held. -/
theorem sortCondition_eq (h : c.Sound) (h' : c'.Sound) (hs : c.schema.Sound)
    (hempty : c.otherConditions.isEmpty = true) : c'.sortCondition = c.sortCondition := by
  have hempty' : c'.otherConditions.isEmpty = true := by
    rw [hsame.others_isEmpty_eq h h' hs, hempty]
  have hperm := hsame.conditions
  rw [allConditions_of_no_others hempty, allConditions_of_no_others hempty',
    hsame.partitionEquality_eq h h' hs, List.perm_append_left_iff] at hperm
  exact (eq_of_toList_perm hperm).symm

/-! ## The steps of the choice -/

theorem directLoad?_eq (h : c.Sound) (h' : c'.Sound) (hs : c.schema.Sound) (schema : KeySchema) :
    AccessPath.directLoad? schema c' = AccessPath.directLoad? schema c := by
  unfold AccessPath.directLoad?
  rw [hsame.others_isEmpty_eq h h' hs]
  by_cases hempty : c.otherConditions.isEmpty = true
  · rw [hsame.partitionEquality_eq h h' hs, hsame.sortCondition_eq h h' hs hempty]
  · simp [hempty]

theorem primaryQuery?_eq (h : c.Sound) (h' : c'.Sound) (hs : c.schema.Sound)
    (schema : KeySchema) :
    AccessPath.primaryQuery? schema c' = AccessPath.primaryQuery? schema c := by
  unfold AccessPath.primaryQuery?
  rw [hsame.others_isEmpty_eq h h' hs, hsame.partitionEquality_eq h h' hs, hsame.rest.sort]
  by_cases hempty : c.otherConditions.isEmpty = true
  · rw [hsame.sortCondition_eq h h' hs hempty]
  · simp [hempty]

theorem keys_eq : c'.conditionsByProperty.keys = c.conditionsByProperty.keys := by
  refine SortedMap.keys_eq_of_mem_iff (fun property => ?_)
  simp only [mem_keys_conditionsByProperty, hsame.conditions.mem_iff]

theorem rangedOn_iff (property : String) : c'.RangedOn property ↔ c.RangedOn property := by
  unfold RangedOn
  simp only [hsame.conditionsOn_eq_nil, hsame.conditionsOn_eq_singleton]

theorem servedBy_iff (partition : String) (sort : Option String) :
    c'.ServedBy partition sort ↔ c.ServedBy partition sort := by
  have hpinned : c'.PinnedOn partition ↔ c.PinnedOn partition := by
    unfold PinnedOn
    simp only [hsame.conditionsOn_eq_singleton]
  constructor
  · rintro ⟨hp, hr, hall⟩
    exact ⟨hpinned.1 hp, fun s hs => (hsame.rangedOn_iff s).1 (hr s hs),
      fun a ha => hall a (hsame.conditions.mem_iff.1 ha)⟩
  · rintro ⟨hp, hr, hall⟩
    exact ⟨hpinned.2 hp, fun s hs => (hsame.rangedOn_iff s).2 (hr s hs),
      fun a ha => hall a (hsame.conditions.mem_iff.2 ha)⟩

theorem rangeOn_eq {sort : Option String} (hranged : ∀ s, sort = some s → c.RangedOn s) :
    c'.rangeOn sort = c.rangeOn sort := by
  cases sort with
  | none => rfl
  | some s =>
    unfold rangeOn
    rw [Option.bind_some, Option.bind_some]
    rcases hranged s rfl with hnil | ⟨a, ha, -⟩
    · rw [hnil, (hsame.conditionsOn_eq_nil s).1 hnil]
    · rw [ha, (hsame.conditionsOn_eq_singleton s a).1 ha]

theorem keyConditions?_eq {i : IndexDefinition} (hne : i.sort ≠ some i.partition) :
    AccessPath.keyConditions? i c'.conditionsByProperty =
      AccessPath.keyConditions? i c.conditionsByProperty := by
  by_cases hserved : c.ServedBy i.partition i.sort
  · have hserved' := (hsame.servedBy_iff i.partition i.sort).2 hserved
    obtain ⟨a, ha, hkey⟩ := AccessPath.keyConditions?_of_served hne hserved
    obtain ⟨a', ha', hkey'⟩ := AccessPath.keyConditions?_of_served hne hserved'
    have haa : a' = a := by
      rw [(hsame.conditionsOn_eq_singleton _ a).1 ha] at ha'
      cases ha'
      rfl
    rw [hkey, hkey', haa, hsame.rangeOn_eq hserved.ranged]
  · have hserved' := mt (hsame.servedBy_iff i.partition i.sort).1 hserved
    rw [AccessPath.keyConditions?_eq_none hne hserved,
      AccessPath.keyConditions?_eq_none hne hserved']

theorem indexQuery?_eq (hs : c.schema.Sound) :
    AccessPath.indexQuery? c.schema c' = AccessPath.indexQuery? c.schema c := by
  unfold AccessPath.indexQuery?
  dsimp only
  rw [hsame.keys_eq, hsame.rest.sort]
  cases hl : indexCandidates c.schema.indexes c.conditionsByProperty.keys with
  | error e => rfl
  | ok l =>
    refine AccessPath.firstIndexQuery_congr (fun i hi => ?_) none
    have hmem := ((AccessPath.mem_indexCandidates hl i).1 hi).1
    exact hsame.keyConditions?_eq (hs.members_differ i hmem)

theorem scanOf_agree (schema : KeySchema) :
    Agree AccessPath.Alike (AccessPath.scanOf schema c) (AccessPath.scanOf schema c') := by
  unfold AccessPath.scanOf
  rw [hsame.rest.sort, hsame.rest.config]
  split
  · exact .error _
  · split
    · exact .error _
    · exact .ok (.scan hsame.conditions)

/-- Criteria that ask the same get the same path, but for the order of the filters of a scan. -/
theorem select_agree (h : c.Sound) (h' : c'.Sound) (hs : c.schema.Sound) :
    Agree AccessPath.Alike (AccessPath.select c.schema c) (AccessPath.select c'.schema c') := by
  rw [hsame.rest.schema]
  unfold AccessPath.select
  dsimp only
  -- every step but the scan yields the very same
  rw [hsame.directLoad?_eq h h' hs, hsame.primaryQuery?_eq h h' hs, hsame.indexQuery?_eq hs,
    hsame.rest.sort]
  split
  · exact .error _
  · split
    · exact .ok (.same _)
    · refine (Agree.refl (R := Eq) (fun _ => rfl) _).bind ?_
      rintro primary? _ - rfl
      split
      · exact .ok (.same _)
      · refine (Agree.refl (R := Eq) (fun _ => rfl) _).bind ?_
        rintro index? _ - rfl
        split
        · exact .ok (.same _)
        · exact hsame.scanOf_agree c.schema

end SameAsked

end Criteria

end KeyAccess
