-- What each step of the choice yields. A load, a query on the primary key and a query on an index
-- are chosen only where the key serves all conditions, and each of them where it does; an index has
-- to give the order as well.
import Mathlib
import KeyAccess.Proofs.AccessPath.KeyService

namespace KeyAccess

namespace Criteria

/-- A key sorts as it is asked to: by its sort member, which no equality fixes. -/
def OrderedBy (c : Criteria) (sort : Option String) : Prop :=
  ∀ d, c.sort.head? = some d →
    sort = some d.property ∧ ∀ a ∈ c.conditionsOn d.property, a.condition.isEquality = false

/-- The condition that a sort member carries. -/
def rangeOn (c : Criteria) (sort : Option String) : Option AttributeCondition :=
  sort.bind (fun s => (c.conditionsOn s).head?)

theorem eq_pinned {c : Criteria} (h : c.Sound) {a : AttributeCondition}
    (ha : a ∈ c.allConditions) (heq : a.condition.isEquality = true) :
    ∃ v, a = pinned c.schema a.property v := by
  obtain ⟨v, hv⟩ := (h.fits a ha).eq_of_isEquality heq
  refine ⟨v, ?_⟩
  obtain ⟨property, name, condition⟩ := a
  have hname : name = c.schema.attributeName property := h.named _ ha
  dsimp only at hv
  rw [hv, hname]
  rfl

theorem partitionEquality_eq {c : Criteria} (h : c.Sound) (hslot : c.partitionEquality.isSome) :
    ∃ v, c.partitionEquality = some (pinned c.schema c.schema.partitionKey v) := by
  obtain ⟨a, ha⟩ := Option.isSome_iff_exists.1 hslot
  have hmem : a ∈ c.allConditions := by simp [allConditions, ha]
  obtain ⟨hp, heq⟩ := h.partition_equality a ha
  obtain ⟨v, hv⟩ := eq_pinned h hmem heq
  rw [hp] at hv
  exact ⟨v, by rw [ha, hv]⟩

end Criteria

namespace AccessPath

variable {c : Criteria}

/-! ## Loads -/

theorem directLoad?_of_fullyPinned (h : c.Sound) (hs : c.schema.Sound) (hpin : c.FullyPinned) :
    ∃ v w, directLoad? c.schema c = some (.directLoad v w) ∧
      c.allConditions = loadConditions c.schema v w := by
  obtain ⟨hslot, hempty, hsort⟩ := (Criteria.fullyPinned_iff h hs).1 hpin
  obtain ⟨v, hv⟩ := Criteria.partitionEquality_eq h hslot
  have hall := Criteria.allConditions_of_no_others hempty
  have hsingle : (pinned c.schema c.schema.partitionKey v).condition.singleValue = some v := rfl
  unfold directLoad? loadConditions
  rw [hall, hv]
  simp only [hempty, Bool.not_true, Bool.false_eq_true, if_false]
  cases hshape : c.schema.shape with
  | partitionOnly p =>
    have hkey : c.schema.sortKey = none := by simp [KeySchema.sortKey, hshape, KeyShape.sort]
    have hnone : c.sortCondition = none := by
      rw [Option.eq_none_iff_forall_ne_some]
      intro b hb
      rw [h.sort_condition b hb] at hkey
      cases hkey
    refine ⟨v, none, rfl, ?_⟩
    simp [hnone, hkey]
  | partitionAndSort p s =>
    have hkey : c.schema.sortKey = some s := by simp [KeySchema.sortKey, hshape, KeyShape.sort]
    obtain ⟨b, hb, heq⟩ := hsort s hkey
    have hmem : b ∈ c.allConditions := by rw [hall, hb]; simp
    obtain ⟨w, hw⟩ := Criteria.eq_pinned h hmem heq
    have hproperty : b.property = s := by
      have := h.sort_condition b hb
      rw [hkey] at this
      cases this
      rfl
    rw [hproperty] at hw
    subst hw
    refine ⟨v, some w, ?_, ?_⟩
    · rw [hb]
      rfl
    · simp [hb, hkey]

theorem directLoad?_eq_none (h : c.Sound) (hs : c.schema.Sound) (hpin : ¬ c.FullyPinned) :
    directLoad? c.schema c = none := by
  by_contra hsome
  apply hpin
  rw [Criteria.fullyPinned_iff h hs]
  unfold directLoad? at hsome
  split at hsome
  · exact absurd rfl hsome
  · rename_i hempty
    cases hp : c.partitionEquality with
    | none => rw [hp] at hsome; exact absurd rfl hsome
    | some a =>
      refine ⟨rfl, by simpa using hempty, fun s hsort => ?_⟩
      obtain ⟨v, hv⟩ := Criteria.partitionEquality_eq h (by rw [hp]; rfl)
      rw [hv] at hsome
      cases hshape : c.schema.shape with
      | partitionOnly p => simp [KeySchema.sortKey, hshape, KeyShape.sort] at hsort
      | partitionAndSort p t =>
        rw [hshape] at hsome
        cases hb : c.sortCondition with
        | none => rw [hb] at hsome; exact absurd rfl hsome
        | some b =>
          refine ⟨b, rfl, ?_⟩
          by_contra hne
          rw [hb] at hsome
          simp [pinned, Condition.singleValue, hne] at hsome

/-! ## Queries on the primary key -/

theorem primaryQuery?_of_served (h : c.Sound) (hs : c.schema.Sound) {sort : String}
    (hsort : c.schema.sortKey = some sort)
    (hserved : c.ServedBy c.schema.partitionKey (some sort)) :
    ∃ v, c.allConditions =
        pinned c.schema c.schema.partitionKey v :: c.sortCondition.toList ∧
      primaryQuery? c.schema c = match c.sort.head? with
        | none => .ok (some (.primaryQuery v c.sortCondition none))
        | some order =>
          if order.property = sort then .ok (some (.primaryQuery v c.sortCondition (some order)))
          else .error (.unsupportedOperation (.sortNotBy sort)) := by
  obtain ⟨hslot, hempty, hlegal⟩ := (Criteria.servedBy_primaryKey_iff h hs hsort).1 hserved
  obtain ⟨v, hv⟩ := Criteria.partitionEquality_eq h hslot
  refine ⟨v, ?_, ?_⟩
  · rw [Criteria.allConditions_of_no_others hempty, hv]
    rfl
  · have hany : c.sortCondition.any (fun s => !s.condition.isQueryLegal) = false := by
      cases hb : c.sortCondition with
      | none => rfl
      | some b => simp [hlegal b hb]
    unfold primaryQuery?
    cases hshape : c.schema.shape with
    | partitionOnly p => simp [KeySchema.sortKey, hshape, KeyShape.sort] at hsort
    | partitionAndSort p s =>
      have hkey : s = sort := by simpa [KeySchema.sortKey, hshape, KeyShape.sort] using hsort
      subst hkey
      rw [hv]
      simp only [hempty, hany, Bool.not_true, Bool.false_eq_true, if_false]
      rfl

theorem primaryQuery?_of_not_served (h : c.Sound) (hs : c.schema.Sound)
    (hnot : ∀ sort, c.schema.sortKey = some sort →
      ¬ c.ServedBy c.schema.partitionKey (some sort)) : primaryQuery? c.schema c = .ok none := by
  unfold primaryQuery?
  cases hshape : c.schema.shape with
  | partitionOnly p => rfl
  | partitionAndSort p s =>
    have hkey : c.schema.sortKey = some s := by simp [KeySchema.sortKey, hshape, KeyShape.sort]
    have hserved := hnot s hkey
    rw [Criteria.servedBy_primaryKey_iff h hs hkey] at hserved
    dsimp only
    cases hp : c.partitionEquality with
    | none => rfl
    | some a =>
      dsimp only
      split
      · rfl
      · rename_i hempty
        split
        · rfl
        · rename_i hany
          refine absurd ⟨by rw [hp]; rfl, by simpa using hempty, fun b hb => ?_⟩ hserved
          simpa [hb] using hany

/-! ## Queries on one index -/

/-- All conditions stand on one property, which carries some. -/
theorem size_eq_one_iff {p : String} (hp : c.conditionsOn p ≠ []) :
    c.conditionsByProperty.size = 1 ↔ ∀ a ∈ c.allConditions, a.property = p := by
  have hsub : ∀ q ∈ [p], q ∈ c.conditionsByProperty.keys := by
    intro q hq
    obtain ⟨a, ha⟩ := List.exists_mem_of_ne_nil _ hp
    rw [List.mem_singleton.1 hq, Criteria.mem_keys_conditionsByProperty]
    exact ⟨a, Criteria.mem_conditionsOn.1 ha⟩
  have hsize := Criteria.size_conditionsByProperty_iff (List.nodup_singleton p) hsub
  rw [List.length_singleton] at hsize
  rw [hsize]
  simp only [List.mem_singleton]

/-- All conditions stand on two properties, which both carry some. -/
theorem size_eq_two_iff {p q : String} (hne : p ≠ q) (hp : c.conditionsOn p ≠ [])
    (hq : c.conditionsOn q ≠ []) :
    c.conditionsByProperty.size = 2 ↔ ∀ a ∈ c.allConditions, a.property ∈ [p, q] := by
  have hsub : ∀ r ∈ [p, q], r ∈ c.conditionsByProperty.keys := by
    intro r hr
    have hr' : c.conditionsOn r ≠ [] := by
      rcases List.mem_pair.1 hr with rfl | rfl
      · exact hp
      · exact hq
    obtain ⟨a, ha⟩ := List.exists_mem_of_ne_nil _ hr'
    rw [Criteria.mem_keys_conditionsByProperty]
    exact ⟨a, Criteria.mem_conditionsOn.1 ha⟩
  exact Criteria.size_conditionsByProperty_iff (by simp [hne]) hsub

theorem get?_of_ne_nil {p : String} (hp : c.conditionsOn p ≠ []) :
    c.conditionsByProperty.get? p = some (c.conditionsOn p) := by
  rw [Criteria.get?_conditionsByProperty, if_neg hp]

theorem get?_of_nil {p : String} (hp : c.conditionsOn p = []) :
    c.conditionsByProperty.get? p = none := by
  rw [Criteria.get?_conditionsByProperty, if_pos hp]

theorem keyConditions?_of_served {i : IndexDefinition} (hne : i.sort ≠ some i.partition)
    (hserved : c.ServedBy i.partition i.sort) :
    ∃ a, c.conditionsOn i.partition = [a] ∧
      keyConditions? i c.conditionsByProperty = some (a, c.rangeOn i.sort) := by
  obtain ⟨⟨a, ha, heq⟩, hrange, hall⟩ := hserved
  refine ⟨a, ha, ?_⟩
  have hpart : c.conditionsOn i.partition ≠ [] := by simp [ha]
  unfold keyConditions? Criteria.rangeOn
  rw [get?_of_ne_nil hpart, ha]
  simp only [heq, Bool.not_true, Bool.false_eq_true, if_false]
  cases hsort : i.sort with
  | none =>
    rw [hsort] at hall
    have hsize := (size_eq_one_iff hpart).2 (fun b hb => by simpa using hall b hb)
    simp [hsize]
  | some s =>
    rw [hsort] at hall hne
    rcases hrange s hsort with hnil | ⟨b, hb, hlegal⟩
    · have hnone := Criteria.conditionsOn_eq_nil_iff.1 hnil
      have hsize := (size_eq_one_iff hpart).2 (fun b hb => by
        have hin := hall b hb
        simp only [Option.toList_some, List.mem_pair] at hin
        exact hin.resolve_right (hnone b hb))
      simp [get?_of_nil hnil, hsize, hnil]
    · have hs : c.conditionsOn s ≠ [] := by simp [hb]
      have hps : i.partition ≠ s := fun he => hne (by rw [he])
      have hsize := (size_eq_two_iff hps hpart hs).2 hall
      simp [get?_of_ne_nil hs, hb, hlegal, hsize]

theorem served_of_keyConditions? {i : IndexDefinition} (hne : i.sort ≠ some i.partition)
    {r : AttributeCondition × Option AttributeCondition}
    (h : keyConditions? i c.conditionsByProperty = some r) : c.ServedBy i.partition i.sort := by
  unfold keyConditions? at h
  split at h
  · rename_i a hget
    rw [Criteria.get?_conditionsByProperty] at hget
    split at hget
    · cases hget
    · rename_i hpart
      have ha : c.conditionsOn i.partition = [a] := Option.some.inj hget
      split at h
      · cases h
      · rename_i heq
        have hpinned : c.PinnedOn i.partition := ⟨a, ha, by simpa using heq⟩
        cases hsort : i.sort with
        | none =>
          simp only [hsort, Option.bind_none] at h
          split at h
          · rename_i hsize
            have hall := (size_eq_one_iff hpart).1 hsize
            refine ⟨hpinned, fun s hs => ?_, fun b hb => by simp [hall b hb]⟩
            cases hs
          · cases h
        | some s =>
          rw [hsort] at hne
          simp only [hsort, Option.bind_some, Criteria.get?_conditionsByProperty] at h
          by_cases hnil : c.conditionsOn s = []
          · simp only [hnil, if_true] at h
            split at h
            · rename_i hsize
              have hall := (size_eq_one_iff hpart).1 hsize
              refine ⟨hpinned, fun t ht => ?_, fun b hb => by simp [hall b hb]⟩
              cases ht
              exact Or.inl hnil
            · cases h
          · have hps : i.partition ≠ s := fun he => hne (by rw [he])
            simp only [hnil, if_false] at h
            split at h
            · rename_i hnone
              cases hnone
            · rename_i b hb
              split at h
              · rename_i hlegal
                rw [Bool.and_eq_true, decide_eq_true_eq] at hlegal
                refine ⟨hpinned, fun t ht => ?_, (size_eq_two_iff hps hpart hnil).1 hlegal.2⟩
                cases ht
                exact Or.inr ⟨b, Option.some.inj hb, hlegal.1⟩
              · cases h
            · cases h
  · cases h

theorem keyConditions?_eq_none {i : IndexDefinition} (hne : i.sort ≠ some i.partition)
    (hnot : ¬ c.ServedBy i.partition i.sort) :
    keyConditions? i c.conditionsByProperty = none := by
  rw [Option.eq_none_iff_forall_ne_some]
  intro r hr
  exact hnot (served_of_keyConditions? hne hr)

/-- An index that serves the conditions gives the order that is asked for, or a fault. -/
theorem indexOrder_of_served {i : IndexDefinition} (hserved : c.ServedBy i.partition i.sort) :
    (c.OrderedBy i.sort ∧ indexOrder c.sort i (c.rangeOn i.sort) = .ok c.sort.head?) ∨
      (¬ c.OrderedBy i.sort ∧ ∃ fault, indexOrder c.sort i (c.rangeOn i.sort) = .error fault) := by
  unfold indexOrder Criteria.OrderedBy
  cases hd : c.sort.head? with
  | none =>
    refine Or.inl ⟨?_, rfl⟩
    intro d hd'
    cases hd'
  | some d =>
    dsimp only
    cases hsort : i.sort with
    | none =>
      refine Or.inr ⟨fun hord => ?_, _, rfl⟩
      have := (hord d rfl).1
      cases this
    | some s =>
      dsimp only
      by_cases hds : d.property = s
      · subst hds
        rw [if_neg (not_not.2 rfl)]
        unfold Criteria.rangeOn
        rcases hserved.ranged _ hsort with hnil | ⟨b, hb, -⟩
        · refine Or.inl ⟨fun d' hd' => ?_, by simp [hnil]⟩
          cases hd'
          exact ⟨rfl, by simp [hnil]⟩
        · by_cases heq : b.condition.isEquality = true
          · refine Or.inr ⟨fun hord => ?_, .indexFullyPinned i.name, by simp [hb, heq]⟩
            have hfalse := (hord d rfl).2 b (by simp [hb])
            rw [heq] at hfalse
            cases hfalse
          · refine Or.inl ⟨fun d' hd' => ?_, by simp [hb, heq]⟩
            cases hd'
            exact ⟨rfl, by simpa [hb] using heq⟩
      · rw [if_pos hds]
        refine Or.inr ⟨fun hord => ?_, _, rfl⟩
        have := (hord d rfl).1
        exact hds (Option.some.inj this).symm

end AccessPath

end KeyAccess
