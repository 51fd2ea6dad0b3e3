-- Where conditions stand in criteria. Every reached criteria keep the invariant `Sound`: the
-- conditions stand where their property and their operator put them, each on the attribute of its
-- property and with as many values as its operator compares with.
import Mathlib
import KeyAccess.Proofs.Clause.Fits
import KeyAccess.Proofs.Criteria.Filter
import KeyAccess.Proofs.Criteria.Run

namespace KeyAccess

namespace Criteria

/-! ## The invariant -/

structure Sound (c : Criteria) : Prop where
  partition_equality : ∀ a, c.partitionEquality = some a →
    a.property = c.schema.partitionKey ∧ a.condition.isEquality = true
  sort_condition : ∀ a, c.sortCondition = some a → c.schema.sortKey = some a.property
  others_filled : ∀ p l, c.otherConditions.get? p = some l → l ≠ []
  others_keyed : ∀ p l, c.otherConditions.get? p = some l → ∀ a ∈ l, a.property = p
  others_not_pinned : ∀ l, c.otherConditions.get? c.schema.partitionKey = some l →
    ∀ a ∈ l, a.condition.isEquality = false
  sort_slot_first : ∀ p, c.schema.sortKey = some p → c.sortCondition = none →
    c.otherConditions.get? p = none
  named : ∀ a ∈ c.allConditions, a.attributeName = c.schema.attributeName a.property
  fits : ∀ a ∈ c.allConditions, a.condition.Fits
  filter_unreserved : ∀ f, c.filter = some f → f.Unreserved

/-- A condition that is placed joins the others of its criteria; none of them is lost. -/
theorem place_perm {c c' : Criteria} {property : String} {condition : Condition}
    (h : c.place property condition = .ok c') :
    c'.allConditions.Perm (c.schema.conditionOn property condition :: c.allConditions) := by
  unfold allConditions
  rcases place_cases h with ⟨-, -, hfree, rfl⟩ | ⟨-, hfree, rfl⟩ | ⟨-, -, rfl⟩
  · simp [hfree]
  · simp only [hfree, Option.toList_some, Option.toList_none, List.append_nil, List.append_assoc,
      List.singleton_append]
    exact List.perm_middle
  · exact ((SortedMap.flatten_values_append _ _ _).append_left _).trans List.perm_middle

theorem sound_place {c c' : Criteria} {property : String} {condition : Condition} (h : c.Sound)
    (hfits : condition.Fits) (hplace : c.place property condition = .ok c') : c'.Sound := by
  have hall : ∀ a ∈ c'.allConditions,
      a = c.schema.conditionOn property condition ∨ a ∈ c.allConditions := by
    intro a ha
    exact List.mem_cons.1 ((place_perm hplace).mem_iff.1 ha)
  have hschema := (place_frame hplace).schema
  have hnamed : ∀ a ∈ c'.allConditions, a.attributeName = c'.schema.attributeName a.property := by
    intro a ha
    rw [hschema]
    rcases hall a ha with rfl | ha
    · rfl
    · exact h.named a ha
  have hfit : ∀ a ∈ c'.allConditions, a.condition.Fits := by
    intro a ha
    rcases hall a ha with rfl | ha
    · exact hfits
    · exact h.fits a ha
  rcases place_cases hplace with ⟨hp, he, -, rfl⟩ | ⟨hs, -, rfl⟩ | ⟨hnot, hslot, rfl⟩
  · refine { h with partition_equality := ?_, named := hnamed, fits := hfit }
    intro a ha
    cases ha
    exact ⟨hp, he⟩
  · refine { h with sort_condition := ?_, sort_slot_first := ?_, named := hnamed, fits := hfit }
    · intro a ha
      cases ha
      exact hs
    · intro p _ hnone
      cases hnone
  · -- the list of the property gets one more condition, all other lists stay
    refine { h with others_filled := ?_, others_keyed := ?_, others_not_pinned := ?_,
                    sort_slot_first := ?_, named := hnamed, fits := hfit }
    · intro p l hl
      change (c.otherConditions.update property [] _).get? p = some l at hl
      rw [SortedMap.get?_update] at hl
      by_cases hp : p = property
      · rw [if_pos hp] at hl
        cases hl
        simp
      · rw [if_neg hp] at hl
        exact h.others_filled p l hl
    · intro p l hl a ha
      rcases SortedMap.mem_of_get?_append hl ha with ⟨rfl, rfl⟩ | ⟨kept, hkept, ha⟩
      · rfl
      · exact h.others_keyed p kept hkept a ha
    · intro l hl a ha
      rcases SortedMap.mem_of_get?_append hl ha with ⟨hp, rfl⟩ | ⟨kept, hkept, ha⟩
      · exact Bool.eq_false_iff.2 (fun he => hnot ⟨hp.symm, he⟩)
      · exact h.others_not_pinned kept hkept a ha
    · intro p hp hnone
      change (c.otherConditions.update property [] _).get? p = none
      rw [SortedMap.get?_update]
      by_cases hpp : p = property
      · subst hpp
        have := hslot hp
        rw [hnone] at this
        cases this
      · rw [if_neg hpp]
        exact h.sort_slot_first p hp hnone

theorem sound_same {c c' : Criteria} (h : c.Sound) (hsame : SameConditions c c')
    (hfilter : ∀ f, c'.filter = some f → f.Unreserved) : c'.Sound := by
  have hall := hsame.allConditions
  obtain ⟨hs, hp, hk, ho⟩ := hsame
  constructor
  · rw [hp, hs]; exact h.partition_equality
  · rw [hk, hs]; exact h.sort_condition
  · rw [ho]; exact h.others_filled
  · rw [ho]; exact h.others_keyed
  · rw [ho, hs]; exact h.others_not_pinned
  · rw [hs, hk, ho]; exact h.sort_slot_first
  · rw [hall, hs]; exact h.named
  · rw [hall]; exact h.fits
  · exact hfilter

theorem sound_ofEntity (d : EntityDefinition) : (ofEntity d).Sound := by
  have hempty : (ofEntity d).allConditions = [] := rfl
  constructor
  · intro a ha; cases ha
  · intro a ha; cases ha
  · intro p l hl; cases hl
  · intro p l hl; cases hl
  · intro l hl; cases hl
  · intro p _ _; rfl
  · simp [hempty]
  · simp [hempty]
  · intro f hf; cases hf

theorem sound_run {c c' : Criteria} {calls : List Call} (h : c.Sound)
    (hrun : c.run calls = .ok c') : c'.Sound := by
  refine run_induction (P := Sound) ?_ ?_ h hrun
  · intro c c' clause condition hc hcond hplace
    exact sound_place hc (EncodingContext.conditionOf_fits hcond) hplace
  · intro c c₁ c' hc hkept hsame hfilter
    refine sound_same hc hsame (fun f hf => ?_)
    rcases hfilter with hfilter | ⟨raw, b, hb, hfilter⟩
    · exact hc.filter_unreserved f (by rw [hkept, ← hfilter, hf])
    · rw [hf] at hfilter
      cases hfilter
      exact RawFilter.bind_unreserved hb

theorem Reachable.sound {schema : KeySchema} {c : Criteria} (h : Reachable schema c) : c.Sound := by
  obtain ⟨config, calls, hrun⟩ := h
  exact sound_run (sound_ofEntity _) hrun

end Criteria

end KeyAccess
