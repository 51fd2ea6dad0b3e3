-- The law of places: however criteria are reached, each condition stands in the place of its
-- property and its operator, on the attribute of its property and with the values that its operator
-- compares with, and there are as many conditions as clauses were accepted.
import Mathlib
import KeyAccess.Proofs.Criteria.Asked
import KeyAccess.Proofs.Schema.Built

namespace KeyAccess

/-! ## One condition for each clause -/

/-- Calls ask for as many conditions as they have clauses. -/
theorem EncodingContext.length_askedByAll {ctx : EncodingContext} {calls : List Call}
    {asked : List AttributeCondition} (h : ctx.askedByAll calls = .ok asked) :
    asked.length = (calls.flatMap Call.clauses).length := by
  induction calls generalizing ctx asked with
  | nil =>
    cases h
    rfl
  | cons call rest ih =>
    obtain ⟨here, hhere, h⟩ := bind_eq_ok_iff.1 h
    obtain ⟨later, hlater, h⟩ := bind_eq_ok_iff.1 h
    cases h
    have hlength := (mapM_eq_ok_iff.1 hhere).length_eq
    rw [List.flatMap_cons, List.length_append, List.length_append, hlength, ih hlater]

namespace Criteria

theorem length_allConditions_run {schema : KeySchema} {config : QueryConfig} {calls : List Call}
    {c : Criteria} (hrun : (ofEntity ⟨schema, config⟩).run calls = .ok c) :
    c.allConditions.length = (calls.flatMap Call.clauses).length := by
  obtain ⟨asked, hasked, hperm⟩ := run_perm hrun
  have hempty : (ofEntity ⟨schema, config⟩).allConditions = [] := rfl
  rw [hempty, List.append_nil] at hperm
  rw [hperm.length_eq, EncodingContext.length_askedByAll hasked]

theorem mem_allConditions_of_partition {c : Criteria} {a : AttributeCondition}
    (h : c.partitionEquality = some a) : a ∈ c.allConditions := by
  unfold allConditions
  simp [h]

/-! ## The law -/

/-- After any calls that all succeed, the equality on the partition key stands in its slot and the
first condition on the sort key in the other, all further conditions stand by their properties, and
none is lost or added. -/
theorem conditions_stand_in_their_places {schema : KeySchema} {config : QueryConfig}
    {calls : List Call} {c : Criteria} (hrun : (ofEntity ⟨schema, config⟩).run calls = .ok c) :
    (∀ a, c.partitionEquality = some a →
      a.property = schema.partitionKey ∧ ∃ value, a.condition = ⟨.eq, [value]⟩) ∧
    (∀ a, c.sortCondition = some a → schema.sortKey = some a.property) ∧
    (∀ partition, schema.shape = .partitionOnly partition → c.sortCondition = none) ∧
    (∀ property others, c.otherConditions.get? property = some others →
      others ≠ [] ∧ ∀ a ∈ others, a.property = property ∧ ¬ schema.Pins a ∧
        (schema.sortKey = some a.property → c.sortCondition.isSome = true)) ∧
    (∀ a ∈ c.allConditions,
      a.attributeName = schema.attributeName a.property ∧ a.condition.Fits) ∧
    c.allConditions.length = (calls.flatMap Call.clauses).length := by
  have hreach : Reachable schema c := ⟨config, calls, hrun⟩
  have h := hreach.sound
  obtain rfl := hreach.schema_eq
  refine ⟨?_, h.sort_condition, ?_, ?_, ?_, length_allConditions_run hrun⟩
  · intro a ha
    obtain ⟨hproperty, hequality⟩ := h.partition_equality a ha
    exact ⟨hproperty, (h.fits a (mem_allConditions_of_partition ha)).eq_of_isEquality hequality⟩
  · intro partition hshape
    rw [Option.eq_none_iff_forall_ne_some]
    intro a ha
    have hsort := h.sort_condition a ha
    rw [KeySchema.sortKey, hshape] at hsort
    cases hsort
  · intro property others hothers
    refine ⟨h.others_filled property others hothers, fun a ha => ?_⟩
    obtain rfl := h.others_keyed property others hothers a ha
    refine ⟨rfl, ?_, fun hsort => ?_⟩
    · rintro ⟨hkey, hequality⟩
      rw [hkey] at hothers
      rw [h.others_not_pinned others hothers a ha] at hequality
      cases hequality
    · -- were the slot free, the property would have no list
      rw [Option.isSome_iff_ne_none]
      intro hfree
      rw [h.sort_slot_first _ hsort hfree] at hothers
      cases hothers
  · exact fun a ha => ⟨h.named a ha, h.fits a ha⟩

/-- The titled notes of an author between two days, of which five are wanted. -/
def fiveNotes : List Call :=
  [.range "day" .ge (.string "a"), .equality "author" (.string "x"), .limit 5,
    .range "day" .lt (.string "c"), .nullCheck "title" false]

theorem the_conditions_of_five_notes :
    ∃ c, (ofEntity ⟨noteSchema, {}⟩).run fiveNotes = .ok c ∧
      c.sortCondition = some ⟨"day", "d", ⟨.ge, [.string "a"]⟩⟩ ∧
      c.otherConditions.get? "day" = some [⟨"day", "d", ⟨.lt, [.string "c"]⟩⟩] ∧
      (∀ a ∈ c.allConditions, a.attributeName = noteSchema.attributeName a.property ∧
        a.condition.Fits) ∧
      c.allConditions.length = 4 := by
  have hok : ((ofEntity ⟨noteSchema, {}⟩).run fiveNotes >>= fun c =>
      Except.ok (c.sortCondition, c.otherConditions.get? "day")) =
      .ok (some ⟨"day", "d", ⟨.ge, [.string "a"]⟩⟩,
        some [⟨"day", "d", ⟨.lt, [.string "c"]⟩⟩]) := by
    decide +kernel
  obtain ⟨c, hrun, hplaces⟩ := bind_eq_ok_iff.1 hok
  simp only [Except.ok.injEq, Prod.mk.injEq] at hplaces
  obtain ⟨-, -, -, -, hall, hlength⟩ := conditions_stand_in_their_places hrun
  exact ⟨c, hrun, hplaces.1, hplaces.2, hall, hlength⟩

end Criteria

end KeyAccess
