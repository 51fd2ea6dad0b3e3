-- When a key serves criteria: an equality on its partition member, at most one condition on its
-- sort member, of a kind that key conditions may use, and nothing else. The choices of a load, of
-- a query on the primary key and of a query on an index each come down to this one notion.
import Mathlib
import KeyAccess.AccessPath.Selection
import KeyAccess.Request.Construction
import KeyAccess.Proofs.Criteria.Grouping

namespace KeyAccess

/-! ## The notion -/

namespace Criteria

/-- The property carries exactly one condition, which is an equality. -/
def PinnedOn (c : Criteria) (property : String) : Prop :=
  ∃ a, c.conditionsOn property = [a] ∧ a.condition.isEquality = true

/-- The property carries at most one condition, and one that a key condition may use. -/
def RangedOn (c : Criteria) (property : String) : Prop :=
  c.conditionsOn property = [] ∨
    ∃ a, c.conditionsOn property = [a] ∧ a.condition.isQueryLegal = true

/-- A key with a partition member and perhaps a sort member serves all conditions. -/
structure ServedBy (c : Criteria) (partition : String) (sort : Option String) : Prop where
  pinned : c.PinnedOn partition
  ranged : ∀ s, sort = some s → c.RangedOn s
  nothing_else : ∀ a ∈ c.allConditions, a.property ∈ partition :: sort.toList

/-- The conditions are an equality on every member of the primary key and nothing else. -/
structure FullyPinned (c : Criteria) : Prop where
  partition : c.PinnedOn c.schema.partitionKey
  sort : ∀ s, c.schema.sortKey = some s → c.PinnedOn s
  nothing_else : ∀ a ∈ c.allConditions,
    a.property ∈ c.schema.partitionKey :: c.schema.sortKey.toList

variable {c : Criteria}

/-! ## The primary key -/

/-- Sound criteria hold a pinning equality on the partition key in its slot. -/
theorem pinnedOn_partitionKey_iff (h : c.Sound) (hs : c.schema.Sound) :
    c.PinnedOn c.schema.partitionKey ↔ c.partitionEquality.isSome = true ∧
      (c.otherConditions.get? c.schema.partitionKey).getD [] = [] := by
  unfold PinnedOn
  rw [conditionsOn_partitionKey h hs]
  cases hp : c.partitionEquality with
  | some a =>
    have ha := (h.partition_equality a hp).2
    simp [ha]
  | none =>
    simp only [Option.toList_none, List.nil_append, Option.isSome_none, Bool.false_eq_true,
      false_and, iff_false]
    rintro ⟨a, hone, heq⟩
    cases hl : c.otherConditions.get? c.schema.partitionKey with
    | none => simp [hl] at hone
    | some l =>
      rw [hl, Option.getD_some] at hone
      have hfalse := h.others_not_pinned l hl a (hone ▸ List.mem_singleton_self a)
      rw [heq] at hfalse
      cases hfalse

theorem conditionsOn_sortKey_eq_singleton_iff (h : c.Sound) (hs : c.schema.Sound) {sort : String}
    (hsort : c.schema.sortKey = some sort) (b : AttributeCondition) :
    c.conditionsOn sort = [b] ↔
      c.sortCondition = some b ∧ (c.otherConditions.get? sort).getD [] = [] := by
  rw [conditionsOn_sortKey h hs hsort]
  cases hb : c.sortCondition with
  | some a => simp
  | none =>
    rw [h.sort_slot_first sort hsort hb]
    simp

theorem conditionsOn_sortKey_eq_nil_iff (h : c.Sound) (hs : c.schema.Sound) {sort : String}
    (hsort : c.schema.sortKey = some sort) :
    c.conditionsOn sort = [] ↔ c.sortCondition = none := by
  rw [conditionsOn_sortKey h hs hsort]
  cases hb : c.sortCondition with
  | some a => simp
  | none =>
    rw [h.sort_slot_first sort hsort hb]
    simp

/-- Conditions that stand on key properties only, and not among the others of those, leave no
others at all. -/
theorem others_isEmpty_of_members (h : c.Sound) {members : List String}
    (hmembers : ∀ p ∈ members, (c.otherConditions.get? p).getD [] = [])
    (hall : ∀ a ∈ c.allConditions, a.property ∈ members) :
    c.otherConditions.isEmpty = true := by
  rw [others_isEmpty_iff h]
  intro p
  by_contra hne
  obtain ⟨a, ha⟩ := List.exists_mem_of_ne_nil _ hne
  have hon : a ∈ c.conditionsOn p := by
    rw [conditionsOn_eq h]
    exact List.mem_append_right _ ha
  obtain ⟨hin, rfl⟩ := mem_conditionsOn.1 hon
  exact hne (hmembers _ (hall a hin))

/-- The conditions in the slots of the primary key stand on its members. -/
theorem members_of_no_others (h : c.Sound) (hempty : c.otherConditions.isEmpty = true) :
    ∀ a ∈ c.allConditions, a.property ∈ c.schema.partitionKey :: c.schema.sortKey.toList := by
  intro a ha
  rw [allConditions_of_no_others hempty, List.mem_append, Option.mem_toList, Option.mem_toList]
    at ha
  rcases ha with ha | ha
  · rw [(h.partition_equality a ha).1]
    exact List.mem_cons_self
  · rw [h.sort_condition a ha]
    exact List.mem_cons_of_mem _ (by simp)

/-- Which slots are filled when the primary key is fully pinned. -/
theorem fullyPinned_iff (h : c.Sound) (hs : c.schema.Sound) :
    c.FullyPinned ↔ c.partitionEquality.isSome = true ∧ c.otherConditions.isEmpty = true ∧
      ∀ s, c.schema.sortKey = some s →
        ∃ b, c.sortCondition = some b ∧ b.condition.isEquality = true := by
  constructor
  · rintro ⟨hpart, hsort, hall⟩
    obtain ⟨hslot, hrest⟩ := (pinnedOn_partitionKey_iff h hs).1 hpart
    have hsorts : ∀ s, c.schema.sortKey = some s →
        (∃ b, c.sortCondition = some b ∧ b.condition.isEquality = true) ∧
          (c.otherConditions.get? s).getD [] = [] := by
      intro s hsk
      obtain ⟨b, hb, heq⟩ := hsort s hsk
      obtain ⟨hb, hnil⟩ := (conditionsOn_sortKey_eq_singleton_iff h hs hsk b).1 hb
      exact ⟨⟨b, hb, heq⟩, hnil⟩
    refine ⟨hslot, others_isEmpty_of_members h ?_ hall, fun s hsk => (hsorts s hsk).1⟩
    intro p hp
    rcases List.mem_cons.1 hp with rfl | hp
    · exact hrest
    · exact (hsorts p (Option.mem_toList.1 hp)).2
  · rintro ⟨hslot, hempty, hsort⟩
    have hnil := (others_isEmpty_iff h).1 hempty
    refine ⟨(pinnedOn_partitionKey_iff h hs).2 ⟨hslot, hnil _⟩, fun s hsk => ?_,
      members_of_no_others h hempty⟩
    obtain ⟨b, hb, heq⟩ := hsort s hsk
    exact ⟨b, (conditionsOn_sortKey_eq_singleton_iff h hs hsk b).2 ⟨hb, hnil s⟩, heq⟩

/-- Which slots are filled when a composite primary key serves all conditions. -/
theorem servedBy_primaryKey_iff (h : c.Sound) (hs : c.schema.Sound) {sort : String}
    (hsort : c.schema.sortKey = some sort) :
    c.ServedBy c.schema.partitionKey (some sort) ↔
      c.partitionEquality.isSome = true ∧ c.otherConditions.isEmpty = true ∧
        ∀ b, c.sortCondition = some b → b.condition.isQueryLegal = true := by
  constructor
  · rintro ⟨hpart, hrange, hall⟩
    obtain ⟨hslot, hrest⟩ := (pinnedOn_partitionKey_iff h hs).1 hpart
    have hsorts : (∀ b, c.sortCondition = some b → b.condition.isQueryLegal = true) ∧
        (c.otherConditions.get? sort).getD [] = [] := by
      rcases hrange sort rfl with hnil | ⟨b, hb, hlegal⟩
      · have hnone := (conditionsOn_sortKey_eq_nil_iff h hs hsort).1 hnil
        refine ⟨fun b hb => ?_, by rw [h.sort_slot_first sort hsort hnone]; rfl⟩
        rw [hnone] at hb
        cases hb
      · obtain ⟨hb, hnil⟩ := (conditionsOn_sortKey_eq_singleton_iff h hs hsort b).1 hb
        refine ⟨fun b' hb' => ?_, hnil⟩
        rw [hb] at hb'
        cases hb'
        exact hlegal
    refine ⟨hslot, others_isEmpty_of_members h ?_ hall, hsorts.1⟩
    intro p hp
    rcases List.mem_cons.1 hp with rfl | hp
    · exact hrest
    · cases Option.mem_toList.1 hp
      exact hsorts.2
  · rintro ⟨hslot, hempty, hlegal⟩
    have hnil := (others_isEmpty_iff h).1 hempty
    have hall := members_of_no_others h hempty
    rw [hsort] at hall
    refine ⟨(pinnedOn_partitionKey_iff h hs).2 ⟨hslot, hnil _⟩, fun s hsk => ?_, hall⟩
    cases hsk
    cases hb : c.sortCondition with
    | none => exact Or.inl ((conditionsOn_sortKey_eq_nil_iff h hs hsort).2 hb)
    | some b =>
      exact Or.inr ⟨b, (conditionsOn_sortKey_eq_singleton_iff h hs hsort b).2 ⟨hb, hnil _⟩,
        hlegal b hb⟩

end Criteria

end KeyAccess
