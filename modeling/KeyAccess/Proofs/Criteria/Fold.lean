-- What adding many clauses comes to. Every condition has a place to go to but a second equality on
-- the partition key, so whether all clauses are accepted does not depend on their order. Conditions
-- on different properties go to their places in either order, so the criteria depend only on the
-- order of the clauses on each property.
import Mathlib
import KeyAccess.Proofs.Criteria.Asked

namespace KeyAccess

namespace Criteria

variable {c c' : Criteria} {a b : AttributeCondition}

/-! ## One clause -/

theorem withClause_eq_ok_iff_put {clause : Clause} :
    c.withClause clause = .ok c' ↔ ∃ a, c.context.askedBy clause = .ok a ∧
      (c.schema.Pins a → c.partitionEquality = none) ∧ c.put a = c' := by
  rw [withClause_eq_ok_iff]
  constructor
  · rintro ⟨condition, hcondition, hplace⟩
    exact ⟨_, bind_eq_ok_iff.2 ⟨condition, hcondition, rfl⟩, place_eq_ok_iff.1 hplace⟩
  · rintro ⟨a, hasked, hplace⟩
    obtain ⟨condition, hcondition, ha⟩ := bind_eq_ok_iff.1 hasked
    cases ha
    exact ⟨condition, hcondition, place_eq_ok_iff.2 hplace⟩

/-! ## Many clauses -/

/-- The equalities on the partition key, the one that is held and those among some conditions. -/
def pinning (c : Criteria) (asked : List AttributeCondition) : List AttributeCondition :=
  c.partitionEquality.toList ++ asked.filter (fun a => c.schema.Pins a)

/-- One condition more is no equality on the partition key too many if the slot is free for it and
those after it find their place. -/
theorem length_pinning_cons (c : Criteria) (a : AttributeCondition)
    (asked : List AttributeCondition) :
    (c.pinning (a :: asked)).length ≤ 1 ↔
      (c.schema.Pins a → c.partitionEquality = none) ∧ ((c.put a).pinning asked).length ≤ 1 := by
  unfold pinning
  rw [(sameRest_put c a).schema, put_partitionEquality]
  by_cases hpins : c.schema.Pins a
  · cases hheld : c.partitionEquality <;> simp [hpins]
  · simp [hpins]

/-- Clauses are accepted if their values can be encoded and if there is at most one equality on the
partition key; then each condition is put in its place. -/
theorem withClauses_eq_ok_iff {clauses : List Clause} :
    c.withClauses clauses = .ok c' ↔ ∃ asked, clauses.mapM c.context.askedBy = .ok asked ∧
      (c.pinning asked).length ≤ 1 ∧ asked.foldl put c = c' := by
  induction clauses generalizing c with
  | nil =>
    have hone : (c.pinning []).length ≤ 1 := by
      unfold pinning
      cases c.partitionEquality <;> simp
    constructor
    · intro h
      cases h
      exact ⟨[], rfl, hone, rfl⟩
    · rintro ⟨asked, hasked, -, rfl⟩
      cases hasked
      rfl
  | cons clause rest ih =>
    -- the bound on the equalities tells both that this one has its place and that the rest has
    unfold withClauses
    rw [List.foldlM_cons, bind_eq_ok_iff]
    constructor
    · rintro ⟨c₁, hclause, hrest⟩
      obtain ⟨a, ha, hfree, rfl⟩ := withClause_eq_ok_iff_put.1 hclause
      obtain ⟨asked, hasked, hpinning, rfl⟩ := ih.1 hrest
      rw [(sameRest_put c a).context] at hasked
      refine ⟨a :: asked, ?_, (length_pinning_cons c a asked).2 ⟨hfree, hpinning⟩, rfl⟩
      rw [mapM_eq_ok_iff] at hasked ⊢
      exact hasked.cons ha
    · rintro ⟨asked, hasked, hpinning, rfl⟩
      rw [mapM_eq_ok_iff] at hasked
      cases hasked with
      | @cons _ a _ asked ha hasked =>
        obtain ⟨hfree, hpinning⟩ := (length_pinning_cons c a asked).1 hpinning
        refine ⟨c.put a, withClause_eq_ok_iff_put.2 ⟨a, ha, hfree, rfl⟩, ih.2 ?_⟩
        rw [(sameRest_put c a).context]
        exact ⟨asked, mapM_eq_ok_iff.2 hasked, hpinning, rfl⟩

theorem asked_perm {ctx : EncodingContext} {clauses others : List Clause}
    {asked : List AttributeCondition} (hperm : clauses.Perm others)
    (h : clauses.mapM ctx.askedBy = .ok asked) :
    ∃ asked', others.mapM ctx.askedBy = .ok asked' ∧ asked'.Perm asked := by
  obtain ⟨asked', hasked', hperm'⟩ := List.perm_comp_forall₂ hperm.symm (mapM_eq_ok_iff.1 h)
  exact ⟨asked', mapM_eq_ok_iff.2 hasked', hperm'⟩

/-- Whether clauses are accepted does not depend on their order. -/
theorem withClauses_ok_of_perm {clauses others : List Clause} (hperm : clauses.Perm others)
    (h : c.withClauses clauses = .ok c') : ∃ c'', c.withClauses others = .ok c'' := by
  obtain ⟨asked, hasked, hpinning, -⟩ := withClauses_eq_ok_iff.1 h
  obtain ⟨asked', hasked', hperm'⟩ := asked_perm hperm hasked
  have hlength : (c.pinning asked').length = (c.pinning asked).length :=
    ((hperm'.filter _).append_left _).length_eq
  exact ⟨_, withClauses_eq_ok_iff.2 ⟨asked', hasked', hlength ▸ hpinning, rfl⟩⟩

/-! ## The order of clauses on different properties -/

/-- Conditions on different properties are put in their places in either order. -/
theorem put_comm (c : Criteria) (hne : a.property ≠ b.property) :
    (c.put a).put b = (c.put b).put a := by
  have hpins : c.schema.Pins a → ¬ c.schema.Pins b := fun ha hb => hne (ha.1.trans hb.1.symm)
  -- the slots of the two keys serve one property each, so neither condition takes the other's
  unfold put
  by_cases ha : c.schema.Pins a
  · have hb := hpins ha
    by_cases hs : c.schema.sortKey = some b.property ∧ c.sortCondition = none <;> simp [ha, hb, hs]
  · by_cases hb : c.schema.Pins b
    · by_cases hs : c.schema.sortKey = some a.property ∧ c.sortCondition = none <;>
        simp [ha, hb, hs]
    · by_cases hs : c.schema.sortKey = some a.property ∧ c.sortCondition = none
      · simp [ha, hb, hs, hne]
      · by_cases hs' : c.schema.sortKey = some b.property ∧ c.sortCondition = none
        · simp [ha, hb, hs', hne.symm]
        · simp [ha, hb, hs, hs', SortedMap.update_comm _ hne]

section Steps

variable {α β : Type} {f : β → α → β} {key : α → String}

/-- A step moves to the front of a fold past steps with other keys. -/
theorem foldl_front (hcomm : ∀ s a b, key a ≠ key b → f (f s a) b = f (f s b) a) {pre : List α}
    {a : α} (hpre : ∀ b ∈ pre, key b ≠ key a) (s : β) :
    f (pre.foldl f s) a = pre.foldl f (f s a) := by
  induction pre generalizing s with
  | nil => rfl
  | cons b pre ih =>
    rw [List.forall_mem_cons] at hpre
    rw [List.foldl_cons, List.foldl_cons, ih hpre.2, hcomm s b a hpre.1]

/-- A fold of steps that commute unless they have the same key depends only on the order of the
steps with each key. -/
theorem foldl_eq_of_filter_eq
    (hcomm : ∀ s a b, key a ≠ key b → f (f s a) b = f (f s b) a) {l l' : List α}
    (h : ∀ k, l.filter (fun a => key a == k) = l'.filter (fun a => key a == k)) (s : β) :
    l.foldl f s = l'.foldl f s := by
  induction l generalizing l' s with
  | nil =>
    cases l' with
    | nil => rfl
    | cons b l' =>
      have hb := h (key b)
      simp at hb
  | cons a l ih =>
    -- the first step with the key of `a` on the other side is `a` as well
    have ha := h (key a)
    rw [List.filter_cons_of_pos (by simp)] at ha
    obtain ⟨pre, post, rfl, hpre, -, hpost⟩ := List.filter_eq_cons_iff.1 ha.symm
    have hother : ∀ b ∈ pre, key b ≠ key a := by simpa using hpre
    rw [List.foldl_append, List.foldl_cons, List.foldl_cons, foldl_front hcomm hother,
      ← List.foldl_append]
    refine ih (fun k => ?_) _
    by_cases hk : key a = k
    · subst hk
      rw [List.filter_append, List.filter_eq_nil_iff.2 hpre, List.nil_append, hpost]
    · have hrest := h k
      rw [List.filter_cons_of_neg (by simpa using hk), List.filter_append,
        List.filter_cons_of_neg (by simpa using hk), ← List.filter_append] at hrest
      exact hrest

end Steps

theorem asked_filter {ctx : EncodingContext} {clauses : List Clause}
    {asked : List AttributeCondition} (h : clauses.mapM ctx.askedBy = .ok asked)
    (property : String) : (clauses.filter (fun clause => clause.property == property)).mapM
      ctx.askedBy = .ok (asked.filter (fun a => a.property == property)) := by
  rw [mapM_eq_ok_iff] at h ⊢
  induction h with
  | nil => exact List.Forall₂.nil
  | @cons clause a _ _ hstep _ ih =>
    obtain ⟨condition, -, ha⟩ := bind_eq_ok_iff.1 hstep
    have hproperty : a.property = clause.property := by
      cases ha
      rfl
    rw [List.filter_cons, List.filter_cons, hproperty]
    split
    · exact ih.cons hstep
    · exact ih

/-- Clauses that stand in the same order on each property lead to the same criteria. -/
theorem withClauses_same_order {clauses others : List Clause} {c₁ c₂ : Criteria}
    (hsame : ∀ property, clauses.filter (fun clause => clause.property == property) =
      others.filter (fun clause => clause.property == property))
    (h₁ : c.withClauses clauses = .ok c₁) (h₂ : c.withClauses others = .ok c₂) : c₁ = c₂ := by
  obtain ⟨asked, hasked, -, rfl⟩ := withClauses_eq_ok_iff.1 h₁
  obtain ⟨asked', hasked', -, rfl⟩ := withClauses_eq_ok_iff.1 h₂
  refine foldl_eq_of_filter_eq (fun s a b hne => put_comm s hne) (fun property => ?_) c
  have hfilter := asked_filter hasked property
  rw [hsame property, asked_filter hasked' property] at hfilter
  exact (Except.ok.inj hfilter).symm

end Criteria

end KeyAccess
