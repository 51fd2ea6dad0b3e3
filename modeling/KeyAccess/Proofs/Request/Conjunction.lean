-- The law of conjunctions: nothing is lost when conditions are written as an expression. The text
-- and the bindings of its placeholders are read back as the attributes, operators and values of
-- the conditions, in their order, so two lists of conditions that are written alike say the same.
import Mathlib
import KeyAccess.Proofs.Request.Reading
import KeyAccess.Proofs.Request.Slots

namespace KeyAccess

/-! ## Terms read back -/

/-- What a condition says of its attribute. -/
def AttributeCondition.said (a : AttributeCondition) : ReadTerm :=
  ⟨a.attributeName, a.operator, a.condition.values⟩

theorem mapM_eq_some_of_forall₂ {α β : Type} {f : α → Option β} {l : List α} {r : List β}
    (h : List.Forall₂ (fun a b => f a = some b) l r) : l.mapM f = some r := by
  induction h with
  | nil => rfl
  | cons hab _ ih => rw [List.mapM_cons, hab, ih]; rfl

namespace Reader

variable {s : Slots} {t : Term} {a : AttributeCondition} {names : SortedMap String}
  {values : SortedMap AttributeValue}

theorem fits_of_holds (h : s.Holds t a) (hfit : a.condition.Fits) : t.Fits := by
  have hlen := h.values.length_eq
  rw [List.length_range'] at hlen
  unfold Term.Fits
  rw [h.operator, hlen]
  exact hfit

theorem forall₂_fits {ts : List Term} {conditions : List AttributeCondition}
    (h : List.Forall₂ s.Holds ts conditions) (hfit : ∀ a ∈ conditions, a.condition.Fits) :
    List.Forall₂ (fun t a => t.Fits ∧ s.Holds t a) ts conditions := by
  induction h with
  | nil => exact List.Forall₂.nil
  | cons hholds _ ih =>
    rw [List.forall_mem_cons] at hfit
    exact List.Forall₂.cons ⟨fits_of_holds hholds hfit.1, hholds⟩ (ih hfit.2)

theorem resolve_holds (h : s.Holds t a) (hbound : s.BoundIn names values) :
    resolve names values ⟨namePlaceholder t.attributeSlot, t.operator, t.valueTexts⟩ =
      some a.said := by
  have hvalues : t.valueTexts.mapM values.get? = some a.condition.values := by
    refine mapM_eq_some_of_forall₂ ?_
    unfold Term.valueTexts
    rw [List.forall₂_map_left_iff]
    exact h.values.imp (fun _ _ hv => hbound.values hv)
  unfold resolve
  dsimp only
  rw [hbound.names h.named, hvalues, h.operator]
  rfl

/-- What is written for conditions that fit: terms that hold them, with AND between the texts. -/
theorem conjunction_written {conditions : List AttributeCondition} {slots : Slots}
    {text : Option String} (hfit : ∀ a ∈ conditions, a.condition.Fits)
    (h : conjunction {} conditions = (text, slots)) :
    ∃ terms, ({} : Slots).terms conditions = (terms, slots) ∧
      List.Forall₂ (fun t a => t.Fits ∧ slots.Holds t a) terms conditions ∧
      (text = none ↔ conditions = []) ∧
      text.getD "" = String.intercalate " AND " (terms.map Term.text) := by
  unfold conjunction at h
  cases hterms : ({} : Slots).terms conditions with
  | mk terms s' =>
    rw [hterms] at h
    obtain ⟨-, hholds⟩ := Slots.terms_hold hterms
    obtain ⟨rfl, rfl⟩ := Prod.mk.inj h
    refine ⟨terms, rfl, forall₂_fits hholds hfit, ?_, ?_⟩
    · have hlen := hholds.length_eq
      rw [← List.length_eq_zero_iff, ← hlen, List.length_eq_zero_iff]
      simp
    · cases terms <;> rfl

/-- A conjunction of conditions that fit is read back as what the conditions say, in their order. -/
theorem read_conjunction {conditions : List AttributeCondition} {slots : Slots}
    {text : Option String} (hne : conditions ≠ []) (hfit : ∀ a ∈ conditions, a.condition.Fits)
    (h : conjunction {} conditions = (text, slots)) (hbound : slots.BoundIn names values) :
    read names values (text.getD "") = some (conditions.map AttributeCondition.said) := by
  obtain ⟨terms, -, hboth, -, htext⟩ := conjunction_written hfit h
  obtain ⟨hterms_fit, hholds⟩ := (List.forall₂_and_left _ _).1 hboth
  have hterms_ne : terms ≠ [] := by
    rintro rfl
    exact hne (List.forall₂_nil_left_iff.1 hholds)
  unfold read
  rw [htext, tokens_conjunction hterms_fit, splitTerms_conjunction hterms_ne hterms_fit]
  refine mapM_eq_some_of_forall₂ ?_
  rw [List.forall₂_map_left_iff, List.forall₂_map_right_iff]
  refine hboth.imp (fun t a hta => ?_)
  rw [term_termTokens hta.1, Option.bind_some, resolve_holds hta.2 hbound]

theorem read_empty : read names values "" = none := rfl

/-! ## The law -/

/-- Conditions that fit are written as an expression that is read back as what they say. Other
conditions with the same expression and the same bindings say the same, each at its place. -/
theorem a_written_conjunction_is_read_back {conditions : List AttributeCondition}
    (hne : conditions ≠ []) (hfit : ∀ a ∈ conditions, a.condition.Fits) :
    ∃ text slots, conjunction {} conditions = (some text, slots) ∧
      read slots.names slots.bindings text = some (conditions.map AttributeCondition.said) ∧
      ∀ others slots', others ≠ [] → (∀ a ∈ others, a.condition.Fits) →
        conjunction {} others = (some text, slots') → slots'.names = slots.names →
        slots'.bindings = slots.bindings →
        others.map AttributeCondition.said = conditions.map AttributeCondition.said := by
  obtain ⟨text?, slots, hconj⟩ : ∃ text? slots, conjunction {} conditions = (text?, slots) :=
    ⟨_, _, rfl⟩
  obtain ⟨-, -, -, hnone, -⟩ := conjunction_written hfit hconj
  obtain ⟨text, rfl⟩ := Option.ne_none_iff_exists'.1 (fun h => hne (hnone.1 h))
  have hread := read_conjunction hne hfit hconj slots.boundIn_self
  refine ⟨text, slots, hconj, hread, ?_⟩
  intro others slots' hne' hfit' hconj' hnames hbindings
  have hread' := read_conjunction hne' hfit' hconj' slots'.boundIn_self
  rw [hnames, hbindings] at hread'
  exact Option.some.inj (hread'.symm.trans hread)

/-- Conditions with two on one attribute, a range, a membership and a condition without values. -/
def mixedConditions : List AttributeCondition :=
  [⟨"day", "d", ⟨.between, [.string "a", .string "c"]⟩⟩,
    ⟨"topic", "topic", ⟨.isIn, [.string "x", .number "1", .string "x"]⟩⟩,
    ⟨"day", "d", ⟨.notContains, [.string "b"]⟩⟩, ⟨"title", "title", ⟨.notNull, []⟩⟩]

theorem mixed_conditions_are_read_back :
    (mixedConditions ≠ [] ∧ ∀ a ∈ mixedConditions, a.condition.Fits) ∧
      (conjunction {} mixedConditions).1 = some ("#kq_n0 BETWEEN :kq_v0 AND :kq_v1 AND " ++
        "#kq_n1 IN (:kq_v2, :kq_v3, :kq_v4) AND NOT contains(#kq_n0, :kq_v5) AND " ++
        "attribute_exists(#kq_n2)") ∧
      ∃ text slots, conjunction {} mixedConditions = (some text, slots) ∧
        read slots.names slots.bindings text =
          some (mixedConditions.map AttributeCondition.said) := by
  have hne : mixedConditions ≠ [] := List.cons_ne_nil _ _
  have hfit : ∀ a ∈ mixedConditions, a.condition.Fits := by decide
  obtain ⟨text, slots, hconj, hread, -⟩ := a_written_conjunction_is_read_back hne hfit
  exact ⟨⟨hne, hfit⟩, by decide +kernel, text, slots, hconj, hread⟩

end Reader

end KeyAccess
