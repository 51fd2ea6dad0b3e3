-- The law of texts without content. What is written for conditions depends on their operators, on
-- how many values they have and on which of them share an attribute, and on nothing else. Two lists
-- that agree in this are written in lockstep, so no name and no value can change the text.
import Mathlib
import KeyAccess.Proofs.Request.Slots

namespace KeyAccess

open Relator (BiUnique)

/-! ## The pure model -/

/-- Two conditions have the same operator and as many values. -/
def AttributeCondition.SameForm (a a' : AttributeCondition) : Prop :=
  a.operator = a'.operator ∧ a.condition.values.length = a'.condition.values.length

/-- Two lists have conditions of the same form at each place, and two places of the one list share
an attribute exactly if those of the other list do. -/
structure SamePattern (l l' : List AttributeCondition) : Prop where
  forms : List.Forall₂ AttributeCondition.SameForm l l'
  names : ∀ {i j : Nat} {a b a' b' : AttributeCondition}, l[i]? = some a → l[j]? = some b →
    l'[i]? = some a' → l'[j]? = some b' →
      (a.attributeName = b.attributeName ↔ a'.attributeName = b'.attributeName)

/-- Two names stand at the same place of two lists. -/
def NamedAlike (l l' : List AttributeCondition) (name name' : String) : Prop :=
  ∃ (i : Nat) (a a' : AttributeCondition), l[i]? = some a ∧ l'[i]? = some a' ∧
    a.attributeName = name ∧ a'.attributeName = name'

theorem SamePattern.biUnique {l l' : List AttributeCondition} (h : SamePattern l l') :
    BiUnique (NamedAlike l l') := by
  constructor
  · rintro _ _ _ ⟨i, a, a', ha, ha', rfl, rfl⟩ ⟨j, b, b', hb, hb', rfl, hname⟩
    exact (h.names ha hb ha' hb').2 hname.symm
  · rintro _ _ _ ⟨i, a, a', ha, ha', rfl, rfl⟩ ⟨j, b, b', hb, hb', hname, rfl⟩
    exact (h.names ha hb ha' hb').1 hname.symm

theorem SamePattern.namedAlike {l l' : List AttributeCondition} (h : SamePattern l l') :
    List.Forall₂ (fun a a' => a.SameForm a' ∧ NamedAlike l l' a.attributeName a'.attributeName)
      l l' := by
  obtain ⟨hlength, hforms⟩ := List.forall₂_iff_get.1 h.forms
  refine List.forall₂_iff_get.2 ⟨hlength, fun i hi hi' => ⟨hforms i hi hi', ?_⟩⟩
  refine ⟨i, _, _, ?_, ?_, rfl, rfl⟩
  · exact List.getElem?_eq_getElem hi
  · exact List.getElem?_eq_getElem hi'

namespace Slots

/-! ## Writing in lockstep -/

/-- Two states have as many slots, and the attributes with one number correspond. -/
structure Lockstep (R : String → String → Prop) (s s' : Slots) : Prop where
  attributes : List.Forall₂ R s.attributes s'.attributes
  values : s.values.length = s'.values.length

variable {R : String → String → Prop} {s s' : Slots}

/-- Corresponding names stand at corresponding places. -/
theorem findIdx?_eq_of_forall₂ (hR : BiUnique R) {names names' : List String}
    (h : List.Forall₂ R names names') {name name' : String} (hname : R name name') :
    names.findIdx? (· == name) = names'.findIdx? (· == name') := by
  induction h with
  | nil => rfl
  | @cons x x' names names' hx _ ih =>
    have heq : (x == name) = (x' == name') := by
      rw [Bool.eq_iff_iff, beq_iff_eq, beq_iff_eq]
      exact Relator.rel_eq hR hx hname
    rw [List.findIdx?_cons, List.findIdx?_cons, heq, ih]

theorem Lockstep.slotOf (hR : BiUnique R) (h : Lockstep R s s') {name name' : String}
    (hname : R name name') : (s.slotOf name).1 = (s'.slotOf name').1 ∧
      Lockstep R (s.slotOf name).2 (s'.slotOf name').2 := by
  unfold Slots.slotOf
  rw [findIdx?_eq_of_forall₂ hR h.attributes hname]
  cases s'.attributes.findIdx? (· == name') with
  | some slot => exact ⟨rfl, h⟩
  | none =>
    refine ⟨h.attributes.length_eq, List.rel_append h.attributes ?_, h.values⟩
    exact List.Forall₂.cons hname List.Forall₂.nil

theorem Lockstep.term (hR : BiUnique R) (h : Lockstep R s s') {a a' : AttributeCondition}
    (hform : a.SameForm a') (hname : R a.attributeName a'.attributeName) :
    (s.term a).1 = (s'.term a').1 ∧ Lockstep R (s.term a).2 (s'.term a').2 := by
  obtain ⟨hoperator, hcount⟩ := hform
  obtain ⟨hslot, hstep⟩ := h.slotOf hR hname
  unfold Slots.term
  dsimp only
  refine ⟨?_, hstep.attributes, ?_⟩
  · rw [hoperator, hslot, hstep.values, hcount]
  · rw [List.length_append, List.length_append, hstep.values, hcount]

theorem Lockstep.terms (hR : BiUnique R) {l l' : List AttributeCondition}
    (hl : List.Forall₂ (fun a a' => a.SameForm a' ∧ R a.attributeName a'.attributeName) l l')
    (h : Lockstep R s s') :
    (s.terms l).1 = (s'.terms l').1 ∧ Lockstep R (s.terms l).2 (s'.terms l').2 := by
  induction hl generalizing s s' with
  | nil => exact ⟨rfl, h⟩
  | cons ha _ ih =>
    obtain ⟨hterm, hstep⟩ := h.term hR ha.1 ha.2
    obtain ⟨hrest, hend⟩ := ih hstep
    unfold Slots.terms
    dsimp only
    exact ⟨by rw [hterm, hrest], hend⟩

/-- The placeholders that are bound tell only how many slots there are. -/
theorem Lockstep.keys (h : Lockstep R s s') :
    s.names.keys = s'.names.keys ∧ s.bindings.keys = s'.bindings.keys := by
  constructor
  · refine SortedMap.keys_eq_of_mem_iff fun p => ?_
    unfold Slots.names
    rw [SortedMap.mem_keys_numbered, SortedMap.mem_keys_numbered, h.attributes.length_eq]
  · refine SortedMap.keys_eq_of_mem_iff fun p => ?_
    unfold Slots.bindings
    rw [SortedMap.mem_keys_numbered, SortedMap.mem_keys_numbered, h.values]

end Slots

/-! ## The law -/

/-- Conditions of one pattern are written as one text, whatever their names and values are, and the
text refers to the same placeholders. -/
theorem names_and_values_do_not_show {l l' : List AttributeCondition} (h : SamePattern l l') :
    (conjunction {} l).1 = (conjunction {} l').1 ∧
      (conjunction {} l).2.names.keys = (conjunction {} l').2.names.keys ∧
      (conjunction {} l).2.bindings.keys = (conjunction {} l').2.bindings.keys := by
  have hstart : Slots.Lockstep (NamedAlike l l') {} {} := ⟨List.Forall₂.nil, rfl⟩
  obtain ⟨hterms, hend⟩ := hstart.terms h.biUnique h.namedAlike
  unfold conjunction
  dsimp only
  rw [hterms]
  exact ⟨rfl, hend.keys⟩

/-- Conditions with two on one attribute. -/
def plainConditions : List AttributeCondition :=
  [⟨"title", "title", ⟨.eq, [.string "x"]⟩⟩, ⟨"day", "d", ⟨.between, [.string "a", .string "b"]⟩⟩,
    ⟨"title", "title", ⟨.isIn, [.string "x", .string "y"]⟩⟩]

/-- The same pattern, with names and values that look like expressions. -/
def hostileConditions : List AttributeCondition :=
  [⟨"t", "x) OR (#kq_n1", ⟨.eq, [.string ":kq_v1) OR (1 = 1"]⟩⟩,
    ⟨"d", "#kq_n0 = :kq_v0", ⟨.between, [.number "0 AND 1", .boolean true]⟩⟩,
    ⟨"t", "x) OR (#kq_n1", ⟨.isIn, [.string "", .string ", :kq_v9"]⟩⟩]

theorem hostile_names_and_values_do_not_show :
    SamePattern hostileConditions plainConditions ∧
      (conjunction {} hostileConditions).1 = some
        "#kq_n0 = :kq_v0 AND #kq_n1 BETWEEN :kq_v1 AND :kq_v2 AND #kq_n0 IN (:kq_v3, :kq_v4)" := by
  have hnames : ∀ i j : Fin 3,
      (hostileConditions[i].attributeName = hostileConditions[j].attributeName ↔
        plainConditions[i].attributeName = plainConditions[j].attributeName) := by decide
  have hpattern : SamePattern hostileConditions plainConditions := by
    refine ⟨.cons ⟨rfl, rfl⟩ (.cons ⟨rfl, rfl⟩ (.cons ⟨rfl, rfl⟩ .nil)), ?_⟩
    intro i j a b a' b' ha hb ha' hb'
    obtain ⟨hi, rfl⟩ := List.getElem?_eq_some_iff.1 ha
    obtain ⟨hj, rfl⟩ := List.getElem?_eq_some_iff.1 hb
    obtain ⟨-, rfl⟩ := List.getElem?_eq_some_iff.1 ha'
    obtain ⟨-, rfl⟩ := List.getElem?_eq_some_iff.1 hb'
    exact hnames ⟨i, hi⟩ ⟨j, hj⟩
  refine ⟨hpattern, ?_⟩
  rw [(names_and_values_do_not_show hpattern).1]
  decide +kernel

end KeyAccess
