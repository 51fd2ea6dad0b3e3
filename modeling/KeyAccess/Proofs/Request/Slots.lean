-- Slots keep what they hold. A term refers to slots that hold the attribute and the values of its
-- condition, later conditions only add slots, and there is no slot that no term refers to. The
-- bindings give each slot under its placeholder, also next to those of a raw filter.
import Mathlib
import KeyAccess.Request.Construction
import KeyAccess.Proofs.Criteria.Placement

namespace KeyAccess

/-! ## Placeholders -/

theorem namePlaceholder_injective : Function.Injective namePlaceholder := by
  intro m n h
  unfold namePlaceholder at h
  rw [String.append_right_inj, Nat.toString_eq_repr, Nat.toString_eq_repr, Nat.repr_inj] at h
  exact h

theorem valuePlaceholder_injective : Function.Injective valuePlaceholder := by
  intro m n h
  unfold valuePlaceholder at h
  rw [String.append_right_inj, Nat.toString_eq_repr, Nat.toString_eq_repr, Nat.repr_inj] at h
  exact h

theorem startsWith_append (start rest : String) : startsWith (start ++ rest) start = true := by
  unfold startsWith
  rw [List.isPrefixOf_iff_prefix, String.toList_append]
  exact List.prefix_append _ _

theorem isReserved_namePlaceholder (slot : Nat) : isReserved (namePlaceholder slot) = true := by
  unfold isReserved namePlaceholder
  rw [String.append_assoc, startsWith_append]
  rfl

theorem isReserved_valuePlaceholder (slot : Nat) : isReserved (valuePlaceholder slot) = true := by
  unfold isReserved valuePlaceholder
  rw [String.append_assoc, startsWith_append, Bool.or_true]

theorem numbered_keys {α : Type} (placeholder : Nat → String) (l : List α) :
    (l.mapIdx (fun i a => (placeholder i, a))).map Prod.fst =
      (List.range l.length).map placeholder :=
  List.ext_getElem (by simp) (by simp)

theorem SortedMap.mem_keys_numbered {α : Type} (placeholder : Nat → String) (l : List α)
    (p : String) : p ∈ (SortedMap.ofList (l.mapIdx (fun i a => (placeholder i, a)))).keys ↔
      ∃ slot < l.length, placeholder slot = p := by
  rw [mem_keys_ofList, numbered_keys]
  simp

/-- Numbered bindings give each element under its number. -/
theorem SortedMap.get?_numbered {α : Type} {placeholder : Nat → String}
    (hinj : Function.Injective placeholder) (l : List α) (slot : Nat) :
    (SortedMap.ofList (l.mapIdx (fun i a => (placeholder i, a)))).get? (placeholder slot) =
      l[slot]? := by
  have hnodup : ((l.mapIdx (fun i a => (placeholder i, a))).map Prod.fst).Nodup := by
    rw [numbered_keys]
    exact List.nodup_range.map hinj
  rw [get?_ofList _ hnodup]
  ext value
  rw [findEntry_eq_some_iff hnodup, List.mem_mapIdx, List.getElem?_eq_some_iff]
  constructor
  · rintro ⟨i, hi, heq⟩
    rw [Prod.mk.injEq] at heq
    obtain ⟨hslot, hvalue⟩ := heq
    cases hinj hslot
    exact ⟨hi, hvalue⟩
  · rintro ⟨hslot, hvalue⟩
    exact ⟨slot, hslot, by rw [hvalue]⟩

namespace Slots

/-! ## Terms -/

theorem getElem?_of_prefix {α : Type} {l l' : List α} (h : l <+: l') {slot : Nat} {a : α}
    (ha : l[slot]? = some a) : l'[slot]? = some a := by
  obtain ⟨hlt, rfl⟩ := List.getElem?_eq_some_iff.1 ha
  exact List.prefix_iff_getElem?.1 h slot hlt

/-- The slots of one state stand at the same places in another one. -/
structure Extends (s s' : Slots) : Prop where
  attributes : s.attributes <+: s'.attributes
  values : s.values <+: s'.values

theorem Extends.refl (s : Slots) : s.Extends s := ⟨List.prefix_rfl, List.prefix_rfl⟩

theorem Extends.trans {s s' s'' : Slots} (h : s.Extends s') (h' : s'.Extends s'') :
    s.Extends s'' := ⟨h.attributes.trans h'.attributes, h.values.trans h'.values⟩

/-- A term stands for a condition: its slots hold the attribute and the values. -/
structure Holds (s : Slots) (t : Term) (a : AttributeCondition) : Prop where
  operator : t.operator = a.operator
  named : s.attributes[t.attributeSlot]? = some a.attributeName
  values : List.Forall₂ (fun slot value => s.values[slot]? = some value)
    (List.range' t.firstValue t.valueCount) a.condition.values

theorem Holds.mono {s s' : Slots} {t : Term} {a : AttributeCondition} (h : s.Holds t a)
    (hext : s.Extends s') : s'.Holds t a := by
  refine ⟨h.operator, getElem?_of_prefix hext.attributes h.named, ?_⟩
  exact h.values.imp (fun _ _ hv => getElem?_of_prefix hext.values hv)

theorem slotOf_holds {s s' : Slots} {name : String} {slot : Nat}
    (h : s.slotOf name = (slot, s')) : s.attributes <+: s'.attributes ∧
      s'.attributes[slot]? = some name ∧ s'.values = s.values := by
  unfold slotOf at h
  split at h
  · rename_i found hfind
    cases h
    refine ⟨List.prefix_rfl, ?_, rfl⟩
    obtain ⟨hlt, heq, -⟩ := List.findIdx?_eq_some_iff_getElem.1 hfind
    rw [List.getElem?_eq_getElem hlt, eq_of_beq heq]
  · cases h
    exact ⟨List.prefix_append _ _, by simp, rfl⟩

/-- Values that are appended have the slots after those that are there. -/
theorem appended_values (held added : List AttributeValue) :
    List.Forall₂ (fun slot value => (held ++ added)[slot]? = some value)
      (List.range' held.length added.length) added := by
  induction added generalizing held with
  | nil => exact List.Forall₂.nil
  | cons value added ih =>
    rw [List.length_cons, List.range'_succ]
    refine List.Forall₂.cons (by simp) ?_
    have hrest := ih (held ++ [value])
    simpa using hrest

theorem term_cases {s s' : Slots} {a : AttributeCondition} {t : Term} (h : s.term a = (t, s')) :
    ∃ slot s₁, s.slotOf a.attributeName = (slot, s₁) ∧
      t = ⟨a.operator, slot, s₁.values.length, a.condition.values.length⟩ ∧
      s' = { s₁ with values := s₁.values ++ a.condition.values } := by
  unfold term at h
  cases hslot : s.slotOf a.attributeName with
  | mk slot s₁ =>
    rw [hslot] at h
    cases h
    exact ⟨slot, s₁, rfl, rfl, rfl⟩

theorem terms_cons {s s' : Slots} {a : AttributeCondition} {conditions : List AttributeCondition}
    {ts : List Term} (h : s.terms (a :: conditions) = (ts, s')) :
    ∃ t s₁ rest, s.term a = (t, s₁) ∧ s₁.terms conditions = (rest, s') ∧ ts = t :: rest := by
  unfold terms at h
  cases hterm : s.term a with
  | mk t s₁ =>
    cases hrest : s₁.terms conditions with
    | mk rest s₂ =>
      rw [hterm] at h
      dsimp only at h
      rw [hrest] at h
      cases h
      exact ⟨t, s₁, rest, rfl, hrest, rfl⟩

theorem term_holds {s s' : Slots} {a : AttributeCondition} {t : Term}
    (h : s.term a = (t, s')) : s.Extends s' ∧ s'.Holds t a := by
  obtain ⟨slot, s₁, hslot, rfl, rfl⟩ := term_cases h
  obtain ⟨hext, hname, hvalues⟩ := slotOf_holds hslot
  refine ⟨⟨hext, ?_⟩, rfl, hname, appended_values _ _⟩
  rw [hvalues]
  exact List.prefix_append _ _

theorem terms_hold {s s' : Slots} {conditions : List AttributeCondition} {ts : List Term}
    (h : s.terms conditions = (ts, s')) :
    s.Extends s' ∧ List.Forall₂ s'.Holds ts conditions := by
  induction conditions generalizing s ts with
  | nil =>
    cases h
    exact ⟨Extends.refl _, List.Forall₂.nil⟩
  | cons a conditions ih =>
    obtain ⟨t, s₁, rest, hterm, hrest, rfl⟩ := terms_cons h
    obtain ⟨hext, hholds⟩ := term_holds hterm
    obtain ⟨hext', hall⟩ := ih hrest
    exact ⟨hext.trans hext', List.Forall₂.cons (hholds.mono hext') hall⟩

/-- The slots after some terms are those before them and the ones that the terms refer to. -/
structure Used (s s' : Slots) (ts : List Term) : Prop where
  attributes : ∀ slot, slot < s'.attributes.length ↔
    slot < s.attributes.length ∨ ∃ t ∈ ts, t.attributeSlot = slot
  values : ∀ slot, slot < s'.values.length ↔
    slot < s.values.length ∨ ∃ t ∈ ts, slot ∈ List.range' t.firstValue t.valueCount

theorem slotOf_used {s s' : Slots} {name : String} {found : Nat}
    (h : s.slotOf name = (found, s')) (slot : Nat) :
    slot < s'.attributes.length ↔ slot < s.attributes.length ∨ found = slot := by
  unfold slotOf at h
  split at h
  · rename_i hfind
    cases h
    obtain ⟨hlt, -, -⟩ := List.findIdx?_eq_some_iff_getElem.1 hfind
    constructor
    · exact Or.inl
    · rintro (h | rfl)
      · exact h
      · exact hlt
  · cases h
    rw [List.length_append, List.length_singleton]
    omega

theorem term_used {s s' : Slots} {a : AttributeCondition} {t : Term} (h : s.term a = (t, s')) :
    s.Used s' [t] := by
  obtain ⟨found, s₁, hslot, rfl, rfl⟩ := term_cases h
  obtain ⟨-, -, hvalues⟩ := slotOf_holds hslot
  refine ⟨fun slot => ?_, fun slot => ?_⟩
  · simpa using slotOf_used hslot slot
  · simp only [hvalues, List.length_append, List.mem_singleton, exists_eq_left, List.mem_range'_1]
    omega

theorem terms_used {s s' : Slots} {conditions : List AttributeCondition} {ts : List Term}
    (h : s.terms conditions = (ts, s')) : s.Used s' ts := by
  induction conditions generalizing s ts with
  | nil =>
    cases h
    exact ⟨by simp, by simp⟩
  | cons a conditions ih =>
    obtain ⟨t, s₁, rest, hterm, hrest, rfl⟩ := terms_cons h
    obtain ⟨hattributes, hvalues⟩ := term_used hterm
    obtain ⟨hattributes', hvalues'⟩ := ih hrest
    refine ⟨fun slot => ?_, fun slot => ?_⟩
    · rw [hattributes', hattributes]
      simp [or_assoc]
    · rw [hvalues', hvalues]
      simp [or_assoc]

/-! ## Bindings -/

/-- The bindings give each slot under its placeholder. -/
structure BoundIn (s : Slots) (names : SortedMap String) (values : SortedMap AttributeValue) :
    Prop where
  names : ∀ {slot name}, s.attributes[slot]? = some name →
    names.get? (namePlaceholder slot) = some name
  values : ∀ {slot value}, s.values[slot]? = some value →
    values.get? (valuePlaceholder slot) = some value

theorem boundIn_self (s : Slots) : s.BoundIn s.names s.bindings := by
  constructor
  · intro slot name h
    rw [← h]
    exact SortedMap.get?_numbered namePlaceholder_injective s.attributes slot
  · intro slot value h
    rw [← h]
    exact SortedMap.get?_numbered valuePlaceholder_injective s.values slot

/-- Bindings that use no reserved placeholder stand beside the generated ones. -/
theorem numbered_beside {α : Type} {placeholder : Nat → String}
    (hreserved : ∀ slot, isReserved (placeholder slot) = true) (l : List α) {added : SortedMap α}
    (hfree : ∀ p ∈ added.keys, isReserved p = false) :
    let generated := SortedMap.ofList (l.mapIdx (fun i a => (placeholder i, a)))
    SortedMap.DisjointUnion generated added (generated.insertAll added.entries) := by
  refine SortedMap.disjointUnion_insertAll (fun p hp hadded => ?_)
  obtain ⟨slot, -, rfl⟩ := (SortedMap.mem_keys_numbered placeholder l p).1 hp
  have hfalse := hfree _ hadded
  rw [hreserved slot] at hfalse
  cases hfalse

theorem names_beside (s : Slots) {f : BoundFilter} (h : f.Unreserved) :
    SortedMap.DisjointUnion s.names f.names (boundNames s (some f)) :=
  numbered_beside isReserved_namePlaceholder s.attributes h.1

theorem values_beside (s : Slots) {f : BoundFilter} (h : f.Unreserved) :
    SortedMap.DisjointUnion s.bindings f.values (boundValues s (some f)) :=
  numbered_beside isReserved_valuePlaceholder s.values h.2

theorem boundIn_filter (s : Slots) {filter : Option BoundFilter}
    (hfilter : ∀ f, filter = some f → f.Unreserved) :
    s.BoundIn (boundNames s filter) (boundValues s filter) := by
  cases filter with
  | none => exact boundIn_self s
  | some f =>
    have hfree := hfilter f rfl
    constructor
    · intro slot name h
      rw [(s.names_beside hfree).get?, (boundIn_self s).names h]
      rfl
    · intro slot value h
      rw [(s.values_beside hfree).get?, (boundIn_self s).values h]
      rfl

end Slots

end KeyAccess
