-- The law of encoded forms. A value that is encoded has the form that its declared type asks for,
-- or its own one where no type is declared: text, a plain numeral or a truth value as a digit. A
-- store compares text and numbers in different ways, so no encoding may change the form.
import Mathlib
import KeyAccess.Proofs.Decimal.PlainNumeral
import KeyAccess.Proofs.Outcome
import KeyAccess.Value.Encoding

namespace KeyAccess

open Decimal

/-- The forms of encoded values. -/
inductive Form
  | text
  | numeral
  | truth

/-- The attribute values of a form. -/
def Form.Holds : Form → AttributeValue → Prop
  | text, encoded => ∃ s, encoded = .string s
  | numeral, encoded => ∃ s, encoded = .number s ∧ PlainNumeral s.toList
  | truth, encoded => encoded = .number "0" ∨ encoded = .number "1"

/-- The form that a declared type asks for. -/
def AttributeType.form? : AttributeType → Option Form
  | string | temporal => some .text
  | number => some .numeral
  | boolean => some .truth
  | custom => none

namespace ClauseValue

/-- The form that a value has of its own. -/
def form? : ClauseValue → Option Form
  | string _ | timestamp _ | uuid _ => some .text
  | integer _ | boolean _ => some .numeral
  | float x => if x.isFinite then some .numeral else none
  | list _ | null => none

/-- The form of a value under a declaration. A value without a form of its own has none. -/
def formAs? (value : ClauseValue) : Option AttributeType → Option Form
  | none => value.form?
  | some type => value.form?.bind fun _ => type.form?

variable {value : ClauseValue} {encoded : AttributeValue}

/-! ## Parts of encodings -/

theorem holds_ofInt (i : ℤ) : Form.numeral.Holds (.ofInt i) :=
  ⟨_, rfl, plainNumeral_intText i⟩

theorem holds_ofFloat {x : Binary64} (h : x.isFinite = true) : Form.numeral.Holds (.ofFloat x) :=
  ⟨_, rfl, Binary64.plainNumeral_text h⟩

theorem holds_ofBool (b : Bool) : Form.truth.Holds (.ofBool b) := by
  cases b
  · exact Or.inl rfl
  · exact Or.inr rfl

theorem numeral_ofBool (b : Bool) : Form.numeral.Holds (.ofBool b) := by
  cases b
  · exact holds_ofInt 0
  · exact holds_ofInt 1

theorem requireFinite_eq_ok_iff {x y : Binary64} :
    requireFinite x = .ok y ↔ x.isFinite = true ∧ x = y := by
  unfold requireFinite
  split_ifs with h <;> simp [h]

theorem holds_numberOfText {text : String} (h : numberOfText text = .ok encoded) :
    Form.numeral.Holds encoded := by
  unfold numberOfText at h
  dsimp only at h
  split at h
  · cases h
    exact holds_ofInt _
  · split at h
    · split_ifs at h with hfinite
      cases h
      exact holds_ofFloat hfinite
    · cases h

/-! ## What each declaration makes of a value -/

theorem form_float {x : Binary64} (h : x.isFinite = true) :
    (ClauseValue.float x).form? = some .numeral := if_pos h

theorem form_inferredValue (h : inferredValue value = .ok encoded) :
    ∃ form, value.form? = some form ∧ form.Holds encoded := by
  cases value with
  | string s | uuid u | timestamp t =>
    cases h
    exact ⟨.text, rfl, _, rfl⟩
  | integer i =>
    cases h
    exact ⟨.numeral, rfl, holds_ofInt _⟩
  | boolean b =>
    cases h
    exact ⟨.numeral, rfl, numeral_ofBool b⟩
  | float x =>
    obtain ⟨y, hy, h⟩ := bind_eq_ok_iff.1 h
    obtain ⟨hfinite, rfl⟩ := requireFinite_eq_ok_iff.1 hy
    cases h
    exact ⟨.numeral, form_float hfinite, holds_ofFloat hfinite⟩
  | list items | null => cases h

theorem form_stringValue (h : stringValue value = .ok encoded) :
    (∃ own, value.form? = some own) ∧ Form.text.Holds encoded := by
  cases value with
  | string s | uuid u | timestamp t | integer i =>
    cases h
    exact ⟨⟨_, rfl⟩, _, rfl⟩
  | float x =>
    obtain ⟨y, hy, h⟩ := bind_eq_ok_iff.1 h
    obtain ⟨hfinite, rfl⟩ := requireFinite_eq_ok_iff.1 hy
    cases h
    exact ⟨⟨_, form_float hfinite⟩, _, rfl⟩
  | boolean b | list items | null => cases h

theorem form_numberValue (h : numberValue value = .ok encoded) :
    (∃ own, value.form? = some own) ∧ Form.numeral.Holds encoded := by
  cases value with
  | integer i | timestamp t =>
    cases h
    exact ⟨⟨_, rfl⟩, holds_ofInt _⟩
  | boolean b =>
    cases h
    exact ⟨⟨_, rfl⟩, numeral_ofBool b⟩
  | float x =>
    obtain ⟨y, hy, h⟩ := bind_eq_ok_iff.1 h
    obtain ⟨hfinite, rfl⟩ := requireFinite_eq_ok_iff.1 hy
    cases h
    exact ⟨⟨_, form_float hfinite⟩, holds_ofFloat hfinite⟩
  | string s => exact ⟨⟨_, rfl⟩, holds_numberOfText h⟩
  | uuid u | list items | null => cases h

theorem form_booleanValue (h : booleanValue value = .ok encoded) :
    (∃ own, value.form? = some own) ∧ Form.truth.Holds encoded := by
  cases value with
  | boolean b =>
    cases h
    exact ⟨⟨_, rfl⟩, holds_ofBool b⟩
  | integer i =>
    unfold booleanValue at h
    dsimp only at h
    split_ifs at h <;> cases h <;> exact ⟨⟨_, rfl⟩, holds_ofBool _⟩
  | string s | float x | timestamp t | uuid u | list items | null => cases h

theorem form_temporalValue (h : temporalValue value = .ok encoded) :
    (∃ own, value.form? = some own) ∧ Form.text.Holds encoded := by
  cases value with
  | timestamp t =>
    cases h
    exact ⟨⟨_, rfl⟩, _, rfl⟩
  | string s =>
    unfold temporalValue at h
    dsimp only at h
    split at h <;> cases h
    exact ⟨⟨_, rfl⟩, _, rfl⟩
  | integer i | float x | boolean b | uuid u | list items | null => cases h

/-! ## The law -/

theorem form_encodeAs {declared : Option AttributeType}
    (h : value.encodeAs declared = .ok encoded) :
    ∃ form, value.formAs? declared = some form ∧ form.Holds encoded := by
  have htyped : ∀ {type : AttributeType} {form : Form}, type.form? = some form →
      (∃ own, value.form? = some own) ∧ form.Holds encoded →
        ∃ form, value.formAs? (some type) = some form ∧ form.Holds encoded := by
    rintro type form htype ⟨⟨own, hown⟩, hholds⟩
    exact ⟨form, by simp [formAs?, hown, htype], hholds⟩
  cases declared with
  | none => exact form_inferredValue h
  | some type =>
    cases type with
    | string => exact htyped rfl (form_stringValue h)
    | number => exact htyped rfl (form_numberValue h)
    | boolean => exact htyped rfl (form_booleanValue h)
    | temporal => exact htyped rfl (form_temporalValue h)
    | custom => cases h

/-- A value that has a form of its own needs no declaration. -/
theorem inferredValue_of_form (h : ∃ own, value.form? = some own) :
    ∃ encoded, inferredValue value = .ok encoded := by
  obtain ⟨own, hown⟩ := h
  cases value with
  | string s | integer i | boolean b | timestamp t | uuid u => exact ⟨_, rfl⟩
  | float x =>
    change (if x.isFinite = true then some Form.numeral else none) = some own at hown
    split_ifs at hown with hfinite
    exact ⟨_, bind_eq_ok_iff.2 ⟨x, requireFinite_eq_ok_iff.2 ⟨hfinite, rfl⟩, rfl⟩⟩
  | list items | null => cases hown

theorem Form.Holds.ne_boolean {form : Form} (h : form.Holds encoded) (b : Bool) :
    encoded ≠ .boolean b := by
  rintro rfl
  cases form with
  | text =>
    obtain ⟨s, hs⟩ := h
    cases hs
  | numeral =>
    obtain ⟨s, hs, -⟩ := h
    cases hs
  | truth => rcases h with h | h <;> cases h

/-- Whatever is encoded has the form of its declaration and is no native truth value. Collections,
nothing, numbers that are not finite and values of a custom type are never encoded, and all other
values are encoded where no type is declared. -/
theorem encodings_have_the_declared_form (value : ClauseValue) (declared : Option AttributeType) :
    (∀ encoded, value.encodeAs declared = .ok encoded →
      (∃ form, value.formAs? declared = some form ∧ form.Holds encoded) ∧
        ∀ b, encoded ≠ .boolean b) ∧
    (value.form? = none ∨ declared = some .custom →
      ∃ fault, value.encodeAs declared = .error fault) ∧
    ((∃ encoded, value.encodeAs none = .ok encoded) ↔ ∃ own, value.form? = some own) := by
  refine ⟨fun encoded h => ?_, fun hnone => ?_, ⟨?_, inferredValue_of_form⟩⟩
  · obtain ⟨form, hform, hholds⟩ := form_encodeAs h
    exact ⟨⟨form, hform, hholds⟩, Form.Holds.ne_boolean hholds⟩
  · have hnone : value.formAs? declared = none := by
      rcases hnone with hnone | rfl
      · cases declared <;> simp [formAs?, hnone]
      · simp [formAs?, AttributeType.form?]
    cases hencoded : value.encodeAs declared with
    | error fault => exact ⟨fault, rfl⟩
    | ok encoded =>
      obtain ⟨form, hform, -⟩ := form_encodeAs hencoded
      rw [hnone] at hform
      cases hform
  · rintro ⟨encoded, h⟩
    obtain ⟨form, hform, -⟩ := form_inferredValue h
    exact ⟨form, hform⟩

theorem a_power_of_ten_is_written_out :
    (ClauseValue.string " -1.5e3 ").encodeAs (some .number) = .ok (.number "-1500") ∧
      PlainNumeral "-1500".toList ∧
      (ClauseValue.string "-1.5e3").encodeAs none = .ok (.string "-1.5e3") ∧
      ∃ fault, (ClauseValue.float (Binary64.infinity true)).encodeAs (some .string) =
        .error fault := by
  have hnumber : (ClauseValue.string " -1.5e3 ").encodeAs (some .number) =
      .ok (.number "-1500") := by
    rfl
  obtain ⟨hform, -, -⟩ := encodings_have_the_declared_form (.string " -1.5e3 ") (some .number)
  obtain ⟨⟨form, hholds, hnumeral⟩, -⟩ := hform _ hnumber
  cases hholds
  obtain ⟨_, htext, hplain⟩ := hnumeral
  cases htext
  obtain ⟨-, hnever, -⟩ :=
    encodings_have_the_declared_form (.float (Binary64.infinity true)) (some .string)
  exact ⟨hnumber, hplain, rfl, hnever (Or.inl (by decide +kernel))⟩

end ClauseValue

end KeyAccess
