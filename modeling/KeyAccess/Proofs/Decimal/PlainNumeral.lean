-- The laws of plain numerals. Whatever number is written, its text has digits, perhaps a point with
-- digits on both sides and perhaps a minus sign before them, and nothing else.
import Mathlib
import KeyAccess.Decimal.Plain
import KeyAccess.Proofs.Decimal.IntegerText

namespace KeyAccess.Decimal

/-- Digits, or digits on both sides of a point. -/
inductive PlainMagnitude : List Char → Prop
  | whole {digits : List Char} {n : ℕ} (h : Digits digits n) : PlainMagnitude digits
  | fraction {digits more : List Char} {n m : ℕ} (h : Digits digits n) (hmore : Digits more m) :
    PlainMagnitude (digits ++ '.' :: more)

/-- A plain magnitude, with a minus sign before it or without. -/
inductive PlainNumeral : List Char → Prop
  | bare {text : List Char} (h : PlainMagnitude text) : PlainNumeral text
  | minus {text : List Char} (h : PlainMagnitude text) : PlainNumeral ('-' :: text)

theorem PlainMagnitude.signed {text : List Char} (h : PlainMagnitude text) (negative : Bool) :
    PlainNumeral (signed negative text) := by
  cases negative
  · exact .bare h
  · exact .minus h

theorem digits_zero : Digits ['0'] 0 := digits_natDigits 0

/-- Wherever the point is put, digits stand on both sides of it or it is left out. -/
theorem plainMagnitude_layOut {digits : List Char} {n : ℕ} (h : Digits digits n) (point : ℤ) :
    PlainMagnitude (layOut digits point) := by
  unfold layOut
  split_ifs with hlow hhigh
  · have hall : ∀ c ∈ List.replicate (-point).toNat '0' ++ digits, c.isDigit = true := by
      intro c hc
      rcases List.mem_append.1 hc with hc | hc
      · rw [List.eq_of_mem_replicate hc]
        decide
      · exact h.isDigit c hc
    have hmore := digits_of_isDigit (List.append_ne_nil_of_right_ne_nil _ h.ne_nil) hall
    simpa using PlainMagnitude.fraction digits_zero hmore
  · exact .whole (h.append_zeros _)
  · have hbefore : digits.take point.toNat ≠ [] := by
      rw [ne_eq, List.take_eq_nil_iff]
      exact not_or.2 ⟨by omega, h.ne_nil⟩
    have hafter : digits.drop point.toNat ≠ [] := by
      rw [ne_eq, List.drop_eq_nil_iff]
      omega
    exact .fraction (digits_of_isDigit hbefore fun c hc => h.isDigit c (List.mem_of_mem_take hc))
      (digits_of_isDigit hafter fun c hc => h.isDigit c (List.mem_of_mem_drop hc))

theorem Scaled.plainMagnitude_plain (d : Scaled) : PlainMagnitude d.plain := by
  unfold plain
  split_ifs
  · exact .whole digits_zero
  · exact plainMagnitude_layOut (digits_natDigits _) _

theorem plainNumeral_intText (i : ℤ) : PlainNumeral (intText i).toList := by
  rw [intText, String.toList_ofList]
  exact (PlainMagnitude.whole (digits_natDigits i.natAbs)).signed _

theorem Binary64.toList_text {x : Binary64} (hfinite : x.isFinite = true) :
    x.text.toList = Decimal.signed x.isNegative (x.shortest .upward).plain := by
  have hnan : x.isNaN = false := by
    simp only [isFinite, bne_iff_ne, ne_eq] at hfinite
    simp [isNaN, hfinite]
  simp [Binary64.text, hnan, hfinite]

theorem Binary64.plainNumeral_text {x : Binary64} (h : x.isFinite = true) :
    PlainNumeral x.text.toList := by
  rw [Binary64.toList_text h]
  exact (x.shortest .upward).plainMagnitude_plain.signed _

end KeyAccess.Decimal
