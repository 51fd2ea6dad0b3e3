-- The law of integer text. A text that denotes an integer and is declared to be a number is kept as
-- it is up to 64 bits. A longer integer is read as a binary64 number: its last digits are lost, and
-- one past the range of the format is no number at all.
import Mathlib
import KeyAccess.Proofs.Decimal.PlainNumeral
import KeyAccess.Proofs.Decimal.Shortest
import KeyAccess.Value.Encoding

namespace KeyAccess

namespace Decimal

/-! ## Numbers beyond 63 bits -/

@[simp] theorem decimalValue_zero_right (n : ℕ) : decimalValue n 0 = n := by
  simp [decimalValue]

theorem decimalValue_of_nonneg (coefficient : ℕ) {power : ℤ} (h : 0 ≤ power) :
    decimalValue coefficient power = (coefficient * 10 ^ power.toNat : ℕ) := by
  obtain ⟨n, rfl⟩ := Int.eq_ofNat_of_zero_le h
  simp [decimalValue]

/-- The text of a number that is a multiple of `2 ^ 11` denotes an integer with a zero at its end,
and it is read back as the number. -/
theorem exists_text_integer {x : Binary64} (hfinite : x.isFinite = true) (hexp : 11 ≤ x.exponent) :
    ∃ m : ℕ, Denotes x.text.toList (signedInt x.isNegative m) ∧ 10 ∣ m ∧
      x.interval.Contains m ∧ readBinary64? x.text.toList = some x := by
  have hpos : x.significand ≠ 0 := by
    have := Binary64.significand_ge (x := x) (by omega)
    omega
  have hpower := Binary64.shortest_power_pos .upward hfinite hexp
  have hcontains := (Binary64.shortest_spec .upward hfinite hpos).1
  rw [Binary64.Interval.holds_iff] at hcontains
  have hc : (x.shortest .upward).coefficient ≠ 0 := by
    intro hc
    have hvalue := Binary64.contains_pos hpos hcontains
    simp [decimalValue, hc] at hvalue
  have hdigits := Scaled.digits_plain hc hpower.le
  rw [decimalValue_of_nonneg _ hpower.le] at hcontains
  generalize hm : (x.shortest .upward).coefficient * 10 ^ (x.shortest .upward).power.toNat = m
    at hdigits hcontains
  have hten : 10 ∣ m := by
    rw [← hm]
    exact Dvd.dvd.mul_left (dvd_pow_self 10 (by omega)) _
  have hback : Binary64.ofDecimal x.isNegative m 0 = x := by
    rwa [Binary64.ofDecimal_eq_iff hfinite hpos, Binary64.Interval.holds_iff,
      decimalValue_zero_right]
  rw [Binary64.toList_text hfinite]
  refine ⟨m, hdigits.denotes_signed _, hten, hcontains, ?_⟩
  rw [hdigits.readBinary64? (hdigits.takeSign_signed _), hback]

end Decimal

namespace ClauseValue

open Decimal

/-! ## The law -/

variable {text : String} {i : ℤ}

theorem encodeAs_of_short (h : Denotes (Text.trimChars text.toList) i) (hlow : -2 ^ 63 ≤ i)
    (hhigh : i < 2 ^ 63) : ∃ kept,
    (ClauseValue.string text).encodeAs (some .number) = .ok (.number kept) ∧
      Denotes kept.toList i := by
  have hread : readInt64? (Text.trimChars text.toList) = some (Int64.ofInt i) := by
    rw [readInt64?, readInt?_eq_some_iff.2 h]
    exact if_pos ⟨hlow, hhigh⟩
  refine ⟨intText i, ?_, ?_⟩
  · change numberOfText text = _
    unfold numberOfText
    dsimp only
    rw [hread]
    dsimp only
    rw [Int64.toInt_ofInt_of_le hlow hhigh]
    rfl
  · rw [intText, String.toList_ofList]
    exact denotes_intNumeral i

/-- A long integer is read as a binary64 number. -/
theorem encodeAs_of_long (h : Denotes (Text.trimChars text.toList) i)
    (hlong : i < -2 ^ 63 ∨ 2 ^ 63 ≤ i) {x : Binary64}
    (hx : readBinary64? (Text.trimChars text.toList) = some x) :
    (ClauseValue.string text).encodeAs (some .number) =
      if x.isFinite then .ok (.ofFloat x) else .error (.notANumber text) := by
  have hread : readInt64? (Text.trimChars text.toList) = none := by
    rw [readInt64?, readInt?_eq_some_iff.2 h]
    exact if_neg (by omega)
  change numberOfText text = _
  unfold numberOfText
  dsimp only
  rw [hread, hx]

theorem isFinite_ofDecimal_iff_abs (negative : Bool) (n : ℕ) :
    (Binary64.ofDecimal negative n 0).isFinite = true ↔
      |signedInt negative n| < 2 ^ 1024 - 2 ^ 970 := by
  rw [Binary64.isFinite_ofDecimal_iff, decimalValue_zero_right, abs_signedInt]
  exact_mod_cast Iff.rfl

/-- A long integer in the range of the format is turned into one with a zero at its end. -/
theorem encodeAs_of_rounded (h : Denotes (Text.trimChars text.toList) i)
    (hlong : i < -2 ^ 63 ∨ 2 ^ 63 ≤ i) (hrange : |i| < 2 ^ 1024 - 2 ^ 970) : ∃ kept j,
    (ClauseValue.string text).encodeAs (some .number) = .ok (.number kept) ∧
      Denotes kept.toList j ∧ 10 ∣ j ∧ 2 ^ 52 * |i - j| ≤ |i| ∧
      readBinary64? kept.toList = readBinary64? (Text.trimChars text.toList) := by
  obtain ⟨negative, n, rfl, hread⟩ := h.readBinary64?
  have hfinite := (isFinite_ofDecimal_iff_abs negative n).2 hrange
  have hsign := Binary64.isNegative_ofDecimal negative n 0
  have hlarge : (2 : ℚ) ^ 63 ≤ n := by
    have : 2 ^ 63 ≤ n := by
      unfold signedInt at hlong
      split at hlong <;> omega
    exact_mod_cast this
  have hcontains : (Binary64.ofDecimal negative n 0).interval.Contains n := by
    have hge : (2 : ℚ) ^ (-1074 : ℤ) ≤ decimalValue n 0 := by
      rw [decimalValue_zero_right]
      calc (2 : ℚ) ^ (-1074 : ℤ) ≤ 2 ^ (63 : ℤ) := zpow_le_zpow_right₀ (by norm_num) (by decide)
        _ ≤ n := hlarge
    simpa using Binary64.contains_ofDecimal hge hfinite
  have hexp := Binary64.exponent_ge_of_contains hcontains hlarge
  have hkept := encodeAs_of_long h hlong hread
  rw [if_pos hfinite] at hkept
  obtain ⟨m, hdenotes, hten, hm, hback⟩ := exists_text_integer hfinite hexp
  rw [hsign] at hdenotes
  refine ⟨_, signedInt negative m, hkept, hdenotes, natCast_dvd_signedInt negative hten, ?_,
    hback.trans hread.symm⟩
  have hnear := Binary64.contains_near (by omega) hcontains hm
  rw [abs_signedInt, abs_signedInt_sub]
  exact_mod_cast hnear

theorem encodeAs_of_beyond (h : Denotes (Text.trimChars text.toList) i)
    (hbeyond : 2 ^ 1024 - 2 ^ 970 ≤ |i|) :
    (ClauseValue.string text).encodeAs (some .number) = .error (.notANumber text) := by
  obtain ⟨negative, n, rfl, hread⟩ := h.readBinary64?
  have hlimit : (2 : ℤ) ^ 63 < 2 ^ 1024 - 2 ^ 970 := by decide +kernel
  have hlong : signedInt negative n < -2 ^ 63 ∨ 2 ^ 63 ≤ signedInt negative n := by
    rcases abs_choice (signedInt negative n) with habs | habs <;> omega
  rw [encodeAs_of_long h hlong hread, if_neg]
  rw [isFinite_ofDecimal_iff_abs, not_lt]
  exact hbeyond

/-- What encoding makes of an integer in text. Up to 64 bits the integer is kept. A longer one is
turned into the integer that the shortest text of the nearest binary64 number denotes, which ends in
a zero, unless there is no finite number near it. -/
theorem integer_text_is_exact_up_to_64_bits (h : Denotes (Text.trimChars text.toList) i) :
    (-2 ^ 63 ≤ i ∧ i < 2 ^ 63 → ∃ kept,
      (ClauseValue.string text).encodeAs (some .number) = .ok (.number kept) ∧
        Denotes kept.toList i) ∧
    ((i < -2 ^ 63 ∨ 2 ^ 63 ≤ i) ∧ |i| < 2 ^ 1024 - 2 ^ 970 → ∃ kept j,
      (ClauseValue.string text).encodeAs (some .number) = .ok (.number kept) ∧
        Denotes kept.toList j ∧ 10 ∣ j ∧ 2 ^ 52 * |i - j| ≤ |i| ∧
        readBinary64? kept.toList = readBinary64? (Text.trimChars text.toList)) ∧
    (2 ^ 1024 - 2 ^ 970 ≤ |i| →
      (ClauseValue.string text).encodeAs (some .number) = .error (.notANumber text)) :=
  ⟨fun hshort => encodeAs_of_short h hshort.1 hshort.2,
    fun hlong => encodeAs_of_rounded h hlong.1 hlong.2, encodeAs_of_beyond h⟩

theorem the_digits_past_64_bits_are_lost :
    Denotes (Text.trimChars " +9223372036854775809 ".toList) 9223372036854775809 ∧
      ∃ kept j, (ClauseValue.string " +9223372036854775809 ").encodeAs (some .number) =
        .ok (.number kept) ∧ Denotes kept.toList j ∧ j ≠ 9223372036854775809 := by
  have h : Denotes (Text.trimChars " +9223372036854775809 ".toList) 9223372036854775809 :=
    readInt?_eq_some_iff.1 (by decide +kernel)
  obtain ⟨-, hlong, -⟩ := integer_text_is_exact_up_to_64_bits h
  obtain ⟨kept, j, hkept, hdenotes, hten, -⟩ :=
    hlong ⟨Or.inr (by decide), by decide +kernel⟩
  refine ⟨h, kept, j, hkept, hdenotes, ?_⟩
  rintro rfl
  exact absurd hten (by decide)

/-- The first integer that does not fit into 64 bits is changed without an error. -/
theorem long_integer_text_may_be_changed :
    ¬ ∀ (text : String) (i : ℤ), Denotes (Text.trimChars text.toList) i →
      (∃ fault, (ClauseValue.string text).encodeAs (some .number) = .error fault) ∨
        ∃ kept, (ClauseValue.string text).encodeAs (some .number) = .ok (.number kept) ∧
          Denotes kept.toList i := by
  intro hall
  have h : Denotes (Text.trimChars "9223372036854775808".toList) 9223372036854775808 :=
    readInt?_eq_some_iff.1 (by decide +kernel)
  have hkept : (ClauseValue.string "9223372036854775808").encodeAs (some .number) =
      .ok (.number "9223372036854776000") := by
    rfl
  have hdenotes : Denotes "9223372036854776000".toList 9223372036854776000 :=
    readInt?_eq_some_iff.1 (by decide +kernel)
  rcases hall _ _ h with ⟨fault, herror⟩ | ⟨kept, hok, hsame⟩
  · rw [hkept] at herror
    cases herror
  · rw [hkept] at hok
    cases hok
    exact absurd (hsame.unique hdenotes) (by decide)

end ClauseValue

end KeyAccess
