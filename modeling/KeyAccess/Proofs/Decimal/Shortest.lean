-- The laws of the shortest decimal. The grids of seventeen digits are fine enough for every finite
-- number, so the search always ends with a decimal, and it rounds back to the number.
import Mathlib
import KeyAccess.Proofs.Decimal.Rounding

namespace KeyAccess.Decimal

/-! ## Zeros at the end -/

theorem decimalValue_succ (coefficient : ℕ) (power : ℤ) :
    decimalValue coefficient (power + 1) = decimalValue (coefficient * 10) power := by
  unfold decimalValue
  rw [zpow_add_one₀ (by norm_num)]
  push_cast
  ring

/-- Taking zeros off the coefficient keeps the value. -/
theorem Scaled.dropZeros_value (fuel : ℕ) (d : Scaled) :
    decimalValue (d.dropZeros fuel).coefficient (d.dropZeros fuel).power =
      decimalValue d.coefficient d.power := by
  induction fuel generalizing d with
  | zero => rfl
  | succ fuel ih =>
    rw [dropZeros]
    split
    · rw [ih, decimalValue_succ, Nat.div_mul_cancel (Nat.dvd_of_mod_eq_zero ‹_›)]
    · rfl

theorem Scaled.le_dropZeros_power (fuel : ℕ) (d : Scaled) :
    d.power ≤ (d.dropZeros fuel).power := by
  induction fuel generalizing d with
  | zero => exact le_rfl
  | succ fuel ih =>
    rw [dropZeros]
    split
    · exact le_trans (by simp) (ih _)
    · exact le_rfl

namespace Binary64

/-! ## Grids -/

variable {i : Interval} {tie : Tie} {power : ℤ} {d : Scaled}

theorem pick_cases (tie : Tie) (lower : ℕ) :
    tie.pick lower = lower ∨ tie.pick lower = lower + 1 := by
  cases tie
  · exact Or.inr rfl
  · unfold Tie.pick
    dsimp only
    split <;> simp

theorem Interval.onGrid_holds (h : i.onGrid tie power = some d) :
    d.power = power ∧ i.holds power d.coefficient = true := by
  unfold onGrid at h
  dsimp only at h
  generalize (commonTerms i power 1 i.mid).2 / (commonTerms i power 1 i.mid).1 = lower at h
  split at h
  case h_1 hlower hupper =>
    split_ifs at h <;> cases h
    · exact ⟨rfl, hlower⟩
    · refine ⟨rfl, ?_⟩
      rcases pick_cases tie lower with hpick | hpick <;> simp only [hpick, hlower, hupper]
    · exact ⟨rfl, hupper⟩
  case h_2 hlower _ => cases h; exact ⟨rfl, hlower⟩
  case h_3 _ hupper => cases h; exact ⟨rfl, hupper⟩
  case h_4 => cases h

/-- The number that an interval is around. -/
def Interval.number (i : Interval) : ℚ := i.mid * 2 ^ i.power

theorem Interval.unit_le_iff (i : Interval) (power : ℤ) :
    (commonTerms i power 1 i.mid).1 ≤ (commonTerms i power 1 i.mid).2 ↔
      (10 : ℚ) ^ power ≤ i.number := by
  obtain ⟨den, hden, hterms⟩ := exists_commonTerms i power
  obtain ⟨hunit, hvalue⟩ := hterms 1 i.mid
  rw [← Nat.cast_le (α := ℚ), hunit, hvalue, mul_le_mul_iff_of_pos_right hden, decimalValue,
    Nat.cast_one, one_mul, number]

/-- The number lies between neighbours on the grid. -/
theorem Interval.between_neighbours (i : Interval) (power : ℤ) {lower : ℕ}
    (h : (commonTerms i power 1 i.mid).2 / (commonTerms i power 1 i.mid).1 = lower) :
    decimalValue lower power ≤ i.number ∧ i.number < decimalValue lower power + 10 ^ power := by
  obtain ⟨den, hden, hterms⟩ := exists_commonTerms i power
  obtain ⟨hunit, hvalue⟩ := hterms 1 i.mid
  have hten : (0 : ℚ) < 10 ^ power := zpow_pos (by norm_num) power
  have hunit : ((commonTerms i power 1 i.mid).1 : ℚ) = 10 ^ power * den := by
    rw [hunit, decimalValue, Nat.cast_one, one_mul]
  have hpos : 0 < (commonTerms i power 1 i.mid).1 := by
    rw [← Nat.cast_pos (α := ℚ), hunit]
    exact mul_pos hten hden
  subst h
  have hle := Nat.div_mul_le_self (commonTerms i power 1 i.mid).2 (commonTerms i power 1 i.mid).1
  have hlt := Nat.lt_mul_div_succ (commonTerms i power 1 i.mid).2 hpos
  generalize (commonTerms i power 1 i.mid).2 / (commonTerms i power 1 i.mid).1 = lower at hle hlt
  unfold decimalValue number
  constructor
  · refine le_of_mul_le_mul_right ?_ hden
    calc (lower : ℚ) * 10 ^ power * den = lower * (10 ^ power * den) := by ring
      _ ≤ i.mid * 2 ^ i.power * den := by
          rw [← hunit, ← hvalue]
          exact_mod_cast hle
  · refine lt_of_mul_lt_mul_right ?_ hden.le
    calc (i.mid : ℚ) * 2 ^ i.power * den < 10 ^ power * den * (lower + 1) := by
          rw [← hunit, ← hvalue]
          exact_mod_cast hlt
      _ = (lower * 10 ^ power + 10 ^ power) * den := by ring

theorem Interval.contains_of_lt {v : ℚ} (hlow : i.low * 2 ^ i.power < v)
    (hhigh : v < i.high * 2 ^ i.power) : i.Contains v := by
  have hpow : (0 : ℚ) < 2 ^ i.power := zpow_pos (by norm_num) _
  rw [← lt_div_iff₀ hpow] at hlow
  rw [← div_lt_iff₀ hpow] at hhigh
  unfold Contains
  split
  · exact ⟨hlow.le, hhigh.le⟩
  · exact ⟨hlow, hhigh⟩

/-- A grid that is finer than an interval meets it on one side of the number or the other. -/
theorem Interval.exists_onGrid (tie : Tie) (hlow : i.low < i.mid) (hhigh : i.mid < i.high)
    (hgrid : (10 : ℚ) ^ power < (i.high - i.low) * 2 ^ i.power) :
    ∃ d, i.onGrid tie power = some d := by
  have hpow : (0 : ℚ) < 2 ^ i.power := zpow_pos (by norm_num) _
  have hlow : (i.low : ℚ) * 2 ^ i.power < i.number :=
    mul_lt_mul_of_pos_right (by exact_mod_cast hlow) hpow
  have hhigh : i.number < i.high * 2 ^ i.power :=
    mul_lt_mul_of_pos_right (by exact_mod_cast hhigh) hpow
  unfold onGrid
  dsimp only
  generalize hlower : (commonTerms i power 1 i.mid).2 / (commonTerms i power 1 i.mid).1 = lower
  obtain ⟨hle, hlt⟩ := i.between_neighbours power hlower
  have hupper : decimalValue (lower + 1) power = decimalValue lower power + 10 ^ power := by
    unfold decimalValue
    push_cast
    ring
  have hmeets : i.holds power lower = true ∨ i.holds power (lower + 1) = true := by
    rw [holds_iff, holds_iff, hupper]
    by_cases hinside : i.low * 2 ^ i.power < decimalValue lower power
    · exact Or.inl (contains_of_lt hinside (hle.trans_lt hhigh))
    · exact Or.inr (contains_of_lt (hlow.trans hlt) (by linarith))
  split
  case h_1 => split_ifs <;> exact ⟨_, rfl⟩
  case h_2 => exact ⟨_, rfl⟩
  case h_3 => exact ⟨_, rfl⟩
  case h_4 hl hu => simp [hl, hu] at hmeets

/-! ## The search -/

theorem Interval.search_holds {steps : ℕ} (h : i.search tie power steps = some d) :
    i.holds d.power d.coefficient = true ∧ power - steps < d.power := by
  induction steps generalizing power with
  | zero => cases h
  | succ steps ih =>
    rw [search] at h
    split at h
    case h_1 hgrid =>
      cases h
      obtain ⟨rfl, hholds⟩ := onGrid_holds hgrid
      exact ⟨hholds, by omega⟩
    case h_2 =>
      obtain ⟨hholds, hlt⟩ := ih h
      exact ⟨hholds, by omega⟩

theorem Interval.exists_search {steps k : ℕ} (hk : k < steps)
    (h : ∃ d, i.onGrid tie (power - k) = some d) : ∃ d, i.search tie power steps = some d := by
  induction steps generalizing power k with
  | zero => omega
  | succ steps ih =>
    rw [search]
    split
    case h_1 d _ => exact ⟨d, rfl⟩
    case h_2 hnone =>
      cases k with
      | zero => simp [hnone] at h
      | succ k =>
        refine @ih _ k (by omega) ?_
        rwa [show power - 1 - (k : ℤ) = power - (k + 1 : ℕ) by omega]

theorem Interval.log10_spec {start : ℤ} (h : (10 : ℚ) ^ start ≤ i.number) (steps : ℕ) :
    (10 : ℚ) ^ i.log10 start steps ≤ i.number ∧ start ≤ i.log10 start steps := by
  induction steps with
  | zero => exact ⟨h, le_rfl⟩
  | succ steps ih =>
    rw [log10]
    dsimp only
    split
    case isTrue hle => exact ⟨(i.unit_le_iff _).1 hle, by omega⟩
    case isFalse => exact ih

/-- The estimate of a logarithm to base ten, from the one to base two, is not too great. -/
theorem ten_zpow_le_two_zpow {b : ℤ} (hlow : -1100 ≤ b) (hhigh : b ≤ 1100) :
    (10 : ℚ) ^ (b * 30103 / 100000 - 1) ≤ 2 ^ b := by
  obtain ⟨a, ha⟩ : ∃ a, a = b * 30103 / 100000 - 1 := ⟨_, rfl⟩
  rw [← ha]
  rcases le_or_gt 0 b with hb | hb
  · -- Here `10 ^ 59 ≤ 2 ^ 196` is near enough.
    refine le_of_pow_le_pow_left₀ (show 196 ≠ 0 by decide) (by positivity) ?_
    calc ((10 : ℚ) ^ a) ^ 196 = 10 ^ (a * 196) := by rw [zpow_mul, zpow_ofNat]
      _ ≤ 10 ^ (59 * b) := zpow_le_zpow_right₀ (by norm_num) (by omega)
      _ = (10 ^ (59 : ℤ)) ^ b := zpow_mul _ _ _
      _ ≤ (2 ^ (196 : ℤ)) ^ b := zpow_le_zpow_left₀ hb (by norm_num) (by norm_num)
      _ = (2 ^ b) ^ 196 := by rw [← zpow_mul, mul_comm, zpow_mul, zpow_ofNat]
  · -- Here `2 ^ 93 ≤ 10 ^ 28` is near enough.
    refine le_of_pow_le_pow_left₀ (show 93 ≠ 0 by decide) (by positivity) ?_
    calc ((10 : ℚ) ^ a) ^ 93 = 10 ^ (a * 93) := by rw [zpow_mul, zpow_ofNat]
      _ ≤ 10 ^ (28 * b) := zpow_le_zpow_right₀ (by norm_num) (by omega)
      _ = (10 ^ (28 : ℤ)) ^ b := zpow_mul _ _ _
      _ ≤ (2 ^ (93 : ℤ)) ^ b := zpow_le_zpow_of_nonpos (by norm_num) (by norm_num) hb.le
      _ = (2 ^ b) ^ 93 := by rw [← zpow_mul, mul_comm, zpow_mul, zpow_ofNat]

/-! ## The laws -/

variable {x : Binary64}

theorem isZero_iff (x : Binary64) : x.isZero = true ↔ x.significand = 0 := by
  unfold isZero significand
  simp only [Bool.and_eq_true, beq_iff_eq]
  split <;> omega

/-- Where the binary logarithm of a number puts its first grid. -/
def firstGrid (x : Binary64) : ℤ :=
  ((x.significand.log2 : ℤ) + x.exponent) * 30103 / 100000 - 1

theorem exponent_le (hfinite : x.isFinite = true) : x.exponent ≤ 971 := by
  have hne : x.exponentField ≠ 2047 := by simpa [isFinite] using hfinite
  have := x.exponentField_lt
  unfold exponent
  split <;> omega

theorem log2_significand_le (x : Binary64) : x.significand.log2 ≤ 52 := by
  by_cases hzero : x.significand = 0
  · simp [hzero]
  · have := (Nat.log2_lt hzero).2 x.significand_lt
    omega

theorem interval_number (x : Binary64) :
    x.interval.number = x.significand * 2 ^ x.exponent := by
  unfold Interval.number interval
  dsimp only
  rw [zpow_sub₀ (by norm_num)]
  push_cast
  ring

theorem ten_zpow_firstGrid_le (hfinite : x.isFinite = true) (hpos : x.significand ≠ 0) :
    (10 : ℚ) ^ x.firstGrid ≤ x.interval.number := by
  have hexp := exponent_le hfinite
  have hexp' := x.exponent_ge
  have hlog := x.log2_significand_le
  calc (10 : ℚ) ^ x.firstGrid ≤ 2 ^ ((x.significand.log2 : ℤ) + x.exponent) :=
        ten_zpow_le_two_zpow (by omega) (by omega)
    _ = 2 ^ (x.significand.log2 : ℤ) * 2 ^ x.exponent := zpow_add₀ (by norm_num) _ _
    _ ≤ x.significand * 2 ^ x.exponent := by
        have := (between_powers hpos).1
        gcongr
    _ = x.interval.number := x.interval_number.symm

/-- Sixteen places below the first digit of a number, the grid is finer than its interval. -/
theorem grid_lt_interval {power : ℤ} (h : (10 : ℚ) ^ power ≤ x.interval.number) :
    (10 : ℚ) ^ (power - 16) < (x.interval.high - x.interval.low) * 2 ^ x.interval.power := by
  have hpow : (0 : ℚ) < 2 ^ x.interval.power := zpow_pos (by norm_num) _
  have hlt := x.significand_lt
  have hwidth : x.interval.mid < 10 ^ 16 * (x.interval.high - x.interval.low) := by
    unfold interval
    dsimp only
    split
    case isTrue hbegins =>
      have := BeginsRow.significand_eq hbegins
      omega
    case isFalse => omega
  have hle : x.interval.low ≤ x.interval.high := by omega
  rw [zpow_sub₀ (by norm_num), div_lt_iff₀ (by positivity)]
  calc (10 : ℚ) ^ power ≤ x.interval.mid * 2 ^ x.interval.power := h
    _ < 10 ^ 16 * (x.interval.high - x.interval.low) * 2 ^ x.interval.power := by
        rw [← Nat.cast_sub hle]
        gcongr
        exact_mod_cast hwidth
    _ = (x.interval.high - x.interval.low) * 2 ^ x.interval.power * 10 ^ (16 : ℤ) := by ring

/-- The shortest decimal of a number other than zero lies in its interval, at most seventeen digits
below the first grid. -/
theorem shortest_spec (tie : Tie) (hfinite : x.isFinite = true) (hpos : x.significand ≠ 0) :
    x.interval.holds (x.shortest tie).power (x.shortest tie).coefficient = true ∧
      x.firstGrid - 17 < (x.shortest tie).power := by
  have hzero : x.isZero = false := by simp [Bool.eq_false_iff, isZero_iff, hpos]
  obtain ⟨hlog, hstart⟩ := Interval.log10_spec (ten_zpow_firstGrid_le hfinite hpos) 3
  obtain ⟨d, hd⟩ := @Interval.exists_search x.interval tie _ 17 16 (by decide)
    (x.interval.exists_onGrid tie (interval_low_lt_mid hpos) x.interval_mid_lt_high
      (grid_lt_interval hlog))
  obtain ⟨hholds, hpower⟩ := Interval.search_holds hd
  have hshortest : x.shortest tie = d.dropZeros 20 := by
    unfold firstGrid at hd
    unfold shortest
    rw [if_neg (by simp [hzero])]
    dsimp only
    rw [hd]
  rw [hshortest, Interval.holds_iff, d.dropZeros_value, ← Interval.holds_iff]
  refine ⟨hholds, ?_⟩
  have := d.le_dropZeros_power 20
  push_cast at hpower
  omega

/-- A finite number is the rounding of its shortest decimal. -/
theorem shortest_rounds_back (tie : Tie) (hfinite : x.isFinite = true) :
    ofDecimal x.isNegative (x.shortest tie).coefficient (x.shortest tie).power = x := by
  by_cases hpos : x.significand = 0
  · have hzero : x.isZero = true := (isZero_iff x).2 hpos
    have hmagnitude : rowMagnitude x.exponent x.significand = 0 := by
      rw [rowMagnitude_self]
      simp only [isZero, Bool.and_eq_true, beq_iff_eq] at hzero
      omega
    unfold shortest
    rw [if_pos hzero]
    conv_rhs => rw [← ofMagnitude_self x, hmagnitude]
    rfl
  · exact (ofDecimal_eq_iff hfinite hpos _ _).2 (shortest_spec tie hfinite hpos).1

/-- The shortest decimal of a number that is a multiple of `2 ^ 11` ends in a zero. -/
theorem shortest_power_pos (tie : Tie) (hfinite : x.isFinite = true) (hexp : 11 ≤ x.exponent) :
    0 < (x.shortest tie).power := by
  have hge : 2 ^ 52 ≤ x.significand := significand_ge (by omega)
  have hlog : 52 ≤ x.significand.log2 := (Nat.le_log2 (by omega)).2 hge
  have hpower := (shortest_spec tie hfinite (by omega)).2
  unfold firstGrid at hpower
  omega

end Binary64

end KeyAccess.Decimal
