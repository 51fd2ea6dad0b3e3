-- The laws of rounding. A decimal rounds as its value does, to a finite number if it is in the
-- range of the format. A finite number is the rounding of exactly those decimals that its interval
-- holds.
import Mathlib
import KeyAccess.Decimal.Shortest
import KeyAccess.Proofs.Decimal.Rows

namespace KeyAccess.Decimal

/-- The value of the decimal `coefficient * 10 ^ power`. -/
def decimalValue (coefficient : ℕ) (power : ℤ) : ℚ := coefficient * (10 : ℚ) ^ power

theorem decimalValue_pos {coefficient : ℕ} (h : coefficient ≠ 0) (power : ℤ) :
    0 < decimalValue coefficient power := by
  have hpos : (0 : ℚ) < coefficient := by exact_mod_cast Nat.pos_of_ne_zero h
  exact mul_pos hpos (zpow_pos (by norm_num) power)

namespace Binary64

variable {x : Binary64} {v v' : ℚ} {q : ℤ} {r : ℕ}

/-! ## Intervals -/

/-- The value lies in the interval. -/
def Interval.Contains (i : Interval) (v : ℚ) : Prop :=
  if i.closed then (i.low : ℚ) ≤ v / 2 ^ i.power ∧ v / 2 ^ i.power ≤ i.high
  else (i.low : ℚ) < v / 2 ^ i.power ∧ v / 2 ^ i.power < i.high

theorem Interval.Contains.between {i : Interval} (h : i.Contains v) :
    i.low * 2 ^ i.power ≤ v ∧ v ≤ i.high * 2 ^ i.power := by
  have hpow : (0 : ℚ) < 2 ^ i.power := zpow_pos (by norm_num) _
  rw [← le_div_iff₀ hpow, ← div_le_iff₀ hpow]
  unfold Contains at h
  split at h
  · exact h
  · exact ⟨h.1.le, h.2.le⟩

theorem powerOfTwo_toNat {p : ℤ} (h : 0 ≤ p) : ((powerOfTwo p.toNat : ℕ) : ℚ) = 2 ^ p := by
  obtain ⟨n, rfl⟩ := Int.eq_ofNat_of_zero_le h
  simp [powerOfTwo]

theorem powerOfTen_toNat {p : ℤ} (h : 0 ≤ p) : ((powerOfTen p.toNat : ℕ) : ℚ) = 10 ^ p := by
  obtain ⟨n, rfl⟩ := Int.eq_ofNat_of_zero_le h
  simp [powerOfTen]

/-- The decimal and the count of quarters have a denominator in common. -/
theorem exists_commonTerms (i : Interval) (power : ℤ) : ∃ den : ℚ, 0 < den ∧
    ∀ coefficient quarters : ℕ,
      ((commonTerms i power coefficient quarters).1 : ℚ) = decimalValue coefficient power * den ∧
        ((commonTerms i power coefficient quarters).2 : ℚ) = quarters * 2 ^ i.power * den := by
  refine ⟨(if 0 ≤ power then 1 else 10 ^ (-power)) * (if 0 ≤ i.power then 1 else 2 ^ (-i.power)),
    by split <;> split <;> positivity, fun coefficient quarters => ?_⟩
  have hten : (10 : ℚ) ^ power * 10 ^ (-power) = 1 := by
    rw [← zpow_add₀ (by norm_num), add_neg_cancel, zpow_zero]
  have htwo : (2 : ℚ) ^ i.power * 2 ^ (-i.power) = 1 := by
    rw [← zpow_add₀ (by norm_num), add_neg_cancel, zpow_zero]
  unfold commonTerms decimalValue
  by_cases hp : 0 ≤ power <;> by_cases hq : 0 ≤ i.power
  · simp [hp, hq, powerOfTen_toNat, powerOfTwo_toNat]
  · simp only [hp, hq, if_true, if_false, Nat.cast_mul, powerOfTen_toNat hp,
      powerOfTwo_toNat (show 0 ≤ -i.power by omega)]
    constructor
    · ring
    · linear_combination -(quarters : ℚ) * htwo
  · simp only [hp, hq, if_true, if_false, Nat.cast_mul, powerOfTwo_toNat hq,
      powerOfTen_toNat (show 0 ≤ -power by omega)]
    constructor
    · linear_combination -(coefficient : ℚ) * hten
    · ring
  · simp only [hp, hq, if_false, Nat.cast_mul, powerOfTwo_toNat (show 0 ≤ -i.power by omega),
      powerOfTen_toNat (show 0 ≤ -power by omega)]
    constructor
    · linear_combination -(coefficient : ℚ) * 2 ^ (-i.power) * hten
    · linear_combination -(quarters : ℚ) * 10 ^ (-power) * htwo

/-- Whether an interval holds a decimal depends on the value of the decimal alone. -/
theorem Interval.holds_iff (i : Interval) (power : ℤ) (coefficient : ℕ) :
    i.holds power coefficient = true ↔ i.Contains (decimalValue coefficient power) := by
  obtain ⟨den, hden, hterms⟩ := exists_commonTerms i power
  have hpow : (0 : ℚ) < 2 ^ i.power := zpow_pos (by norm_num) _
  have hle : ∀ a b : ℕ, ∀ x y : ℚ, (a : ℚ) = x * den → (b : ℚ) = y * den → (a ≤ b ↔ x ≤ y) := by
    intro a b x y ha hb
    rw [← Nat.cast_le (α := ℚ), ha, hb, mul_le_mul_iff_of_pos_right hden]
  obtain ⟨hc, hlow⟩ := hterms coefficient i.low
  obtain ⟨hc', hhigh⟩ := hterms coefficient i.high
  unfold Interval.holds Interval.Contains
  simp only [le_div_iff₀ hpow, div_le_iff₀ hpow, lt_div_iff₀ hpow, div_lt_iff₀ hpow]
  cases i.closed
  · simp only [Bool.false_eq_true, if_false, Bool.and_eq_true, decide_eq_true_eq, ← not_le,
      hle _ _ _ _ hc hlow, hle _ _ _ _ hhigh hc']
  · simp only [if_true, Bool.and_eq_true, decide_eq_true_eq, hle _ _ _ _ hlow hc,
      hle _ _ _ _ hc' hhigh]

/-! ## The numbers of an interval -/

theorem significand_lt (x : Binary64) : x.significand < 2 ^ 53 := by
  have := x.fraction_lt
  unfold significand
  split <;> omega

theorem exponent_ge (x : Binary64) : -1074 ≤ x.exponent := by
  unfold exponent
  split <;> omega

/-- A number begins a row, and there is a row below it. -/
def BeginsRow (x : Binary64) : Prop := x.fraction = 0 ∧ 1 < x.exponentField

theorem BeginsRow.significand_eq (h : x.BeginsRow) : x.significand = 2 ^ 52 := by
  obtain ⟨hfraction, hfield⟩ := h
  unfold significand
  split <;> omega

theorem BeginsRow.exponent_gt (h : x.BeginsRow) : -1074 < x.exponent := by
  obtain ⟨-, hfield⟩ := h
  unfold exponent
  split <;> omega

theorem lt_significand_of_not_beginsRow (h : ¬ x.BeginsRow) (hexp : -1074 < x.exponent) :
    2 ^ 52 < x.significand := by
  unfold BeginsRow at h
  unfold exponent at hexp
  unfold significand
  split <;> split at hexp <;> omega

theorem interval_low_pos (hpos : x.significand ≠ 0) : 0 < x.interval.low := by
  unfold interval
  dsimp only
  split <;> omega

theorem interval_low_lt_mid (hpos : x.significand ≠ 0) : x.interval.low < x.interval.mid := by
  unfold interval
  dsimp only
  split <;> omega

theorem interval_mid_lt_high (x : Binary64) : x.interval.mid < x.interval.high :=
  Nat.lt_add_of_pos_right (by decide)

theorem interval_high_lt (x : Binary64) : x.interval.high < 2 ^ 55 := by
  have hlt := x.significand_lt
  unfold interval
  dsimp only
  omega

/-- Above the lowest row an interval is narrow: its width is at most one part in `2 ^ 52`. -/
theorem interval_narrow (hexp : -1074 < x.exponent) :
    2 ^ 52 * x.interval.high ≤ (2 ^ 52 + 1) * x.interval.low := by
  unfold interval
  dsimp only
  split
  case isTrue hbegins =>
    have := BeginsRow.significand_eq hbegins
    omega
  case isFalse hbegins =>
    have := lt_significand_of_not_beginsRow hbegins hexp
    omega

theorem div_quarter (v : ℚ) (e : ℤ) : v / 2 ^ (e - 2) = 4 * (v / 2 ^ e) := by
  rw [show e - 2 = e - 1 - 1 by ring, div_zpow_pred, div_zpow_pred]
  ring

/-- Within its row the interval of a number holds the values that the number is nearest to. -/
theorem contains_iff_nearest (h : ¬ x.BeginsRow) (hpos : x.significand ≠ 0) :
    x.interval.Contains v ↔ Nearest (v / 2 ^ x.exponent) x.significand := by
  have hlow : ((4 * x.significand - 2 : ℕ) : ℚ) = 4 * x.significand - 2 := by
    rw [Nat.cast_sub (by omega)]
    push_cast
    ring
  have hmod := Nat.mod_two_eq_zero_or_one x.significand
  unfold BeginsRow at h
  unfold Interval.Contains interval Nearest
  simp only [h, if_false, div_quarter, hlow, beq_iff_eq]
  generalize v / 2 ^ x.exponent = w
  push_cast
  split <;> rename_i heven
  · constructor
    · rintro ⟨h1, h2⟩
      exact ⟨by linarith, by linarith, fun hodd => by omega⟩
    · rintro ⟨h1, h2, -⟩
      constructor <;> linarith
  · have hodd : x.significand % 2 = 1 := by omega
    constructor
    · rintro ⟨h1, h2⟩
      refine ⟨?_, ?_, fun _ => ⟨?_, ?_⟩⟩ <;> linarith
    · rintro ⟨-, -, h3⟩
      obtain ⟨h1, h2⟩ := h3 hodd
      constructor <;> linarith

/-- The interval of a number that begins a row reaches half as far down into the row below it. -/
theorem BeginsRow.contains_iff (h : x.BeginsRow) : x.interval.Contains v ↔
    (2 : ℚ) ^ 52 - 1 / 4 ≤ v / 2 ^ x.exponent ∧ v / 2 ^ x.exponent ≤ 2 ^ 52 + 1 / 2 := by
  have hbegins : x.fraction = 0 ∧ 1 < x.exponentField := h
  unfold Interval.Contains interval
  simp only [h.significand_eq, hbegins, and_self, if_true, div_quarter]
  generalize v / 2 ^ x.exponent = w
  norm_num
  constructor <;> rintro ⟨h1, h2⟩ <;> constructor <;> linarith

/-- The interval of a number holds the values that round to the number. -/
theorem contains_iff_rounds (hpos : x.significand ≠ 0) : x.interval.Contains v ↔
    ∃ q r, Rounds v q r ∧ rowMagnitude q r = rowMagnitude x.exponent x.significand := by
  have hsucc : v / 2 ^ x.exponent = v / 2 ^ (x.exponent - 1) / 2 := by
    rw [div_zpow_pred]
    ring
  by_cases hbegins : x.BeginsRow
  · have hexp := hbegins.exponent_gt
    rw [hbegins.contains_iff]
    constructor
    · rintro ⟨h1, h2⟩
      by_cases hrow : (2 : ℚ) ^ 52 ≤ v / 2 ^ x.exponent
      · refine ⟨x.exponent, x.significand, ⟨hexp.le, by linarith, fun _ => hrow, ?_⟩, rfl⟩
        rw [hbegins.significand_eq]
        refine ⟨?_, ?_, fun hodd => by omega⟩ <;> push_cast <;> linarith
      · -- The value lies in the row below and rounds up to the end of it.
        refine ⟨x.exponent - 1, 2 ^ 53, ⟨by omega, by linarith, fun _ => by linarith, ?_⟩, ?_⟩
        · refine ⟨?_, ?_, fun hodd => by omega⟩ <;> push_cast <;> linarith
        · rw [hbegins.significand_eq]
          unfold rowMagnitude
          omega
    · rintro ⟨q, r, h, heq⟩
      have hnear := h.nearest
      rcases row_cases h.lowest h.le_significand h.significand_le heq with
        ⟨rfl, rfl⟩ | ⟨hq, -, rfl, -, -⟩
      · rw [hbegins.significand_eq] at hnear
        have hup := hnear.2.1
        push_cast at hup
        exact ⟨by linarith [h.le hexp], hup⟩
      · obtain rfl : q = x.exponent - 1 := by omega
        have hlow := hnear.1
        push_cast at hlow
        constructor <;> linarith [h.lt]
  · rw [contains_iff_nearest hbegins hpos]
    constructor
    · intro hnear
      refine ⟨x.exponent, x.significand, ⟨x.exponent_ge, ?_, fun hexp => ?_, hnear⟩, rfl⟩
      · have hlt : (x.significand : ℚ) + 1 ≤ 2 ^ 53 := by exact_mod_cast x.significand_lt
        linarith [hnear.2.1]
      · have hlt : (2 : ℚ) ^ 52 + 1 ≤ x.significand := by
          exact_mod_cast lt_significand_of_not_beginsRow hbegins hexp
        linarith [hnear.1]
    · rintro ⟨q, r, h, heq⟩
      rcases row_cases h.lowest h.le_significand h.significand_le heq with
        ⟨rfl, rfl⟩ | ⟨-, -, -, hbegin⟩
      · exact h.nearest
      · exact absurd hbegin hbegins

theorem contains_pos (hpos : x.significand ≠ 0) (h : x.interval.Contains v) : 0 < v := by
  have hlow : (0 : ℚ) < x.interval.low := by exact_mod_cast interval_low_pos hpos
  exact lt_of_lt_of_le (mul_pos hlow (zpow_pos (by norm_num) _)) h.between.1

/-! ## Decimals -/

theorem zpow_le_zpow_of_nonpos {a b : ℚ} (ha : 0 < a) (h : a ≤ b) {power : ℤ} (hp : power ≤ 0) :
    b ^ power ≤ a ^ power := by
  have hneg : a ^ (-power) ≤ b ^ (-power) := zpow_le_zpow_left₀ (by omega) ha.le h
  simpa only [zpow_neg, inv_inv] using inv_anti₀ (zpow_pos ha _) hneg

theorem zpow_eight (power : ℤ) : (8 : ℚ) ^ power = 2 ^ (3 * power) := by
  rw [zpow_mul]
  norm_num

theorem two_zpow_le_decimalValue {coefficient : ℕ} (hc : coefficient ≠ 0) {power : ℤ}
    (hp : 0 ≤ power) :
    (2 : ℚ) ^ ((coefficient.log2 : ℤ) + 3 * power) ≤ decimalValue coefficient power := by
  have hten : (8 : ℚ) ^ power ≤ 10 ^ power := zpow_le_zpow_left₀ hp (by norm_num) (by norm_num)
  rw [zpow_add₀ (by norm_num), ← zpow_eight, decimalValue]
  exact mul_le_mul (between_powers hc).1 hten (by positivity) (by positivity)

theorem decimalValue_lt_two_zpow {coefficient : ℕ} (hc : coefficient ≠ 0) {power : ℤ}
    (hp : power ≤ 0) :
    decimalValue coefficient power < 2 ^ ((coefficient.log2 : ℤ) + 1 + 3 * power) := by
  have hten : (10 : ℚ) ^ power ≤ 8 ^ power :=
    zpow_le_zpow_of_nonpos (by norm_num) (by norm_num) hp
  rw [zpow_add₀ (by norm_num) _ (3 * power), ← zpow_eight, decimalValue]
  exact mul_lt_mul (between_powers hc).2 hten (by positivity) (by positivity)

/-- A decimal is written as a ratio. -/
theorem exists_ratio {coefficient : ℕ} (hc : coefficient ≠ 0) (power : ℤ) :
    ∃ num den : ℕ, num ≠ 0 ∧ den ≠ 0 ∧ (num : ℚ) / den = decimalValue coefficient power ∧
      ∀ negative, ofDecimal negative coefficient power = ofRatio negative num den ∨
        2 ^ 1024 ≤ decimalValue coefficient power ∧
          ofDecimal negative coefficient power = infinity negative ∨
        decimalValue coefficient power < 2 ^ (-1076 : ℤ) ∧
          ofDecimal negative coefficient power = zero negative := by
  have hten : ∀ n, powerOfTen n ≠ 0 := fun n => (Nat.pow_pos (by decide)).ne'
  unfold ofDecimal
  simp only [hc, if_false]
  by_cases hp : 0 ≤ power
  · refine ⟨coefficient * powerOfTen power.toNat, 1, Nat.mul_ne_zero hc (hten _), one_ne_zero,
      by simp [decimalValue, powerOfTen_toNat hp], fun negative => ?_⟩
    simp only [hp, if_true]
    split
    case isTrue hsize =>
      refine Or.inr (Or.inl ⟨le_trans ?_ (two_zpow_le_decimalValue hc hp), rfl⟩)
      rw [← zpow_natCast]
      exact zpow_le_zpow_right₀ (by norm_num) (by omega)
    case isFalse => exact Or.inl rfl
  · refine ⟨coefficient, powerOfTen (-power).toNat, hc, hten _, ?_, fun negative => ?_⟩
    · rw [powerOfTen_toNat (by omega), zpow_neg, div_inv_eq_mul, decimalValue]
    · simp only [hp, if_false]
      split
      case isTrue hsize =>
        refine Or.inr (Or.inr ⟨lt_of_lt_of_le (decimalValue_lt_two_zpow hc (by omega)) ?_, rfl⟩)
        exact zpow_le_zpow_right₀ (by norm_num) (by omega)
      case isFalse => exact Or.inl rfl

/-- A decimal rounds as its value does: the bounds on its size only keep powers of ten from being
written out. -/
theorem exists_rounds_ofDecimal (negative : Bool) {coefficient : ℕ} (hc : coefficient ≠ 0)
    (power : ℤ) :
    ∃ q r, Rounds (decimalValue coefficient power) q r ∧ ofDecimal negative coefficient power =
      if 0x7FF0000000000000 ≤ rowMagnitude q r then infinity negative
      else ofMagnitude negative (rowMagnitude q r) := by
  obtain ⟨num, den, hnum, hden, hvalue, hcases⟩ := exists_ratio hc power
  obtain ⟨q, r, h, hratio⟩ := exists_rounds negative hnum hden
  rw [hvalue] at h
  refine ⟨q, r, h, ?_⟩
  rcases hcases negative with heq | ⟨hlarge, heq⟩ | ⟨hsmall, heq⟩
  · rw [heq, hratio]
  · have hbeyond : ¬ rowMagnitude q r < 0x7FF0000000000000 := by
      rw [h.rowMagnitude_lt_iff, not_lt]
      exact le_trans (sub_le_self _ (by positivity)) hlarge
    rw [heq, if_pos (not_lt.1 hbeyond)]
  · rw [heq, h.eq_zero hsmall]
    rfl

/-! ## The laws -/

theorem isFinite_ofMagnitude {negative : Bool} {magnitude : ℕ}
    (h : magnitude < 0x7FF0000000000000) : (ofMagnitude negative magnitude).isFinite = true := by
  have hfield := @exponentField_ofMagnitude negative magnitude (by omega)
  rw [isFinite, hfield, bne_iff_ne]
  omega

theorem isFinite_infinity (negative : Bool) : (infinity negative).isFinite = false := by
  cases negative <;> decide

theorem isNegative_ofDecimal (negative : Bool) (coefficient : ℕ) (power : ℤ) :
    (ofDecimal negative coefficient power).isNegative = negative := by
  by_cases hc : coefficient = 0
  · rw [ofDecimal, if_pos hc]
    exact isNegative_ofMagnitude (by decide)
  · obtain ⟨q, r, -, heq⟩ := exists_rounds_ofDecimal negative hc power
    rw [heq]
    split
    · exact isNegative_ofMagnitude (by decide)
    · exact isNegative_ofMagnitude (by omega)

/-- A decimal rounds to a finite number exactly if it is not as near to the first power of two past
the range as to the largest finite number. -/
theorem isFinite_ofDecimal_iff (negative : Bool) (coefficient : ℕ) (power : ℤ) :
    (ofDecimal negative coefficient power).isFinite = true ↔
      decimalValue coefficient power < 2 ^ 1024 - 2 ^ 970 := by
  by_cases hc : coefficient = 0
  · rw [ofDecimal, if_pos hc]
    refine iff_of_true (isFinite_ofMagnitude (by decide)) ?_
    have hlt : (2 : ℚ) ^ 970 < 2 ^ 1024 := pow_lt_pow_right₀ (by norm_num) (by decide)
    simpa [decimalValue, hc] using hlt
  · obtain ⟨q, r, h, heq⟩ := exists_rounds_ofDecimal negative hc power
    rw [heq, ← h.rowMagnitude_lt_iff]
    split
    case isTrue hge => simp [isFinite_infinity, hge]
    case isFalse hlt => simp [isFinite_ofMagnitude (not_le.1 hlt), not_le.1 hlt]

theorem eq_of_ofMagnitude_eq {negative : Bool} {magnitude : ℕ} (h : magnitude < 0x7FF0000000000000)
    (heq : ofMagnitude negative magnitude = x) :
    magnitude = rowMagnitude x.exponent x.significand := by
  have hlt : magnitude < 0x8000000000000000 := by omega
  rw [rowMagnitude_self, ← heq, exponentField_ofMagnitude hlt, fraction_ofMagnitude hlt]
  omega

/-- A finite number other than zero is the rounding of the decimals that its interval holds, and of
no others. -/
theorem ofDecimal_eq_iff (hfinite : x.isFinite = true) (hpos : x.significand ≠ 0)
    (coefficient : ℕ) (power : ℤ) : ofDecimal x.isNegative coefficient power = x ↔
      x.interval.holds power coefficient = true := by
  rw [Interval.holds_iff]
  by_cases hc : coefficient = 0
  · have hzero : ofDecimal x.isNegative coefficient power ≠ x := by
      intro heq
      rw [ofDecimal, if_pos hc] at heq
      have hmagnitude := eq_of_ofMagnitude_eq (by decide) heq
      have : x.significand ≤ rowMagnitude x.exponent x.significand := Nat.le_add_left _ _
      omega
    refine iff_of_false hzero fun hcontains => ?_
    have hvalue := contains_pos hpos hcontains
    simp [decimalValue, hc] at hvalue
  · rw [contains_iff_rounds hpos]
    obtain ⟨q, r, h, heq⟩ := exists_rounds_ofDecimal x.isNegative hc power
    rw [heq]
    constructor
    · intro hx
      split at hx
      case isTrue => rw [← hx, isFinite_infinity] at hfinite; cases hfinite
      case isFalse hlt => exact ⟨q, r, h, eq_of_ofMagnitude_eq (not_le.1 hlt) hx⟩
    · rintro ⟨q', r', h', hmagnitude⟩
      obtain ⟨rfl, rfl⟩ := h.unique (decimalValue_pos hc power) h'
      have hlt := rowMagnitude_lt hfinite
      rw [hmagnitude, if_neg (not_le.2 hlt), ofMagnitude_self]

/-- A value that is no smaller than the smallest positive number does not round to zero. -/
theorem significand_ofDecimal_ne_zero {negative : Bool} {coefficient : ℕ} {power : ℤ}
    (hge : 2 ^ (-1074 : ℤ) ≤ decimalValue coefficient power)
    (hfinite : (ofDecimal negative coefficient power).isFinite = true) :
    (ofDecimal negative coefficient power).significand ≠ 0 := by
  intro hzero
  have hc : coefficient ≠ 0 := by
    rintro rfl
    have hpos : (0 : ℚ) < 2 ^ (-1074 : ℤ) := zpow_pos (by norm_num) _
    rw [decimalValue, Nat.cast_zero, zero_mul] at hge
    linarith
  obtain ⟨q, r, h, heq⟩ := exists_rounds_ofDecimal negative hc power
  have hlt : rowMagnitude q r < 0x7FF0000000000000 :=
    h.rowMagnitude_lt_iff.2 ((isFinite_ofDecimal_iff negative coefficient power).1 hfinite)
  rw [if_neg (not_le.2 hlt)] at heq
  have hmagnitude := eq_of_ofMagnitude_eq hlt heq.symm
  have hbits : rowMagnitude q r = 0 := by
    generalize ofDecimal negative coefficient power = x at hzero hmagnitude
    rw [hmagnitude, rowMagnitude_self]
    unfold significand at hzero
    split at hzero <;> omega
  have hlow := h.lowest
  obtain ⟨rfl, rfl⟩ : q = -1074 ∧ r = 0 := by
    unfold rowMagnitude at hbits
    omega
  have hone : (1 : ℚ) ≤ decimalValue coefficient power / 2 ^ (-1074 : ℤ) :=
    (one_le_div (zpow_pos (by norm_num) _)).2 hge
  have hhalf := h.nearest.2.1
  generalize decimalValue coefficient power / 2 ^ (-1074 : ℤ) = w at hone hhalf
  push_cast at hhalf
  linarith

/-- A value lies in the interval of the number that it rounds to. -/
theorem contains_ofDecimal {negative : Bool} {coefficient : ℕ} {power : ℤ}
    (hge : 2 ^ (-1074 : ℤ) ≤ decimalValue coefficient power)
    (hfinite : (ofDecimal negative coefficient power).isFinite = true) :
    (ofDecimal negative coefficient power).interval.Contains (decimalValue coefficient power) := by
  have hpos := significand_ofDecimal_ne_zero hge hfinite
  rw [← Interval.holds_iff, ← ofDecimal_eq_iff hfinite hpos, isNegative_ofDecimal]

/-! ## Nearness -/

theorem significand_ge (hexp : -1074 < x.exponent) : 2 ^ 52 ≤ x.significand := by
  unfold exponent at hexp
  unfold significand
  split <;> split at hexp <;> omega

/-- Two values that round to one number differ by at most one part in `2 ^ 52`, unless the number is
in the lowest row. -/
theorem contains_near (hexp : -1074 < x.exponent) (h : x.interval.Contains v)
    (h' : x.interval.Contains v') : 2 ^ 52 * |v - v'| ≤ v := by
  have hpow : (0 : ℚ) < 2 ^ x.interval.power := zpow_pos (by norm_num) _
  have hwidth : 2 ^ 52 * ((x.interval.high : ℚ) - x.interval.low) ≤ x.interval.low := by
    have hnarrow : (2 : ℚ) ^ 52 * x.interval.high ≤ (2 ^ 52 + 1) * x.interval.low := by
      exact_mod_cast interval_narrow hexp
    linarith
  obtain ⟨hlow, hhigh⟩ := h.between
  obtain ⟨hlow', hhigh'⟩ := h'.between
  have hdiff : |v - v'| ≤ (x.interval.high - x.interval.low) * 2 ^ x.interval.power := by
    rw [abs_le]
    constructor <;> linarith
  calc (2 : ℚ) ^ 52 * |v - v'|
      ≤ 2 ^ 52 * ((x.interval.high - x.interval.low) * 2 ^ x.interval.power) := by gcongr
    _ = 2 ^ 52 * ((x.interval.high : ℚ) - x.interval.low) * 2 ^ x.interval.power := by ring
    _ ≤ x.interval.low * 2 ^ x.interval.power := by gcongr
    _ ≤ v := hlow

/-- Values from `2 ^ 63` on lie in rows of multiples of `2 ^ 11`. -/
theorem exponent_ge_of_contains (h : x.interval.Contains v) (hv : 2 ^ 63 ≤ v) :
    11 ≤ x.exponent := by
  have hhigh : (x.interval.high : ℚ) < 2 ^ 55 := by exact_mod_cast x.interval_high_lt
  have hlt : (2 : ℚ) ^ (63 : ℤ) < 2 ^ (x.exponent + 53) := by
    calc (2 : ℚ) ^ (63 : ℤ) ≤ v := by exact_mod_cast hv
      _ ≤ x.interval.high * 2 ^ x.interval.power := h.between.2
      _ < 2 ^ 55 * 2 ^ (x.exponent - 2) :=
          mul_lt_mul_of_pos_right hhigh (zpow_pos (by norm_num) _)
      _ = 2 ^ (x.exponent + 53) := by
          rw [show x.exponent + 53 = 55 + (x.exponent - 2) by ring, zpow_add₀ (by norm_num)]
          norm_num
  have hexp : 63 < x.exponent + 53 := (zpow_lt_zpow_iff_right₀ (by norm_num)).1 hlt
  omega

end Binary64

end KeyAccess.Decimal
