-- The rows of the format. Every positive value lies in one row, where the numbers are the multiples
-- of one power of two, and it rounds to the nearest of them. A finite number is given by its sign,
-- its row and its significand.
import Mathlib
import KeyAccess.Decimal.Binary64

namespace KeyAccess.Decimal.Binary64

/-! ## Nearest integers -/

/-- The integer is nearest to the value, and if another is as near it is the even one. -/
def Nearest (w : ℚ) (r : ℕ) : Prop :=
  (r : ℚ) - 1 / 2 ≤ w ∧ w ≤ r + 1 / 2 ∧ (r % 2 = 1 → (r : ℚ) - 1 / 2 < w ∧ w < r + 1 / 2)

variable {w : ℚ} {r s : ℕ}

theorem Nearest.le_succ (h : Nearest w r) (h' : Nearest w s) : r ≤ s + 1 := by
  have hle : (r : ℚ) ≤ s + 1 := by linarith [h.1, h'.2.1]
  exact_mod_cast hle

/-- Two neighbours are not both nearest: half-way between them one is odd. -/
theorem Nearest.ne_succ (h : Nearest w r) (h' : Nearest w s) : r ≠ s + 1 := by
  rintro rfl
  have hw := h.1
  have hw' := h'.2.1
  push_cast at hw
  rcases Nat.mod_two_eq_zero_or_one s with hs | hs
  · have hodd := (h.2.2 (by omega)).1
    push_cast at hodd
    linarith
  · linarith [(h'.2.2 hs).2]

theorem Nearest.unique (h : Nearest w r) (h' : Nearest w s) : r = s := by
  have h1 := h.le_succ h'
  have h2 := h'.le_succ h
  have h3 := h.ne_succ h'
  have h4 := h'.ne_succ h
  omega

theorem nearest_roundHalfEven (num : ℕ) {den : ℕ} (hden : 0 < den) :
    Nearest ((num : ℚ) / den) (roundHalfEven num den) := by
  have hpos : (0 : ℚ) < den := by exact_mod_cast hden
  have hsplit : (num : ℚ) / den = (num / den : ℕ) + ((num % den : ℕ) : ℚ) / den := by
    have hnum : (num : ℚ) = den * (num / den : ℕ) + (num % den : ℕ) := by
      exact_mod_cast (Nat.div_add_mod num den).symm
    rw [hnum]
    field_simp
  rw [hsplit]
  unfold Nearest roundHalfEven
  generalize num / den = k
  have hlt : num % den < den := Nat.mod_lt _ hden
  generalize num % den = rest at hlt
  have hnonneg : (0 : ℚ) ≤ (rest : ℚ) / den := by positivity
  have hone : (rest : ℚ) / den < 1 := (div_lt_one hpos).2 (by exact_mod_cast hlt)
  rcases lt_trichotomy (2 * rest) den with h | h | h
  · have hhalf : (rest : ℚ) / den < 1 / 2 := by
      have : (2 * rest : ℚ) < den := by exact_mod_cast h
      rw [div_lt_div_iff₀ hpos (by norm_num)]
      linarith
    simp only [h, if_true]
    refine ⟨?_, ?_, fun _ => ⟨?_, ?_⟩⟩ <;> linarith
  · have hhalf : (rest : ℚ) / den = 1 / 2 := by
      have : (2 * rest : ℚ) = den := by exact_mod_cast h
      rw [← this]
      have : (rest : ℚ) ≠ 0 := by
        rintro h0
        rw [h0] at this
        linarith
      field_simp
    simp only [h, lt_irrefl, if_false]
    split
    · exact ⟨by linarith, by linarith, fun hodd => by omega⟩
    · refine ⟨?_, ?_, fun hodd => by omega⟩ <;> push_cast <;> linarith
  · have hhalf : 1 / 2 < (rest : ℚ) / den := by
      have : (den : ℚ) < 2 * rest := by exact_mod_cast h
      rw [div_lt_div_iff₀ (by norm_num) hpos]
      linarith
    simp only [h, h.not_gt, if_true, if_false]
    push_cast
    refine ⟨?_, ?_, fun _ => ⟨?_, ?_⟩⟩ <;> linarith

/-! ## Rows -/

theorem scaleDown_pos (num : ℕ) {den : ℕ} (h : 0 < den) (power : ℤ) :
    0 < (scaleDown num den power).2 := by
  unfold scaleDown powerOfTwo
  split
  · exact Nat.mul_pos h (Nat.pow_pos (by decide))
  · exact h

theorem scaleDown_ratio (num den : ℕ) (power : ℤ) :
    ((scaleDown num den power).1 : ℚ) / (scaleDown num den power).2 =
      (num : ℚ) / den / 2 ^ power := by
  unfold scaleDown powerOfTwo
  split
  case isTrue h =>
    obtain ⟨n, rfl⟩ := Int.eq_ofNat_of_zero_le h
    simp [div_div]
  case isFalse h =>
    obtain ⟨n, hn⟩ := Int.eq_ofNat_of_zero_le (show 0 ≤ -power by omega)
    obtain rfl : power = -(n : ℤ) := by omega
    simp [mul_div_right_comm]

/-- A positive natural number lies between two powers of two. -/
theorem between_powers {n : ℕ} (h : n ≠ 0) :
    (2 : ℚ) ^ (n.log2 : ℤ) ≤ n ∧ (n : ℚ) < 2 ^ ((n.log2 : ℤ) + 1) := by
  constructor
  · exact_mod_cast Nat.log2_self_le h
  · have := Nat.lt_log2_self (n := n)
    exact_mod_cast this

theorem log2Ratio_spec {num den : ℕ} (hnum : num ≠ 0) (hden : den ≠ 0) :
    (2 : ℚ) ^ log2Ratio num den ≤ (num : ℚ) / den ∧
      (num : ℚ) / den < 2 ^ (log2Ratio num den + 1) := by
  obtain ⟨hn1, hn2⟩ := between_powers hnum
  obtain ⟨hd1, hd2⟩ := between_powers hden
  have hpos : (0 : ℚ) < den := by exact_mod_cast Nat.pos_of_ne_zero hden
  have hlow : (2 : ℚ) ^ ((num.log2 : ℤ) - den.log2 - 1) ≤ (num : ℚ) / den := by
    rw [le_div_iff₀ hpos]
    calc (2 : ℚ) ^ ((num.log2 : ℤ) - den.log2 - 1) * den
        ≤ 2 ^ ((num.log2 : ℤ) - den.log2 - 1) * 2 ^ ((den.log2 : ℤ) + 1) := by gcongr
      _ = 2 ^ (num.log2 : ℤ) := by
          rw [← zpow_add₀ (by norm_num)]
          congr 1
          ring
      _ ≤ num := hn1
  have hhigh : (num : ℚ) / den < 2 ^ ((num.log2 : ℤ) - den.log2 + 1) := by
    rw [div_lt_iff₀ hpos]
    calc (num : ℚ) < 2 ^ ((num.log2 : ℤ) + 1) := hn2
      _ = 2 ^ ((num.log2 : ℤ) - den.log2 + 1) * 2 ^ (den.log2 : ℤ) := by
          rw [← zpow_add₀ (by norm_num)]
          congr 1
          ring
      _ ≤ 2 ^ ((num.log2 : ℤ) - den.log2 + 1) * den := by gcongr
  have hguess : ∀ guess : ℤ, (scaleDown num den guess).2 ≤ (scaleDown num den guess).1 ↔
      (2 : ℚ) ^ guess ≤ (num : ℚ) / den := by
    intro guess
    have hd : (0 : ℚ) < (scaleDown num den guess).2 := by
      exact_mod_cast scaleDown_pos num (Nat.pos_of_ne_zero hden) guess
    have hpow : (0 : ℚ) < 2 ^ guess := zpow_pos (by norm_num) guess
    rw [← one_le_div hpow, ← scaleDown_ratio, one_le_div hd]
    exact_mod_cast Iff.rfl
  unfold log2Ratio
  simp only [hguess]
  split
  case isTrue h => exact ⟨h, hhigh⟩
  case isFalse h =>
    rw [sub_add_cancel]
    exact ⟨hlow, not_le.1 h⟩

/-- The value lies in the row of the multiples of `2 ^ q`, and the `r`-th of them is nearest to it.
The rows overlap nowhere; the lowest one begins at zero. -/
structure Rounds (v : ℚ) (q : ℤ) (r : ℕ) : Prop where
  lowest : -1074 ≤ q
  lt : v / 2 ^ q < 2 ^ 53
  le : -1074 < q → 2 ^ 52 ≤ v / 2 ^ q
  nearest : Nearest (v / 2 ^ q) r

variable {v : ℚ} {q : ℤ}

/-- The significand may round up to the first one of the next row. -/
theorem Rounds.le_significand (h : Rounds v q r) : r ≤ 2 ^ 53 := by
  have hlt : (r : ℚ) < 2 ^ 53 + 1 := by linarith [h.lt, h.nearest.1]
  have : r < 2 ^ 53 + 1 := by exact_mod_cast hlt
  omega

theorem Rounds.significand_le (h : Rounds v q r) (hq : -1074 < q) : 2 ^ 52 ≤ r := by
  have hlt : (2 ^ 52 : ℚ) < r + 1 := by linarith [h.le hq, h.nearest.2.1]
  have : 2 ^ 52 < r + 1 := by exact_mod_cast hlt
  omega

theorem div_zpow_pred (v : ℚ) (q : ℤ) : v / 2 ^ (q - 1) = 2 * (v / 2 ^ q) := by
  rw [zpow_sub_one₀ (by norm_num)]
  field_simp

theorem Rounds.row_le {q' : ℤ} {r' : ℕ} (hv : 0 < v) (h : Rounds v q r) (h' : Rounds v q' r') :
    q ≤ q' := by
  by_contra hlt
  push Not at hlt
  have hle := h.le (by have := h'.lowest; omega)
  have hstep : 2 * (v / 2 ^ q) ≤ v / 2 ^ q' := by
    rw [← div_zpow_pred]
    have : (2 : ℚ) ^ q' ≤ 2 ^ (q - 1) := zpow_le_zpow_right₀ (by norm_num) (by omega)
    gcongr
  have := h'.lt
  linarith

/-- A value rounds in one way. -/
theorem Rounds.unique {q' : ℤ} {r' : ℕ} (hv : 0 < v) (h : Rounds v q r) (h' : Rounds v q' r') :
    q = q' ∧ r = r' := by
  obtain rfl := le_antisymm (h.row_le hv h') (h'.row_le hv h)
  exact ⟨rfl, h.nearest.unique h'.nearest⟩

/-- The 63 bits of the `r`-th number of a row. -/
def rowMagnitude (q : ℤ) (r : ℕ) : ℕ := (q + 1074).toNat * 0x10000000000000 + r

/-- A ratio of positive numbers rounds, and its rounding is the number of that row. -/
theorem exists_rounds (negative : Bool) {num den : ℕ} (hnum : num ≠ 0) (hden : den ≠ 0) :
    ∃ q r, Rounds ((num : ℚ) / den) q r ∧ ofRatio negative num den =
      if 0x7FF0000000000000 ≤ rowMagnitude q r then infinity negative
      else ofMagnitude negative (rowMagnitude q r) := by
  obtain ⟨hlow, hhigh⟩ := log2Ratio_spec hnum hden
  generalize hL : log2Ratio num den = L at hlow hhigh
  have hscaled := scaleDown_ratio num den (max (L - 52) (-1074))
  have hpos := scaleDown_pos num (Nat.pos_of_ne_zero hden) (max (L - 52) (-1074))
  refine ⟨max (L - 52) (-1074), _, ⟨le_max_right _ _, ?_, fun hq => ?_,
    hscaled ▸ nearest_roundHalfEven _ hpos⟩, ?_⟩
  · rw [div_lt_iff₀ (zpow_pos (by norm_num) _)]
    calc (num : ℚ) / den < 2 ^ (L + 1) := hhigh
      _ ≤ 2 ^ ((53 : ℤ) + max (L - 52) (-1074)) := zpow_le_zpow_right₀ (by norm_num) (by omega)
      _ = 2 ^ 53 * 2 ^ max (L - 52) (-1074) := by
          rw [zpow_add₀ (by norm_num)]
          norm_num
  · rw [le_div_iff₀ (zpow_pos (by norm_num) _)]
    calc (2 : ℚ) ^ 52 * 2 ^ max (L - 52) (-1074) = 2 ^ ((52 : ℤ) + max (L - 52) (-1074)) := by
          rw [zpow_add₀ (by norm_num)]
          norm_num
      _ = 2 ^ L := by
          congr 1
          omega
      _ ≤ (num : ℚ) / den := hlow
  · simp only [ofRatio, hnum, if_false, hL]
    rfl

/-! ## Fields -/

section Fields

variable {negative : Bool} {magnitude : ℕ}

theorem toNat_ofMagnitude (h : magnitude < 0x8000000000000000) :
    (ofMagnitude negative magnitude).bits.toNat =
      if negative then 0x8000000000000000 + magnitude else magnitude := by
  unfold ofMagnitude
  rw [UInt64.toNat_ofNat']
  split <;> omega

theorem isNegative_ofMagnitude (h : magnitude < 0x8000000000000000) :
    (ofMagnitude negative magnitude).isNegative = negative := by
  unfold isNegative
  rw [toNat_ofMagnitude h]
  cases negative <;> simp [h]

theorem exponentField_ofMagnitude (h : magnitude < 0x8000000000000000) :
    (ofMagnitude negative magnitude).exponentField = magnitude / 0x10000000000000 := by
  unfold exponentField
  rw [toNat_ofMagnitude h]
  split <;> omega

theorem fraction_ofMagnitude (h : magnitude < 0x8000000000000000) :
    (ofMagnitude negative magnitude).fraction = magnitude % 0x10000000000000 := by
  unfold fraction
  rw [toNat_ofMagnitude h]
  split <;> omega

theorem fraction_lt (x : Binary64) : x.fraction < 0x10000000000000 := Nat.mod_lt _ (by decide)

theorem exponentField_lt (x : Binary64) : x.exponentField < 0x800 := Nat.mod_lt _ (by decide)

theorem rowMagnitude_self (x : Binary64) : rowMagnitude x.exponent x.significand =
    x.exponentField * 0x10000000000000 + x.fraction := by
  unfold rowMagnitude exponent significand
  split <;> omega

/-- A number is made of its sign, its row and its significand. -/
theorem ofMagnitude_self (x : Binary64) :
    ofMagnitude x.isNegative (rowMagnitude x.exponent x.significand) = x := by
  obtain ⟨bits⟩ := x
  have hlt := bits.toNat_lt
  rw [rowMagnitude_self]
  refine congrArg Binary64.mk (UInt64.toNat_inj.1 ?_)
  rw [UInt64.toNat_ofNat']
  simp only [isNegative, exponentField, fraction, decide_eq_true_eq]
  split <;> omega

theorem rowMagnitude_lt {x : Binary64} (h : x.isFinite = true) :
    rowMagnitude x.exponent x.significand < 0x7FF0000000000000 := by
  have hne : x.exponentField ≠ 2047 := by simpa [isFinite] using h
  have := x.exponentField_lt
  have := x.fraction_lt
  rw [rowMagnitude_self]
  omega

end Fields

/-- The place of a number in a row tells its significand and its exponent. The end of a row is the
beginning of the next one. -/
theorem row_cases {x : Binary64} (hlow : -1074 ≤ q) (hle : r ≤ 2 ^ 53)
    (hge : -1074 < q → 2 ^ 52 ≤ r)
    (h : rowMagnitude q r = rowMagnitude x.exponent x.significand) :
    x.exponent = q ∧ x.significand = r ∨
      x.exponent = q + 1 ∧ x.significand = 2 ^ 52 ∧ r = 2 ^ 53 ∧ x.fraction = 0 ∧
        1 < x.exponentField := by
  have hfraction := x.fraction_lt
  rw [rowMagnitude_self] at h
  unfold rowMagnitude at h
  unfold exponent significand
  split <;> omega

/-! ## The range of the format -/

/-- In a row the values from half a place below its end on round to the end, which is even. -/
theorem Nearest.eq_end_iff (h : Nearest w r) (hlt : w < 2 ^ 53) :
    r = 2 ^ 53 ↔ (2 : ℚ) ^ 53 - 1 / 2 ≤ w := by
  constructor
  · rintro rfl
    have hlow := h.1
    push_cast at hlow
    exact hlow
  · intro hlow
    refine h.unique ⟨?_, ?_, fun hodd => by omega⟩ <;> push_cast <;> linarith

/-- From half a place past the largest finite number on, values round to infinity. -/
theorem Rounds.rowMagnitude_lt_iff (h : Rounds v q r) :
    rowMagnitude q r < 0x7FF0000000000000 ↔ v < 2 ^ 1024 - 2 ^ 970 := by
  have hpow : (0 : ℚ) < 2 ^ q := zpow_pos (by norm_num) q
  have hr := h.le_significand
  have hlimit : (2 : ℚ) ^ 1024 - 2 ^ 970 = (2 ^ 53 - 1 / 2) * 2 ^ (971 : ℤ) := by
    have hrow : ∀ n : ℕ, (2 : ℚ) ^ (n + 54) - 2 ^ n = (2 ^ 53 - 1 / 2) * 2 ^ (n + 1) := by
      intro n
      ring
    exact hrow 970
  rcases lt_trichotomy q 971 with hq | rfl | hq
  · have hmagnitude : rowMagnitude q r < 0x7FF0000000000000 := by
      unfold rowMagnitude
      omega
    refine iff_of_true hmagnitude ?_
    have hhalf : 2 * (2 : ℚ) ^ q ≤ 2 ^ (971 : ℤ) := by
      rw [← zpow_one_add₀ (by norm_num)]
      exact zpow_le_zpow_right₀ (by norm_num) (by omega)
    calc v < 2 ^ 53 * 2 ^ q := (div_lt_iff₀ hpow).1 h.lt
      _ ≤ (2 ^ 53 - 1 / 2) * (2 * 2 ^ q) := by linarith
      _ ≤ (2 ^ 53 - 1 / 2) * 2 ^ (971 : ℤ) := mul_le_mul_of_nonneg_left hhalf (by norm_num)
      _ = 2 ^ 1024 - 2 ^ 970 := hlimit.symm
  · have hmagnitude : rowMagnitude 971 r < 0x7FF0000000000000 ↔ r ≠ 2 ^ 53 := by
      have hge := h.significand_le (by decide)
      unfold rowMagnitude
      omega
    rw [hmagnitude, hlimit, ← div_lt_iff₀ hpow, ne_eq, h.nearest.eq_end_iff h.lt, not_le]
  · have hge := h.significand_le (by omega)
    have hmagnitude : ¬ rowMagnitude q r < 0x7FF0000000000000 := by
      unfold rowMagnitude
      omega
    refine iff_of_false hmagnitude (not_lt.2 ?_)
    have hpow' : (0 : ℚ) < 2 ^ (971 : ℤ) := zpow_pos (by norm_num) _
    have hdouble : 2 * (2 : ℚ) ^ (971 : ℤ) ≤ 2 ^ q := by
      rw [← zpow_one_add₀ (by norm_num)]
      exact zpow_le_zpow_right₀ (by norm_num) (by omega)
    calc (2 : ℚ) ^ 1024 - 2 ^ 970 = (2 ^ 53 - 1 / 2) * 2 ^ (971 : ℤ) := hlimit
      _ ≤ 2 ^ 53 * 2 ^ (971 : ℤ) := mul_le_mul_of_nonneg_right (by norm_num) hpow'.le
      _ = 2 ^ 52 * (2 * 2 ^ (971 : ℤ)) := by ring
      _ ≤ 2 ^ 52 * 2 ^ q := by gcongr
      _ ≤ v := (le_div_iff₀ hpow).1 (h.le (by omega))

/-- Values far below the smallest positive number round to zero. -/
theorem Rounds.eq_zero (h : Rounds v q r) (hv : v < 2 ^ (-1076 : ℤ)) : rowMagnitude q r = 0 := by
  have hpow : (0 : ℚ) < 2 ^ q := zpow_pos (by norm_num) q
  have hsmall : v / 2 ^ q < 1 / 4 := by
    rw [div_lt_iff₀ hpow]
    calc v < 2 ^ (-1076 : ℤ) := hv
      _ ≤ 2 ^ (q - 2) := zpow_le_zpow_right₀ (by norm_num) (by have := h.lowest; omega)
      _ = 1 / 4 * 2 ^ q := by
          rw [zpow_sub₀ (by norm_num)]
          ring
  have hq : q = -1074 := by
    by_contra hne
    linarith [h.le (by have := h.lowest; omega)]
  have hr : (r : ℚ) < 1 := by linarith [h.nearest.1]
  have hr : r < 1 := by exact_mod_cast hr
  unfold rowMagnitude
  omega

end KeyAccess.Decimal.Binary64
