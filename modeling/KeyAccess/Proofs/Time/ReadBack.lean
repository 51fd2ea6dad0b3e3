-- The laws of reading timestamps. What is read is an instant that a clock shows. A written instant
-- is read back down to the millisecond, leap seconds as such.
import Mathlib
import KeyAccess.Time.Timestamp
import KeyAccess.Proofs.Outcome
import KeyAccess.Proofs.Time.WrittenForm

namespace KeyAccess.Time

open Decimal

namespace Timestamp

/-! ## What is read -/

theorem digitsValue_lt {digits : List Char} (h : ∀ c ∈ digits, c.isDigit = true) :
    digitsValue digits < 10 ^ digits.length := by
  induction digits using List.reverseRecOn with
  | nil => exact Nat.one_pos
  | append_singleton digits c ih =>
    obtain ⟨d, hd, rfl⟩ := exists_digitChar (h c (by simp))
    have hrest := ih fun c hc => h c (by simp [hc])
    rw [digitsValue_snoc, digitValue_digitChar hd, List.length_append, List.length_singleton,
      pow_succ]
    omega

theorem nanosOfDigits_lt {digits : List Char} (h : ∀ c ∈ digits, c.isDigit = true) :
    nanosOfDigits digits < 1000000000 := by
  have hlen : (digits.take 9).length ≤ 9 := List.length_take_le 9 digits
  have hvalue : digitsValue (digits.take 9) < 10 ^ (digits.take 9).length :=
    digitsValue_lt fun c hc => h c (List.mem_of_mem_take hc)
  unfold nanosOfDigits powerOfTen
  calc digitsValue (digits.take 9) * 10 ^ (9 - (digits.take 9).length)
      < 10 ^ (digits.take 9).length * 10 ^ (9 - (digits.take 9).length) :=
        Nat.mul_lt_mul_of_pos_right hvalue (by positivity)
    _ = 1000000000 := by rw [← pow_add, Nat.add_sub_cancel' hlen]; rfl

theorem takeFraction_lt {text rest : List Char} {nanos : ℕ}
    (h : takeFraction text = .ok (nanos, rest)) : nanos < 1000000000 := by
  unfold takeFraction at h
  split at h
  · split at h
    · cases h
    · split at h
      · cases h
        exact nanosOfDigits_lt fun c hc => List.mem_takeWhile_imp hc
      · cases h
  · cases h
    decide

theorem onClock_instantOf (date : Date) (hour minute second : ℕ) {nanos : ℕ} (offset : ℤ)
    (hnanos : nanos < 1000000000) :
    (instantOf date hour minute second nanos offset).OnClock := by
  unfold instantOf
  constructor
  · dsimp only
    split <;> omega
  · dsimp only
    split <;> omega

theorem readChars_onClock {text : List Char} {t : Instant} (h : readChars text = .ok t) :
    t.OnClock := by
  unfold readChars at h
  dsimp only at h
  simp only [guard_eq_ok_iff, bind_eq_ok_iff, Prod.exists] at h
  obtain ⟨-, year, _, -, _, -, month, _, -, _, -, day, _, -, -, _, -, hour, _, -, _, -, minute, _, -,
    _, -, second, _, -, nanos, _, hnanos, -, offset, _, -, -, -, ht⟩ := h
  cases ht
  exact onClock_instantOf _ _ _ _ _ (takeFraction_lt hnanos)

/-! ## What is written -/

theorem takeDigits_padded {width n : ℕ} (h : n < 10 ^ width) (rest : List Char) :
    takeDigits width (padded width n ++ rest) = .ok (n, rest) := by
  have htake : (padded width n ++ rest).take width = padded width n :=
    List.take_left' (length_padded width n)
  have hdrop : (padded width n ++ rest).drop width = rest :=
    List.drop_left' (length_padded width n)
  have hall : (padded width n).all Char.isDigit = true :=
    List.all_eq_true.2 fun c hc => isDigit_of_mem_padded hc
  unfold takeDigits
  rw [htake, hdrop, digitsValue_padded h, if_pos ⟨by simp, hall⟩]

theorem takeOneOf_cons {allowed : List Char} {c : Char} (h : c ∈ allowed) (rest : List Char) :
    takeOneOf allowed (c :: rest) = .ok rest := if_pos h

theorem takeFraction_digits {digits rest : List Char} (hne : digits ≠ [])
    (h : ∀ c ∈ digits, c.isDigit = true) (hrest : rest.takeWhile Char.isDigit = []) :
    takeFraction ('.' :: (digits ++ rest)) = .ok (nanosOfDigits digits, rest) := by
  have htake : (digits ++ rest).takeWhile Char.isDigit = digits := by
    rw [List.takeWhile_append_of_pos h, hrest, List.append_nil]
  have hdrop : (digits ++ rest).dropWhile Char.isDigit = rest := by
    rw [List.dropWhile_append_of_pos h]
    simpa [hrest] using List.takeWhile_append_dropWhile (p := Char.isDigit) (l := rest)
  cases digits with
  | nil => exact absurd rfl hne
  | cons c digits =>
    rw [List.cons_append] at htake hdrop ⊢
    change (if c.isDigit = true then _ else _) = _
    rw [if_pos (h c List.mem_cons_self), htake, hdrop]

theorem nanosOfDigits_padded {n : ℕ} (h : n < 10 ^ 3) :
    nanosOfDigits (padded 3 n) = n * 1000000 := by
  unfold nanosOfDigits
  dsimp only
  rw [List.take_of_length_le (by simp), digitsValue_padded h, length_padded]
  rfl

theorem byteCount_ge (text : List Char) : text.length ≤ byteCount text := by
  induction text with
  | nil => exact Nat.le_refl 0
  | cons c text ih =>
    have hpos := c.utf8Size_pos
    change text.length + 1 ≤ c.utf8Size + byteCount text
    omega

end Timestamp

namespace Instant

open Timestamp

/-- The beginning of the millisecond that an instant falls in. -/
def toMillisecond (t : Instant) : Instant := ⟨t.seconds, t.nanos / 1000000 * 1000000⟩

variable {t u : Instant}

theorem sameMillisecond_toMillisecond (t : Instant) : t.SameMillisecond t.toMillisecond :=
  ⟨rfl, (Nat.mul_div_cancel _ (by decide)).symm⟩

/-- The numbers of a written instant determine it down to the millisecond. -/
theorem instantOf_numbers (h : t.OnClock) :
    Timestamp.instantOf t.date (t.secondOfDay / 3600) (t.secondOfDay / 60 % 60) t.second
      (t.millisecond * 1000000) 0 = t.toMillisecond := by
  have hday : t.date.toDay = t.seconds / 86400 + epochDay := Date.toDay_ofDay _
  have hnanos := h.nanos_lt
  have hleap := h.leap
  unfold Timestamp.instantOf toMillisecond
  dsimp only
  rw [hday]
  unfold second millisecond secondOfDay
  congr 1
  · split_ifs <;> omega
  · split_ifs <;> omega

theorem read_text (h : t.OnClock) (hyear : t.FourDigitYear) :
    Timestamp.read t.text = .ok t.toMillisecond := by
  unfold Timestamp.read text
  rw [String.toList_ofList, chars_eq_row hyear]
  have hfit := fit_numbers hyear
  have hdate : (⟨(t.date.year.toNat : ℤ), t.date.month, t.date.day⟩ : Date) = t.date := by
    rw [Int.toNat_of_nonneg hyear.1]
  have hexists : t.date.exists? = true := Date.exists?_ofDay _
  have hsecondOfDay := t.secondOfDay_lt
  have hsecond := t.second_le
  simp only [Fit, columns, numbers, List.forall₂_cons] at hfit
  obtain ⟨hy, hmonth, hday, hhour, hminute, hsec, hmillisecond, -⟩ := hfit
  unfold Timestamp.readChars
  dsimp only
  simp only [guard_eq_ok_iff, bind_eq_ok_iff, Prod.exists]
  refine ⟨?_, _, _, takeDigits_padded hy _, _, takeOneOf_cons (by simp) _,
    _, _, takeDigits_padded hmonth _, _, takeOneOf_cons (by simp) _,
    _, _, takeDigits_padded hday _, by rw [hdate, hexists]; decide, _, takeOneOf_cons (by simp) _,
    _, _, takeDigits_padded hhour _, _, takeOneOf_cons (by simp) _,
    _, _, takeDigits_padded hminute _, _, takeOneOf_cons (by simp) _,
    _, _, takeDigits_padded hsec _, _, _, takeFraction_digits ?_
      (fun c hc => isDigit_of_mem_padded hc) (by rfl), by omega, 0, [], rfl, by decide, by decide, ?_⟩
  · have hlength := byteCount_ge (row columns t.numbers)
    simp only [columns, numbers, row, List.length_append, List.length_cons, length_padded,
      List.length_nil] at hlength ⊢
    omega
  · exact List.ne_nil_of_length_pos (by simp)
  · rw [hdate, nanosOfDigits_padded hmillisecond, instantOf_numbers h]
    rfl

end Instant

end KeyAccess.Time
