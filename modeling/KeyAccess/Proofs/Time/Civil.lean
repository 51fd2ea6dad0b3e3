-- The laws of the calendar. Every day lies in one year and in one month of it, a day and its date
-- determine each other, and a later day has a later date.
import Mathlib
import KeyAccess.Time.Civil

namespace KeyAccess.Time

/-! ## Years -/

theorem totalLength_monthLengths (year : ℤ) :
    (totalLength (monthLengths year) : ℤ) = if isLeapYear year then 366 else 365 := by
  unfold monthLengths totalLength
  split <;> rfl

theorem isLeapYear_iff (year : ℤ) :
    isLeapYear year = true ↔ year % 4 = 0 ∧ (year % 100 ≠ 0 ∨ year % 400 = 0) := by
  simp [isLeapYear]

/-- The next year begins when the months of this one are over. -/
theorem daysBeforeYear_succ (year : ℤ) :
    daysBeforeYear (year + 1) = daysBeforeYear year + totalLength (monthLengths year) := by
  rw [totalLength_monthLengths]
  unfold daysBeforeYear
  by_cases h : isLeapYear year = true
  · have hleap := (isLeapYear_iff year).1 h
    rw [if_pos h]
    omega
  · have hleap := mt (isLeapYear_iff year).2 h
    rw [if_neg h]
    omega

theorem daysBeforeYear_mono {year later : ℤ} (h : year ≤ later) :
    daysBeforeYear year ≤ daysBeforeYear later := by
  unfold daysBeforeYear
  omega

/-- The mean length of a year is off by less than a year, so one step to either side is enough. -/
theorem yearOfDay_spec (day : ℤ) : daysBeforeYear (yearOfDay day) ≤ day ∧
    day < daysBeforeYear (yearOfDay day + 1) := by
  have hbefore : daysBeforeYear (400 * day / 146097 - 1) ≤ day := by
    unfold daysBeforeYear
    omega
  have hafter : day < daysBeforeYear (400 * day / 146097 + 1 + 1) := by
    unfold daysBeforeYear
    omega
  unfold yearOfDay
  dsimp only
  split_ifs with hlow hhigh
  · exact ⟨hbefore, by rwa [sub_add_cancel]⟩
  · exact ⟨hhigh, hafter⟩
  · exact ⟨not_lt.1 hlow, not_le.1 hhigh⟩

theorem yearOfDay_eq {day year : ℤ} (h : daysBeforeYear year ≤ day)
    (hnext : day < daysBeforeYear (year + 1)) : yearOfDay day = year := by
  obtain ⟨hlow, hhigh⟩ := yearOfDay_spec day
  rcases lt_trichotomy (yearOfDay day) year with hlt | heq | hlt
  · have := daysBeforeYear_mono (show yearOfDay day + 1 ≤ year from hlt)
    omega
  · exact heq
  · have := daysBeforeYear_mono (show year + 1 ≤ yearOfDay day from hlt)
    omega

/-! ## Months -/

theorem totalLength_cons (length : ℕ) (rest : List ℕ) :
    totalLength (length :: rest) = length + totalLength rest := rfl

/-- A day within some months lies in one of them. -/
theorem exists_month {lengths : List ℕ} {offset : ℕ} (h : offset < totalLength lengths) :
    ∃ k r length, lengths[k]? = some length ∧ r < length ∧
      offset = totalLength (lengths.take k) + r := by
  induction lengths generalizing offset with
  | nil => exact absurd h (Nat.not_lt_zero _)
  | cons length rest ih =>
    rw [totalLength_cons] at h
    by_cases hin : offset < length
    · exact ⟨0, offset, length, rfl, hin, (Nat.zero_add _).symm⟩
    · obtain ⟨k, r, length', hk, hr, hoffset⟩ := ih (show offset - length < totalLength rest by omega)
      refine ⟨k + 1, r, length', hk, hr, ?_⟩
      rw [List.take_succ_cons, totalLength_cons]
      omega

theorem monthOfOffset_eq {lengths : List ℕ} {k length r : ℕ} (hk : lengths[k]? = some length)
    (hr : r < length) (month : ℕ) :
    monthOfOffset month lengths (totalLength (lengths.take k) + r) = (month + k, r + 1) := by
  induction lengths generalizing k month with
  | nil => cases hk
  | cons first rest ih =>
    cases k with
    | zero =>
      cases hk
      simp [monthOfOffset, totalLength, hr]
    | succ k =>
      have hnot : ¬ first + totalLength (rest.take k) + r < first := by omega
      have hrest : first + totalLength (rest.take k) + r - first =
          totalLength (rest.take k) + r := by
        omega
      rw [List.take_succ_cons, totalLength_cons, monthOfOffset, if_neg hnot, hrest,
        ih hk (month + 1), Nat.add_right_comm, Nat.add_assoc]

theorem totalLength_take_le (lengths : List ℕ) (k : ℕ) :
    totalLength (lengths.take k) ≤ totalLength lengths := by
  induction lengths generalizing k with
  | nil => simp
  | cons first rest ih =>
    cases k with
    | zero => exact Nat.zero_le _
    | succ k =>
      rw [List.take_succ_cons, totalLength_cons, totalLength_cons]
      exact Nat.add_le_add_left (ih k) first

/-- A month is over before any later one begins. -/
theorem totalLength_take_lt {lengths : List ℕ} {k length m : ℕ} (hk : lengths[k]? = some length)
    (h : k < m) : totalLength (lengths.take k) + length ≤ totalLength (lengths.take m) := by
  induction lengths generalizing k m with
  | nil => cases hk
  | cons first rest ih =>
    obtain ⟨m, rfl⟩ : ∃ n, m = n + 1 := ⟨m - 1, by omega⟩
    rw [List.take_succ_cons, totalLength_cons]
    cases k with
    | zero =>
      cases hk
      simp [totalLength]
    | succ k =>
      rw [List.take_succ_cons, totalLength_cons]
      have := ih hk (Nat.lt_of_succ_lt_succ h)
      omega

/-! ## Dates -/

namespace Date

/-- A date exists if its day lies in its month and its month in its year. -/
theorem exists?_iff (d : Date) : d.exists? = true ↔ ∃ k r length, d.month = k + 1 ∧
    d.day = r + 1 ∧ (monthLengths d.year)[k]? = some length ∧ r < length := by
  obtain ⟨year, month, day⟩ := d
  unfold exists?
  cases month with
  | zero => simp
  | succ m =>
    cases hm : (monthLengths year)[m]? with
    | none => simp [hm]
    | some length =>
      simp only [hm, Bool.and_eq_true, decide_eq_true_eq]
      constructor
      · rintro ⟨hpos, hle⟩
        exact ⟨m, day - 1, length, rfl, by omega, hm, by omega⟩
      · rintro ⟨k, r, length', hk, hr, hlength, hlt⟩
        cases hk
        rw [hm] at hlength
        cases hlength
        omega

/-- The day of a date that exists lies in the year of the date. -/
theorem toDay_in_year {d : Date} (h : d.exists? = true) :
    daysBeforeYear d.year ≤ d.toDay ∧ d.toDay < daysBeforeYear (d.year + 1) := by
  obtain ⟨k, r, length, hmonth, hday, hk, hr⟩ := d.exists?_iff.1 h
  have hover := totalLength_take_lt hk (show k < k + 1 by omega)
  have htotal := totalLength_take_le (monthLengths d.year) (k + 1)
  rw [daysBeforeYear_succ]
  unfold toDay
  rw [hmonth, hday, Nat.add_sub_cancel, Nat.add_sub_cancel]
  omega

theorem ofDay_toDay {d : Date} (h : d.exists? = true) : ofDay d.toDay = d := by
  obtain ⟨hlow, hhigh⟩ := toDay_in_year h
  obtain ⟨k, r, length, hmonth, hday, hk, hr⟩ := d.exists?_iff.1 h
  have hoffset : (d.toDay - daysBeforeYear d.year).toNat =
      totalLength ((monthLengths d.year).take k) + r := by
    unfold toDay
    rw [hmonth, hday, Nat.add_sub_cancel, Nat.add_sub_cancel]
    omega
  obtain ⟨year, month, day⟩ := d
  unfold ofDay
  dsimp only at *
  rw [yearOfDay_eq hlow hhigh, hoffset, monthOfOffset_eq hk hr, hmonth, hday, Nat.add_comm 1 k]

/-- Every day has a date. -/
theorem exists_date (day : ℤ) : ∃ d : Date, d.exists? = true ∧ d.toDay = day := by
  obtain ⟨hlow, hhigh⟩ := yearOfDay_spec day
  rw [daysBeforeYear_succ] at hhigh
  obtain ⟨k, r, length, hk, hr, hoffset⟩ := exists_month
    (show (day - daysBeforeYear (yearOfDay day)).toNat <
      totalLength (monthLengths (yearOfDay day)) by omega)
  refine ⟨⟨yearOfDay day, k + 1, r + 1⟩, (exists?_iff _).2 ⟨k, r, length, rfl, rfl, hk, hr⟩, ?_⟩
  unfold toDay
  dsimp only
  rw [Nat.add_sub_cancel, Nat.add_sub_cancel]
  omega

theorem toDay_ofDay (day : ℤ) : (ofDay day).toDay = day := by
  obtain ⟨d, hd, rfl⟩ := exists_date day
  rw [ofDay_toDay hd]

theorem exists?_ofDay (day : ℤ) : (ofDay day).exists? = true := by
  obtain ⟨d, hd, rfl⟩ := exists_date day
  rwa [ofDay_toDay hd]

theorem length_le_31 {year : ℤ} {k length : ℕ} (h : (monthLengths year)[k]? = some length) :
    k < 12 ∧ length ≤ 31 := by
  obtain ⟨hlt, hlength⟩ := List.getElem?_eq_some_iff.1 h
  have hall : ∀ length ∈ monthLengths year, length ≤ 31 := by
    unfold monthLengths
    split <;> decide
  exact ⟨hlt, hall length (hlength ▸ List.getElem_mem hlt)⟩

/-- Months and days have two digits. -/
theorem month_day_lt {d : Date} (h : d.exists? = true) : d.month < 100 ∧ d.day < 100 := by
  obtain ⟨k, r, length, hmonth, hday, hk, hr⟩ := d.exists?_iff.1 h
  have := length_le_31 hk
  omega

/-! ## Order -/

/-- A date comes before another one. -/
def Before (d e : Date) : Prop :=
  d.year < e.year ∨ d.year = e.year ∧ (d.month < e.month ∨ d.month = e.month ∧ d.day < e.day)

theorem before_trichotomy (d e : Date) : d.Before e ∨ d = e ∨ e.Before d := by
  obtain ⟨year, month, day⟩ := d
  obtain ⟨year', month', day'⟩ := e
  simp only [Before, Date.mk.injEq]
  omega

theorem toDay_lt_of_before {d e : Date} (hd : d.exists? = true) (he : e.exists? = true)
    (h : d.Before e) : d.toDay < e.toDay := by
  rcases h with hyear | ⟨hyear, h⟩
  · have := daysBeforeYear_mono (show d.year + 1 ≤ e.year from hyear)
    have := (toDay_in_year hd).2
    have := (toDay_in_year he).1
    omega
  · obtain ⟨k, r, length, hmonth, hday, hk, hr⟩ := d.exists?_iff.1 hd
    obtain ⟨k', r', length', hmonth', hday', hk', hr'⟩ := e.exists?_iff.1 he
    unfold toDay
    rw [hmonth, hday, hmonth', hday', Nat.add_sub_cancel, Nat.add_sub_cancel, Nat.add_sub_cancel,
      Nat.add_sub_cancel, ← hyear]
    rcases h with h | ⟨h, h'⟩
    · have := totalLength_take_lt hk (show k < k' by omega)
      omega
    · obtain rfl : k = k' := by omega
      omega

/-- A later day has a later date. -/
theorem before_ofDay {day later : ℤ} (h : day < later) : (ofDay day).Before (ofDay later) := by
  rcases before_trichotomy (ofDay day) (ofDay later) with hbefore | heq | hbefore
  · exact hbefore
  · have hday := congrArg toDay heq
    rw [toDay_ofDay, toDay_ofDay] at hday
    omega
  · have hlt := toDay_lt_of_before (exists?_ofDay _) (exists?_ofDay _) hbefore
    rw [toDay_ofDay, toDay_ofDay] at hlt
    omega

end Date

end KeyAccess.Time
