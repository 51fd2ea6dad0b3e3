-- The laws of written instants. In the years of four digits an instant is written as a row of
-- numbers of fixed width. Such rows stand in the order of their numbers, and the numbers stand in
-- the order of the instants, down to the millisecond. A leap second comes after the second before
-- it and before the next minute.
import Mathlib
import KeyAccess.Time.Instant
import KeyAccess.Proofs.Decimal.IntegerText
import KeyAccess.Proofs.Time.Civil

namespace KeyAccess

/-! ## Bytes -/

/-- The bytes of a text in UTF-8. -/
def Text.bytes (s : String) : List UInt8 := s.toByteArray.data.toList

namespace Text

theorem bytes_ofList {cs : List Char} (h : ∀ c ∈ cs, c.toNat < 128) :
    bytes (String.ofList cs) = cs.map fun c => UInt8.ofNat c.toNat := by
  unfold bytes
  rw [String.toByteArray_ofList, List.utf8Encode, List.toList_data_toByteArray]
  induction cs with
  | nil => rfl
  | cons c cs ih =>
    rw [List.forall_mem_cons] at h
    have hone : String.utf8EncodeChar c = [UInt8.ofNat c.toNat] := by
      unfold String.utf8EncodeChar
      exact if_pos (Nat.le_of_lt_succ h.1)
    rw [List.flatMap_cons, hone, ih h.2]
    rfl

/-- ASCII texts have their bytes in the order of their characters. -/
theorem bytes_lt {cs ds : List Char} (hc : ∀ c ∈ cs, c.toNat < 128) (hd : ∀ d ∈ ds, d.toNat < 128)
    (h : cs < ds) : bytes (String.ofList cs) < bytes (String.ofList ds) := by
  rw [bytes_ofList hc, bytes_ofList hd]
  induction h with
  | nil => exact List.Lex.nil
  | @cons c cs ds _ ih =>
    rw [List.forall_mem_cons] at hc hd
    exact List.Lex.cons (ih hc.2 hd.2)
  | @rel c cs d ds hlt =>
    rw [List.forall_mem_cons] at hc hd
    refine List.Lex.rel ?_
    rw [UInt8.lt_iff_toNat_lt, UInt8.toNat_ofNat_of_lt' (hc.1.trans (by decide)),
      UInt8.toNat_ofNat_of_lt' (hd.1.trans (by decide))]
    exact hlt

end Text

namespace Time

open Decimal

/-! ## Numbers of fixed width -/

@[simp]
theorem length_padded (width n : ℕ) : (padded width n).length = width := by
  induction width generalizing n with
  | zero => rfl
  | succ width ih => simp [padded, ih]

theorem isDigit_of_mem_padded {width n : ℕ} {c : Char} (h : c ∈ padded width n) :
    c.isDigit = true := by
  induction width generalizing n with
  | zero => cases h
  | succ width ih =>
    rcases List.mem_append.1 h with h | h
    · exact ih h
    · rw [List.mem_singleton.1 h]
      exact isDigit_digitChar (Nat.mod_lt n (by decide))

theorem digitsValue_padded {width n : ℕ} (h : n < 10 ^ width) :
    digitsValue (padded width n) = n := by
  induction width generalizing n with
  | zero =>
    rw [pow_zero, Nat.lt_one_iff] at h
    rw [h]
    rfl
  | succ width ih =>
    rw [pow_succ] at h
    rw [padded, digitsValue_snoc, digitValue_digitChar (Nat.mod_lt n (by decide)),
      ih (Nat.div_lt_of_lt_mul (by omega)), Nat.div_add_mod]

theorem digitChar_lt {d e : ℕ} (h : d < e) (he : e < 10) : Nat.digitChar d < Nat.digitChar e := by
  have hd : d < 10 := h.trans he
  interval_cases e <;> interval_cases d <;> decide

theorem append_lt_append {α : Type} [LT α] {a b : List α} (h : a < b) (hlen : a.length = b.length)
    (c d : List α) : a ++ c < b ++ d := by
  induction h with
  | nil => cases hlen
  | cons _ ih => exact List.Lex.cons (ih (Nat.succ.inj hlen))
  | rel hlt => exact List.Lex.rel hlt

theorem padded_lt {width n m : ℕ} (h : n < m) (hm : m < 10 ^ width) :
    padded width n < padded width m := by
  induction width generalizing n m with
  | zero =>
    rw [pow_zero] at hm
    omega
  | succ width ih =>
    rw [pow_succ] at hm
    unfold padded
    rcases (Nat.div_le_div_right h.le : n / 10 ≤ m / 10).lt_or_eq with hlt | heq
    · exact append_lt_append (ih hlt (by omega)) (by simp) _ _
    · rw [heq]
      exact List.append_left_lt (List.Lex.rel
        (digitChar_lt (by omega) (Nat.mod_lt m (by decide))))

/-! ## Rows -/

/-- Numbers of fixed width, each with its mark after it. -/
def row : List (ℕ × Char) → List ℕ → List Char
  | (width, mark) :: columns, n :: ns => padded width n ++ mark :: row columns ns
  | _, _ => []

/-- Every number fits into its column. -/
def Fit (columns : List (ℕ × Char)) (ns : List ℕ) : Prop :=
  List.Forall₂ (fun column n => n < 10 ^ column.1) columns ns

/-- Rows stand in the order of their numbers. -/
theorem row_lt {columns : List (ℕ × Char)} {ns ms : List ℕ} (hn : Fit columns ns)
    (hm : Fit columns ms) (h : ns < ms) : row columns ns < row columns ms := by
  induction hn generalizing ms with
  | nil =>
    cases hm
    exact absurd h (List.lt_irrefl _)
  | @cons column n columns ns _ _ ih =>
    cases hm with
    | @cons _ m _ ms hfit hm =>
      rcases List.cons_lt_cons_iff.1 h with hlt | ⟨rfl, hlt⟩
      · exact append_lt_append (padded_lt hlt hfit) (by simp) _ _
      · exact List.append_left_lt (List.Lex.cons (ih hm hlt))

theorem row_ascii {columns : List (ℕ × Char)} (h : ∀ column ∈ columns, column.2.toNat < 128)
    (ns : List ℕ) : ∀ c ∈ row columns ns, c.toNat < 128 := by
  induction columns generalizing ns with
  | nil => simp [row]
  | cons column columns ih =>
    rw [List.forall_mem_cons] at h
    cases ns with
    | nil => simp [row]
    | cons n ns =>
      intro c hc
      rcases List.mem_append.1 hc with hc | hc
      · obtain ⟨d, hd, rfl⟩ := exists_digitChar (isDigit_of_mem_padded hc)
        interval_cases d <;> decide
      · rcases List.mem_cons.1 hc with rfl | hc
        · exact h.1
        · exact ih h.2 ns c hc

/-! ## Instants -/

namespace Instant

/-- An instant that a clock shows. Less than a second is added to a second, but to the last one of a
minute a leap second may be added. -/
structure OnClock (t : Instant) : Prop where
  nanos_lt : t.nanos < 2000000000
  leap : 1000000000 ≤ t.nanos → t.seconds % 60 = 59

/-- The year has four digits and no sign. -/
def FourDigitYear (t : Instant) : Prop := 0 ≤ t.date.year ∧ t.date.year ≤ 9999

instance (t : Instant) : Decidable t.FourDigitYear := inferInstanceAs (Decidable (_ ∧ _))

/-- Instants are ordered by their seconds, and within a second by what is added to it. -/
instance : LE Instant where
  le t u := t.seconds < u.seconds ∨ t.seconds = u.seconds ∧ t.nanos ≤ u.nanos

/-- Two instants fall in the same millisecond. A leap second has milliseconds of its own. -/
def SameMillisecond (t u : Instant) : Prop :=
  t.seconds = u.seconds ∧ t.nanos / 1000000 = u.nanos / 1000000

/-- The numbers of a written instant. -/
def numbers (t : Instant) : List ℕ :=
  [t.date.year.toNat, t.date.month, t.date.day, t.secondOfDay / 3600, t.secondOfDay / 60 % 60,
    t.second, t.millisecond]

/-- The columns of a written instant. -/
def columns : List (ℕ × Char) :=
  [(4, '-'), (2, '-'), (2, 'T'), (2, ':'), (2, ':'), (2, '.'), (3, 'Z')]

variable {t u : Instant}

theorem chars_eq_row (h : t.FourDigitYear) : t.chars = row columns t.numbers := by
  have hyear : yearText t.date.year = padded 4 t.date.year.toNat := if_pos h
  simp [chars, hyear, columns, numbers, row]

theorem secondOfDay_lt (t : Instant) : t.secondOfDay < 86400 := by
  unfold secondOfDay
  omega

theorem second_le (t : Instant) : t.second ≤ 60 := by
  unfold second
  split <;> omega

theorem millisecond_lt (t : Instant) : t.millisecond < 1000 := by
  unfold millisecond
  omega

theorem fit_numbers (h : t.FourDigitYear) : Fit columns t.numbers := by
  obtain ⟨hlow, hhigh⟩ := h
  obtain ⟨hmonth, hday⟩ := Date.month_day_lt (Date.exists?_ofDay (t.seconds / 86400 + epochDay))
  have hsecondOfDay := t.secondOfDay_lt
  have hsecond := t.second_le
  have hmillisecond := t.millisecond_lt
  unfold Fit columns numbers
  refine .cons ?_ (.cons hmonth (.cons hday (.cons ?_ (.cons ?_ (.cons ?_ (.cons ?_ .nil))))))
  all_goals dsimp only; omega

/-- The numbers stand in the order of the instants, down to the millisecond. -/
theorem numbers_lt (ht : t.OnClock) (hu : u.OnClock) (hty : t.FourDigitYear)
    (huy : u.FourDigitYear) (h : t.seconds < u.seconds ∨
      t.seconds = u.seconds ∧ t.nanos / 1000000 < u.nanos / 1000000) : t.numbers < u.numbers := by
  have htleap := ht.leap
  have huleap := hu.leap
  have htnanos := ht.nanos_lt
  have hunanos := hu.nanos_lt
  unfold numbers
  simp only [List.cons_lt_cons_iff, List.lt_irrefl, and_false, or_false]
  rcases (show t.seconds / 86400 ≤ u.seconds / 86400 by omega).lt_or_eq with hday | hday
  · have hbefore : t.date.Before u.date := Date.before_ofDay (by omega)
    unfold Date.Before at hbefore
    obtain ⟨hlow, -⟩ := hty
    obtain ⟨hlow', -⟩ := huy
    omega
  · have hdate : t.date = u.date := by
      unfold date
      rw [hday]
    refine Or.inr ⟨by rw [hdate], Or.inr ⟨by rw [hdate], Or.inr ⟨by rw [hdate], ?_⟩⟩⟩
    unfold secondOfDay second millisecond secondOfDay
    split <;> split <;> omega

theorem text_lt (ht : t.OnClock) (hu : u.OnClock) (hty : t.FourDigitYear) (huy : u.FourDigitYear)
    (h : t.seconds < u.seconds ∨
      t.seconds = u.seconds ∧ t.nanos / 1000000 < u.nanos / 1000000) :
    Text.bytes t.text < Text.bytes u.text := by
  unfold text
  rw [chars_eq_row hty, chars_eq_row huy]
  exact Text.bytes_lt (row_ascii (by decide) _) (row_ascii (by decide) _)
    (row_lt (fit_numbers hty) (fit_numbers huy) (numbers_lt ht hu hty huy h))

/-- The text says nothing about parts of a millisecond. -/
theorem SameMillisecond.text_eq (h : t.SameMillisecond u) : t.text = u.text := by
  obtain ⟨hseconds, hnanos⟩ := h
  have hdate : t.date = u.date := by
    unfold date
    rw [hseconds]
  have hday : t.secondOfDay = u.secondOfDay := by
    unfold secondOfDay
    rw [hseconds]
  have hsecond : t.second = u.second := by
    unfold second
    rw [hday]
    split <;> split <;> omega
  have hmillisecond : t.millisecond = u.millisecond := by
    unfold millisecond
    omega
  unfold text chars
  rw [hdate, hday, hsecond, hmillisecond]

end Instant

end Time

end KeyAccess
