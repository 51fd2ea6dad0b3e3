-- The laws of integers in text. Digits denote a number by their places, with or without a sign.
-- An integer is read exactly as its text denotes it, and a numeral that is written denotes the
-- integer it was written for.
import Mathlib
import KeyAccess.Decimal.Numeral
import KeyAccess.Decimal.Plain

namespace KeyAccess.Decimal

/-! ## What digits denote -/

/-- Decimal digits, one or more, and the number that they denote. -/
inductive Digits : List Char → ℕ → Prop
  | single {d : ℕ} (hd : d < 10) : Digits [Nat.digitChar d] d
  | snoc {digits : List Char} {n d : ℕ} (h : Digits digits n) (hd : d < 10) :
    Digits (digits ++ [Nat.digitChar d]) (10 * n + d)

/-- An optional sign and digits, and the integer that they denote. -/
inductive Denotes : List Char → ℤ → Prop
  | bare {digits : List Char} {n : ℕ} (h : Digits digits n) : Denotes digits n
  | plus {digits : List Char} {n : ℕ} (h : Digits digits n) : Denotes ('+' :: digits) n
  | minus {digits : List Char} {n : ℕ} (h : Digits digits n) : Denotes ('-' :: digits) (-n)

/-! ## Signs -/

/-- The integer with a sign and a magnitude. -/
def signedInt (negative : Bool) (n : ℕ) : ℤ := if negative then -(n : ℤ) else n

theorem abs_signedInt (negative : Bool) (n : ℕ) : |signedInt negative n| = n := by
  cases negative <;> simp [signedInt]

theorem abs_signedInt_sub (negative : Bool) (n m : ℕ) :
    |signedInt negative n - signedInt negative m| = |(n : ℤ) - m| := by
  cases negative
  · rfl
  · rw [← abs_neg]
    congr 1
    simp only [signedInt, if_true]
    ring

theorem natCast_dvd_signedInt {k : ℕ} (negative : Bool) {n : ℕ} (h : k ∣ n) :
    (k : ℤ) ∣ signedInt negative n := by
  cases negative
  · exact Int.natCast_dvd_natCast.2 h
  · exact (Int.natCast_dvd_natCast.2 h).neg_right

/-! ## Digits -/

theorem isDigit_digitChar {d : ℕ} (hd : d < 10) : (Nat.digitChar d).isDigit = true := by
  interval_cases d <;> rfl

theorem digitValue_digitChar {d : ℕ} (hd : d < 10) : digitValue (Nat.digitChar d) = d := by
  interval_cases d <;> rfl

theorem exists_digitChar {c : Char} (h : c.isDigit = true) : ∃ d < 10, c = Nat.digitChar d := by
  have hrange : 48 ≤ c.toNat ∧ c.toNat ≤ 57 := by
    simpa [Char.isDigit, UInt32.le_iff_toNat_le] using h
  refine ⟨c.toNat - 48, by omega, ?_⟩
  rw [← Char.ofNat_toNat c]
  obtain ⟨hlow, hhigh⟩ := hrange
  interval_cases c.toNat <;> rfl

theorem digitsValue_snoc (digits : List Char) (c : Char) :
    digitsValue (digits ++ [c]) = 10 * digitsValue digits + digitValue c := by
  simp [digitsValue]

theorem Digits.ne_nil {digits : List Char} {n : ℕ} (h : Digits digits n) : digits ≠ [] := by
  cases h <;> simp

theorem Digits.isDigit {digits : List Char} {n : ℕ} (h : Digits digits n) :
    ∀ c ∈ digits, c.isDigit = true := by
  induction h with
  | single hd => simpa using isDigit_digitChar hd
  | snoc _ hd ih =>
    intro c hc
    rcases List.mem_append.1 hc with hc | hc
    · exact ih c hc
    · rw [List.mem_singleton.1 hc]
      exact isDigit_digitChar hd

theorem Digits.digitsValue_eq {digits : List Char} {n : ℕ} (h : Digits digits n) :
    digitsValue digits = n := by
  induction h with
  | single hd => simpa [digitsValue] using digitValue_digitChar hd
  | snoc _ hd ih => rw [digitsValue_snoc, ih, digitValue_digitChar hd]

theorem digits_of_isDigit {digits : List Char} (hne : digits ≠ [])
    (h : ∀ c ∈ digits, c.isDigit = true) : Digits digits (digitsValue digits) := by
  induction digits using List.reverseRecOn with
  | nil => exact absurd rfl hne
  | append_singleton digits c ih =>
    obtain ⟨d, hd, rfl⟩ := exists_digitChar (h c (by simp))
    rw [digitsValue_snoc, digitValue_digitChar hd]
    by_cases hnil : digits = []
    · subst hnil
      simpa [digitsValue] using Digits.single hd
    · exact .snoc (ih hnil fun c hc => h c (by simp [hc])) hd

/-! ## Reading -/

variable {digits text : List Char} {n : ℕ} {i : ℤ}

theorem takeSign_of_isDigit (h : ∀ c ∈ text, c.isDigit = true) : takeSign text = (false, text) := by
  unfold takeSign
  split
  · exact absurd (h '-' (by simp)) (by decide)
  · exact absurd (h '+' (by simp)) (by decide)
  · rfl

/-- A text denotes an integer exactly if digits come after its sign, and it is the one they denote
with the sign. -/
theorem denotes_iff_takeSign : Denotes text i ↔ ∃ negative digits n,
    takeSign text = (negative, digits) ∧ Digits digits n ∧
      i = signedInt negative n := by
  constructor
  · rintro (h | h | h)
    · exact ⟨false, _, _, takeSign_of_isDigit h.isDigit, h, rfl⟩
    · exact ⟨false, _, _, rfl, h, rfl⟩
    · exact ⟨true, _, _, rfl, h, rfl⟩
  · rintro ⟨negative, digits, n, hsign, h, rfl⟩
    unfold takeSign at hsign
    split at hsign <;> cases hsign
    · exact .minus h
    · exact .plus h
    · exact .bare h

/-- Integers are read exactly as their text denotes them, at any length. -/
theorem readInt?_eq_some_iff : readInt? text = some i ↔ Denotes text i := by
  rw [denotes_iff_takeSign, readInt?]
  obtain ⟨negative, digits⟩ := takeSign text
  dsimp only
  constructor
  · intro h
    split_ifs at h with hbad hsign <;> cases h
    all_goals
      simp only [Bool.or_eq_true, List.isEmpty_iff, Bool.not_eq_true', not_or,
        Bool.not_eq_false, List.all_eq_true] at hbad
      exact ⟨negative, digits, _, rfl, digits_of_isDigit hbad.1 hbad.2, by simp [hsign, signedInt]⟩
  · rintro ⟨_, _, n, heq, h, rfl⟩
    cases heq
    have hgood : (digits.isEmpty || !digits.all Char.isDigit) = false := by
      simp [h.ne_nil, List.all_eq_true.2 h.isDigit]
    rw [hgood, h.digitsValue_eq]
    cases negative <;> rfl

theorem Denotes.unique {j : ℤ} (h : Denotes text i) (h' : Denotes text j) : i = j := by
  rw [← readInt?_eq_some_iff] at h h'
  exact Option.some.inj (h.symm.trans h')

/-- Digits after a sign are read as the binary64 number nearest to the integer they denote. -/
theorem Digits.readBinary64? {negative : Bool} (h : Digits digits n)
    (hsign : takeSign text = (negative, digits)) :
    readBinary64? text = some (Binary64.ofDecimal negative n 0) := by
  have htake : digits.takeWhile Char.isDigit = digits :=
    List.takeWhile_eq_self_iff.2 h.isDigit
  have hdrop : digits.dropWhile Char.isDigit = [] :=
    List.dropWhile_eq_nil_iff.2 h.isDigit
  have hdecimal : readDecimal? negative digits = some (Binary64.ofDecimal negative n 0) := by
    unfold readDecimal?
    simp [htake, hdrop, h.ne_nil, readPower?, h.digitsValue_eq]
  rw [Decimal.readBinary64?, hsign]
  dsimp only
  rw [hdecimal]

theorem Denotes.readBinary64? (h : Denotes text i) : ∃ negative n, i = signedInt negative n ∧
    readBinary64? text = some (Binary64.ofDecimal negative n 0) := by
  obtain ⟨negative, digits, n, hsign, hdigits, hi⟩ := denotes_iff_takeSign.1 h
  exact ⟨negative, n, hi, hdigits.readBinary64? hsign⟩

/-! ## Writing -/

theorem digits_natDigits (n : ℕ) : Digits (natDigits n) n := by
  induction n using Nat.strong_induction_on with
  | _ n ih =>
    unfold natDigits at *
    by_cases hn : n < 10
    · rw [Nat.toDigits_of_lt_base hn]
      exact .single hn
    · rw [Nat.toDigits_of_base_le (by decide) (by omega)]
      conv => rhs; rw [← Nat.div_add_mod n 10]
      exact .snoc (ih (n / 10) (by omega)) (Nat.mod_lt n (by decide))

theorem Digits.append_zeros (h : Digits digits n) (count : ℕ) :
    Digits (digits ++ List.replicate count '0') (n * 10 ^ count) := by
  induction count with
  | zero => simpa using h
  | succ count ih =>
    have hsnoc := ih.snoc (d := 0) (by decide)
    rw [List.replicate_succ', ← List.append_assoc, pow_succ, ← mul_assoc, mul_comm _ 10]
    exact hsnoc

theorem Digits.takeSign_signed (h : Digits digits n) (negative : Bool) :
    takeSign (signed negative digits) = (negative, digits) := by
  cases negative
  · exact takeSign_of_isDigit h.isDigit
  · rfl

theorem Digits.denotes_signed (h : Digits digits n) (negative : Bool) :
    Denotes (signed negative digits) (signedInt negative n) := by
  cases negative
  · exact .bare h
  · exact .minus h

theorem denotes_intNumeral (i : ℤ) : Denotes (intNumeral i) i := by
  have h := (digits_natDigits i.natAbs).denotes_signed (decide (i < 0))
  have hi : signedInt (decide (i < 0)) i.natAbs = i := by
    unfold signedInt
    split <;> rename_i hneg <;> simp only [decide_eq_true_eq] at hneg <;> omega
  rwa [hi] at h

/-- The plain numeral of a decimal without a fraction. -/
theorem Scaled.digits_plain {d : Scaled} (hc : d.coefficient ≠ 0) (hp : 0 ≤ d.power) :
    Digits d.plain (d.coefficient * 10 ^ d.power.toNat) := by
  have hdigits := digits_natDigits d.coefficient
  have hlen := List.length_pos_of_ne_nil hdigits.ne_nil
  have hplain : d.plain =
      natDigits d.coefficient ++ List.replicate d.power.toNat '0' := by
    unfold plain layOut
    simp only [hc, if_false]
    rw [if_neg (by omega), if_pos (by omega)]
    congr 2
    omega
  rw [hplain]
  exact hdigits.append_zeros _

end KeyAccess.Decimal
