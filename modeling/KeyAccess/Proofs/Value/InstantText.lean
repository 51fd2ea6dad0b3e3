-- The laws of encoded instants. Their texts sort as the instants do, so that ranges of texts are
-- ranges of time, and every spelling of an instant becomes one text, which stays as it is.
import Mathlib
import KeyAccess.Proofs.Time.ReadBack
import KeyAccess.Value.Encoding

namespace KeyAccess

open Time

/-- The declarations under which an instant is kept as its text. -/
def AttributeType.KeepsText (declared : Option AttributeType) : Prop :=
  declared = none ∨ declared = some .string ∨ declared = some .temporal

namespace ClauseValue

variable {t u : Instant} {declared declared' : Option AttributeType}

theorem encodeAs_timestamp (h : AttributeType.KeepsText declared) (t : Instant) :
    (ClauseValue.timestamp t).encodeAs declared = .ok (.string t.text) := by
  rcases h with rfl | rfl | rfl <;> rfl

theorem encodeAs_of_read {s : String} (h : Timestamp.read s = .ok t) :
    (ClauseValue.string s).encodeAs (some .temporal) = .ok (.string t.text) := by
  change temporalValue (.string s) = _
  unfold temporalValue
  dsimp only
  rw [h]
  rfl

theorem read_of_encodeAs {s : String} {encoded : AttributeValue}
    (h : (ClauseValue.string s).encodeAs (some .temporal) = .ok encoded) :
    ∃ t, Timestamp.read s = .ok t ∧ encoded = .string t.text := by
  cases hread : Timestamp.read s with
  | ok t =>
    rw [encodeAs_of_read hread] at h
    cases h
    exact ⟨t, rfl, rfl⟩
  | error e =>
    change temporalValue (.string s) = _ at h
    unfold temporalValue at h
    dsimp only at h
    rw [hread] at h
    cases h

/-- The text of an instant is a spelling of it and becomes itself. -/
theorem encodeAs_text (ht : t.OnClock) (hyear : t.FourDigitYear) :
    (ClauseValue.string t.text).encodeAs (some .temporal) = .ok (.string t.text) := by
  rw [encodeAs_of_read (Instant.read_text ht hyear), t.sameMillisecond_toMillisecond.text_eq]

/-! ## The laws -/

/-- Encoded instants sort in the order of their bytes like the instants that they denote, and they
are equal exactly in the same millisecond. -/
theorem instant_texts_sort_like_instants (ht : t.OnClock) (hu : u.OnClock)
    (htyear : t.FourDigitYear) (huyear : u.FourDigitYear) (hle : t ≤ u)
    (hdeclared : AttributeType.KeepsText declared)
    (hdeclared' : AttributeType.KeepsText declared') : ∃ a b,
    (ClauseValue.timestamp t).encodeAs declared = .ok (.string a) ∧
      (ClauseValue.timestamp u).encodeAs declared' = .ok (.string b) ∧
      Text.bytes a ≤ Text.bytes b ∧ (a = b ↔ t.SameMillisecond u) := by
  refine ⟨t.text, u.text, encodeAs_timestamp hdeclared t, encodeAs_timestamp hdeclared' u, ?_⟩
  by_cases hsame : t.SameMillisecond u
  · rw [hsame.text_eq]
    exact ⟨List.le_refl _, iff_of_true rfl hsame⟩
  · have hearlier : t.seconds < u.seconds ∨
        t.seconds = u.seconds ∧ t.nanos / 1000000 < u.nanos / 1000000 := by
      rcases hle with hlt | ⟨heq, hnanos⟩
      · exact Or.inl hlt
      · refine Or.inr ⟨heq, lt_of_le_of_ne (Nat.div_le_div_right hnanos) fun hmillis => ?_⟩
        exact hsame ⟨heq, hmillis⟩
    have hlt := Instant.text_lt ht hu htyear huyear hearlier
    refine ⟨List.le_of_lt hlt, iff_of_false (fun heq => ?_) hsame⟩
    rw [heq] at hlt
    exact List.lt_irrefl _ hlt

/-- Half a second into the leap second at the end of the year 2016. -/
def leapSecond : Instant := ⟨1483228799, 1500000000⟩

theorem a_leap_second_sorts_before_the_new_year :
    leapSecond.OnClock ∧ leapSecond.FourDigitYear ∧ leapSecond ≤ ⟨1483228800, 0⟩ ∧ ∃ a b,
      (ClauseValue.timestamp leapSecond).encodeAs (some .temporal) = .ok (.string a) ∧
        (ClauseValue.timestamp ⟨1483228800, 0⟩).encodeAs none = .ok (.string b) ∧
        Text.bytes a ≤ Text.bytes b ∧ a ≠ b := by
  have hclock : leapSecond.OnClock := ⟨by decide, fun _ => by decide⟩
  have hyear : leapSecond.FourDigitYear := by decide +kernel
  have hle : leapSecond ≤ ⟨1483228800, 0⟩ := Or.inl (by decide)
  obtain ⟨a, b, ha, hb, hbytes, hsame⟩ := instant_texts_sort_like_instants hclock
    ⟨by decide, fun h => absurd h (by decide)⟩ hyear
    (show Instant.FourDigitYear ⟨1483228800, 0⟩ by decide +kernel) hle
    (show AttributeType.KeepsText (some .temporal) from Or.inr (Or.inr rfl))
    (show AttributeType.KeepsText none from Or.inl rfl)
  refine ⟨hclock, hyear, hle, a, b, ha, hb, hbytes, fun heq => ?_⟩
  exact absurd (hsame.1 heq).1 (by decide)

/-- A written instant is read in the same millisecond and stays as it is, every spelling becomes
such a text, and the spellings of one millisecond become the same text. -/
theorem timestamp_text_has_one_form :
    (∀ t : Instant, t.OnClock → t.FourDigitYear → ∃ text,
      (ClauseValue.timestamp t).encodeAs (some .temporal) = .ok (.string text) ∧
        (∃ u, Timestamp.read text = .ok u ∧ t.SameMillisecond u) ∧
        (ClauseValue.string text).encodeAs (some .temporal) = .ok (.string text)) ∧
    (∀ (s : String) (encoded : AttributeValue),
      (ClauseValue.string s).encodeAs (some .temporal) = .ok encoded →
        ∃ t text, Timestamp.read s = .ok t ∧ encoded = .string text ∧
          (t.FourDigitYear →
            (ClauseValue.string text).encodeAs (some .temporal) = .ok (.string text))) ∧
    ∀ (s s' : String) (t t' : Instant), Timestamp.read s = .ok t → Timestamp.read s' = .ok t' →
      t.SameMillisecond t' → ∃ text,
        (ClauseValue.string s).encodeAs (some .temporal) = .ok (.string text) ∧
          (ClauseValue.string s').encodeAs (some .temporal) = .ok (.string text) := by
  refine ⟨fun t ht hyear => ?_, fun s encoded h => ?_, fun s s' t t' h h' hsame => ?_⟩
  · exact ⟨t.text, encodeAs_timestamp (Or.inr (Or.inr rfl)) t,
      ⟨_, Instant.read_text ht hyear, t.sameMillisecond_toMillisecond⟩, encodeAs_text ht hyear⟩
  · obtain ⟨t, hread, rfl⟩ := read_of_encodeAs h
    exact ⟨t, t.text, hread, rfl, encodeAs_text (Timestamp.readChars_onClock hread)⟩
  · refine ⟨t.text, encodeAs_of_read h, ?_⟩
    rw [encodeAs_of_read h', hsame.text_eq]

theorem two_spellings_of_a_leap_second_become_one_text :
    leapSecond.OnClock ∧ leapSecond.FourDigitYear ∧ ∃ text,
      (ClauseValue.timestamp leapSecond).encodeAs (some .temporal) = .ok (.string text) ∧
        (ClauseValue.string text).encodeAs (some .temporal) = .ok (.string text) ∧
        (ClauseValue.string "2017-01-01t01:59:60.50012345678+02:00").encodeAs (some .temporal) =
          .ok (.string text) ∧
        (ClauseValue.string "2016-12-31 23:59:60.5Z").encodeAs (some .temporal) =
          .ok (.string text) := by
  have hclock : leapSecond.OnClock := ⟨by decide, fun _ => by decide⟩
  have hyear : leapSecond.FourDigitYear := by decide +kernel
  have hlong : Timestamp.read "2017-01-01t01:59:60.50012345678+02:00" =
      .ok ⟨1483228799, 1500123456⟩ := by
    decide +kernel
  have hshort : Timestamp.read "2016-12-31 23:59:60.5Z" = .ok leapSecond := by
    decide +kernel
  obtain ⟨hwritten, haccepted, hsame⟩ := timestamp_text_has_one_form
  obtain ⟨text, htext, ⟨u, hu, hmillis⟩, hself⟩ := hwritten leapSecond hclock hyear
  obtain ⟨_, hfirst, hsecond⟩ := hsame _ _ _ _ hlong hshort ⟨rfl, by decide⟩
  obtain ⟨_, hthird, hfourth⟩ := hsame _ _ _ _ hshort hu hmillis
  rw [hself] at hfourth
  cases hfourth
  rw [hthird] at hsecond
  cases hsecond
  exact ⟨hclock, hyear, text, htext, hself, hfirst, hthird⟩

end ClauseValue

end KeyAccess
