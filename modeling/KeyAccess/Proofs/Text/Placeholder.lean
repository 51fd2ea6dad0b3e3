-- The laws of placeholders in text. A placeholder is a sigil with a word after it, and it stands in
-- a text with every character that belongs to it. Text that is put together from parts mentions
-- what its parts mention, as long as no word runs over from one part into the next.
import Mathlib
import KeyAccess.Text.Placeholder

namespace KeyAccess.Text

/-! ## The pure model -/

/-- A sigil and a word that is not empty. -/
def IsPlaceholder (p : List Char) : Prop :=
  ∃ sigil word, p = sigil :: word ∧ isSigil sigil = true ∧ word ≠ [] ∧
    ∀ c ∈ word, isWordChar c = true

/-- No word goes on at the beginning of a text. -/
def Parted (rest : List Char) : Prop := ∀ c, rest.head? = some c → isWordChar c = false

/-- A placeholder stands somewhere in a text, and it ends where its word ends there. -/
def StandsIn (p text : List Char) : Prop :=
  IsPlaceholder p ∧ ∃ before after, text = before ++ p ++ after ∧ Parted after

theorem isSigil_iff {c : Char} : isSigil c = true ↔ c = '#' ∨ c = ':' := by
  simp [isSigil]

theorem isWordChar_of_isSigil {c : Char} (h : isSigil c = true) : isWordChar c = false := by
  rcases isSigil_iff.1 h with rfl | rfl <;> decide

theorem isSigil_of_isWordChar {c : Char} (h : isWordChar c = true) : isSigil c = false := by
  rw [Bool.eq_false_iff]
  intro hsigil
  rw [isWordChar_of_isSigil hsigil] at h
  cases h

theorem parted_cons {c : Char} (h : isWordChar c = false) (rest : List Char) :
    Parted (c :: rest) := by
  intro d hd
  cases hd
  exact h

theorem isWordChar_toString {n : Nat} {c : Char} (h : c ∈ (toString n).toList) :
    isWordChar c = true := by
  rw [Nat.toString_eq_repr, Nat.toList_repr] at h
  have hdigit := Nat.isDigit_of_mem_toDigits (by decide) (by decide) h
  simp [isWordChar, Char.isAlphanum, hdigit]

/-! ## Reading on from a part -/

open placeholdersFrom (finish)

theorem finish_append (current : Option (List Char)) (found more : List (List Char)) :
    finish current (found ++ more) = finish current found ++ more := by
  unfold finish
  split <;> rfl

/-- Where no word goes on, the rest of a text is read as if it stood alone. -/
theorem placeholdersFrom_append (current : Option (List Char)) (l : List Char) {rest : List Char}
    (h : Parted rest) :
    placeholdersFrom current (l ++ rest) =
      placeholdersFrom current l ++ placeholdersFrom none rest := by
  induction l generalizing current with
  | nil =>
    cases rest with
    | nil => cases current <;> simp [placeholdersFrom, finish]
    | cons c rest =>
      have hc := h c rfl
      have hsplit := finish_append current []
      simp only [List.nil_append] at hsplit
      by_cases hsigil : isSigil c = true
      · simp only [List.nil_append, placeholdersFrom, hsigil, if_true]
        exact hsplit _
      · cases current with
        | none => simp [placeholdersFrom, finish, hsigil]
        | some word =>
          simp only [List.nil_append, placeholdersFrom, hsigil, hc, Bool.false_eq_true, if_false]
          exact hsplit _
  | cons c l ih =>
    by_cases hsigil : isSigil c = true
    · simp only [List.cons_append, placeholdersFrom, hsigil, if_true, ih, finish_append]
    · cases current with
      | none => simp [placeholdersFrom, hsigil, ih]
      | some word =>
        by_cases hc : isWordChar c = true
        · simp [placeholdersFrom, hsigil, hc, ih]
        · simp [placeholdersFrom, hsigil, hc, ih, finish_append]

theorem placeholdersFrom_word {word : List Char} (h : ∀ c ∈ word, isWordChar c = true)
    (current : List Char) :
    placeholdersFrom (some current) word = finish (some (word.reverse ++ current)) [] := by
  induction word generalizing current with
  | nil => rfl
  | cons c word ih =>
    rw [List.forall_mem_cons] at h
    have hsigil := isSigil_of_isWordChar h.1
    simp [placeholdersFrom, hsigil, h.1, ih h.2]

theorem placeholdersFrom_placeholder {p : List Char} (h : IsPlaceholder p) :
    placeholdersFrom none p = [p] := by
  obtain ⟨sigil, word, rfl, hsigil, hne, hword⟩ := h
  rw [placeholdersFrom, if_pos hsigil, placeholdersFrom_word hword]
  -- the word that is read ends in the sigil and has one more character at least
  obtain ⟨d, rest, hrev⟩ := List.exists_cons_of_ne_nil
    (show word.reverse ≠ [] by simpa using hne)
  have hback : word = (d :: rest).reverse := by rw [← hrev, List.reverse_reverse]
  rw [hrev, hback]
  cases rest <;> simp [finish]

/-! ## What is found -/

/-- What is being read: nothing, or a sigil with the first characters of a word. -/
def Reading : Option (List Char) → Prop
  | none => True
  | some word => ∃ sigil rest, word.reverse = sigil :: rest ∧ isSigil sigil = true ∧
      ∀ c ∈ rest, isWordChar c = true

theorem isPlaceholder_of_reading {c d : Char} {word : List Char}
    (h : Reading (some (c :: d :: word))) : IsPlaceholder (c :: d :: word).reverse := by
  obtain ⟨sigil, rest, hrev, hsigil, hrest⟩ := h
  refine ⟨sigil, rest, hrev, hsigil, ?_, hrest⟩
  rintro rfl
  have hlen := congrArg List.length hrev
  simp at hlen

theorem mem_finish {current : Option (List Char)} {found : List (List Char)} {p : List Char}
    (hread : Reading current) (h : p ∈ finish current found) :
    (∃ word, current = some word ∧ p = word.reverse ∧ IsPlaceholder p) ∨ p ∈ found := by
  unfold finish at h
  split at h
  · rcases List.mem_cons.1 h with rfl | h
    · exact Or.inl ⟨_, rfl, rfl, isPlaceholder_of_reading hread⟩
    · exact Or.inr h
  · exact Or.inr h

theorem StandsIn.after {p text : List Char} (h : StandsIn p text) (before : List Char) :
    StandsIn p (before ++ text) := by
  obtain ⟨hp, front, back, rfl, hback⟩ := h
  exact ⟨hp, before ++ front, back, by simp, hback⟩

theorem reading_none : Reading none := trivial

theorem standsIn_of_mem {current : Option (List Char)} {l p : List Char} (hread : Reading current)
    (h : p ∈ placeholdersFrom current l) : StandsIn p ((current.getD []).reverse ++ l) := by
  induction l generalizing current with
  | nil =>
    rcases mem_finish hread h with ⟨word, rfl, rfl, hp⟩ | h
    · exact ⟨hp, [], [], by simp, by simp [Parted]⟩
    · cases h
  | cons c l ih =>
    unfold placeholdersFrom at h
    -- a word that is finished here stands before `c`
    have hhere : ∀ {found : List (List Char)}, isWordChar c = false → p ∈ finish current found →
        StandsIn p ((current.getD []).reverse ++ c :: l) ∨ p ∈ found := by
      intro found hc hmem
      rcases mem_finish hread hmem with ⟨word, rfl, rfl, hp⟩ | hmem
      · exact Or.inl ⟨hp, [], c :: l, by simp, parted_cons hc l⟩
      · exact Or.inr hmem
    split at h
    · rename_i hsigil
      rcases hhere (isWordChar_of_isSigil hsigil) h with hstands | h
      · exact hstands
      · have hread' : Reading (some [c]) := ⟨c, [], rfl, hsigil, by simp⟩
        exact (ih hread' h).after _
    · cases current with
      | none => exact (ih reading_none h).after [c]
      | some word =>
        dsimp only at h
        split at h
        · rename_i hc
          obtain ⟨sigil, rest, hrev, hsigil, hword⟩ := hread
          have hread' : Reading (some (c :: word)) := by
            refine ⟨sigil, rest ++ [c], by simp [hrev], hsigil, fun d hd => ?_⟩
            rcases List.mem_append.1 hd with hd | hd
            · exact hword d hd
            · rw [List.mem_singleton.1 hd]
              exact hc
          simpa using ih hread' h
        · rename_i hc
          rcases hhere (by simpa using hc) h with hstands | h
          · exact hstands
          · have hrest := (ih reading_none h).after (word.reverse ++ [c])
            simpa using hrest

/-- The placeholders that are found in a text are those that stand in it. -/
theorem mem_placeholders_iff (s p : String) :
    p ∈ placeholders s ↔ StandsIn p.toList s.toList := by
  unfold placeholders
  rw [List.mem_map]
  constructor
  · rintro ⟨q, hq, rfl⟩
    simpa using standsIn_of_mem reading_none hq
  · rintro ⟨hp, before, after, htext, hafter⟩
    refine ⟨p.toList, ?_, String.ofList_toList⟩
    obtain ⟨sigil, word, hcons, hsigil, -⟩ := id hp
    have hparted : Parted (p.toList ++ after) := by
      rw [hcons]
      exact parted_cons (isWordChar_of_isSigil hsigil) _
    rw [htext, List.append_assoc, placeholdersFrom_append none before hparted,
      placeholdersFrom_append none p.toList hafter, placeholdersFrom_placeholder hp]
    simp

/-! ## Text from parts -/

theorem placeholders_placeholder {p : String} (h : IsPlaceholder p.toList) :
    placeholders p = [p] := by
  unfold placeholders
  rw [placeholdersFrom_placeholder h, List.map_singleton, String.ofList_toList]

/-- A text that mentions nothing, also not together with what stands after it. -/
def Silent (s : String) : Prop :=
  ∀ rest, placeholdersFrom none (s.toList ++ rest) = placeholdersFrom none rest

/-- A silent text that ends every word before it. -/
structure Parts (s : String) : Prop where
  parted : ∀ rest, Parted (s.toList ++ rest)
  silent : Silent s

theorem Silent.placeholders_append {s : String} (h : Silent s) (t : String) :
    placeholders (s ++ t) = placeholders t := by
  unfold placeholders
  rw [String.toList_append, h]

theorem Parts.placeholders_append {s : String} (h : Parts s) (a b : String) :
    placeholders (a ++ s ++ b) = placeholders a ++ placeholders b := by
  unfold placeholders
  rw [String.toList_append, String.toList_append, List.append_assoc,
    placeholdersFrom_append none _ (h.parted _), h.silent, List.map_append]

theorem Parts.placeholders_end {s : String} (h : Parts s) (a : String) :
    placeholders (a ++ s) = placeholders a := by
  have happend := h.placeholders_append a ""
  have hnil : placeholders "" = [] := rfl
  rwa [String.append_empty, hnil, List.append_nil] at happend

theorem Parts.placeholders_intercalate {s : String} (h : Parts s) (texts : List String) :
    placeholders (String.intercalate s texts) = texts.flatMap placeholders := by
  induction texts with
  | nil => rfl
  | cons a texts ih =>
    cases texts with
    | nil => simp
    | cons b texts =>
      rw [String.intercalate_cons_cons, h.placeholders_append, ih]
      rfl

end KeyAccess.Text
