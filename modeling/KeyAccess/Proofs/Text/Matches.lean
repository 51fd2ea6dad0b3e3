-- The law of matches. The placeholders of a text are its leftmost-longest matches: of all places
-- where a placeholder begins the first one is taken, of all ends the last one, and the search goes
-- on after it.
import Mathlib
import KeyAccess.Proofs.Text.Placeholder

namespace KeyAccess.Text

/-- A text is cut at its first placeholder, whose word goes on as long as it can. -/
structure FirstMatch (text before p after : List Char) : Prop where
  cut : text = before ++ p ++ after
  placeholder : IsPlaceholder p
  leftmost : ∀ before' p' after', text = before' ++ p' ++ after' → IsPlaceholder p' →
    before.length ≤ before'.length
  longest : ∀ p' after', text = before ++ p' ++ after' → IsPlaceholder p' → p'.length ≤ p.length

/-- The leftmost-longest matches of a text, each one sought after the one before it. -/
inductive Matches : List Char → List (List Char) → Prop
  | done {text : List Char} (h : ∀ before p after, text = before ++ p ++ after → ¬ IsPlaceholder p) :
    Matches text []
  | next {text before p after : List Char} {found : List (List Char)}
    (first : FirstMatch text before p after) (rest : Matches after found) :
    Matches text (p :: found)

/-! ## The matches are what is found -/

theorem placeholdersFrom_eq_nil {text : List Char}
    (h : ∀ before p after, text = before ++ p ++ after → ¬ IsPlaceholder p) :
    placeholdersFrom none text = [] := by
  rw [List.eq_nil_iff_forall_not_mem]
  intro p hp
  obtain ⟨hplaceholder, before, after, htext, -⟩ := standsIn_of_mem reading_none hp
  exact h before p after htext hplaceholder

theorem IsPlaceholder.snoc {p : List Char} (h : IsPlaceholder p) {c : Char}
    (hc : isWordChar c = true) : IsPlaceholder (p ++ [c]) := by
  obtain ⟨sigil, word, rfl, hsigil, hne, hword⟩ := h
  refine ⟨sigil, word ++ [c], rfl, hsigil, by simp, fun d hd => ?_⟩
  rcases List.mem_append.1 hd with hd | hd
  · exact hword d hd
  · rw [List.mem_singleton.1 hd]
    exact hc

theorem IsPlaceholder.length_pos {p : List Char} (h : IsPlaceholder p) : 0 < p.length := by
  obtain ⟨sigil, word, rfl, -⟩ := h
  exact Nat.succ_pos _

/-- No word goes on where a longest match ends. -/
theorem FirstMatch.parted {text before p after : List Char} (h : FirstMatch text before p after) :
    Parted after := by
  intro c hc
  obtain ⟨rest, rfl⟩ := List.head?_eq_some_iff.1 hc
  rw [Bool.eq_false_iff]
  intro hword
  have hlonger := h.longest (p ++ [c]) rest (by simp [h.cut]) (h.placeholder.snoc hword)
  simp at hlonger

/-- No placeholder stands before the first one. -/
theorem FirstMatch.before_silent {text before p after : List Char}
    (h : FirstMatch text before p after) : placeholdersFrom none before = [] := by
  refine placeholdersFrom_eq_nil fun front q back hbefore hq => ?_
  have hfirst := h.leftmost front q (back ++ p ++ after) (by simp [h.cut, hbefore]) hq
  have hpos := hq.length_pos
  rw [hbefore] at hfirst
  simp only [List.length_append] at hfirst
  omega

theorem Matches.eq_placeholdersFrom {text : List Char} {found : List (List Char)}
    (h : Matches text found) : found = placeholdersFrom none text := by
  induction h with
  | done h => rw [placeholdersFrom_eq_nil h]
  | @next text before p after found first _ ih =>
    obtain ⟨sigil, word, hp, hsigil, -⟩ := id first.placeholder
    have hparted : Parted (p ++ after) := by
      rw [hp]
      exact parted_cons (isWordChar_of_isSigil hsigil) _
    rw [first.cut, List.append_assoc, placeholdersFrom_append none before hparted,
      placeholdersFrom_append none p first.parted, first.before_silent,
      placeholdersFrom_placeholder first.placeholder, ← ih]
    rfl

/-! ## Every text has matches -/

/-- A character that begins no placeholder changes no match. -/
theorem Matches.cons {c : Char} {text : List Char} {found : List (List Char)}
    (hc : ∀ p after, c :: text = p ++ after → ¬ IsPlaceholder p) (h : Matches text found) :
    Matches (c :: text) found := by
  -- a placeholder in the longer text stands in the shorter one
  have hshift : ∀ {before p after}, c :: text = before ++ p ++ after → IsPlaceholder p →
      ∃ before', before = c :: before' ∧ text = before' ++ p ++ after := by
    intro before p after htext hp
    cases before with
    | nil => exact absurd hp (hc p after htext)
    | cons d before =>
      cases htext
      exact ⟨before, rfl, rfl⟩
  cases h with
  | done h =>
    refine .done fun before p after htext hp => ?_
    obtain ⟨before', -, htext⟩ := hshift htext hp
    exact h before' p after htext hp
  | @next _ before p after found first rest =>
    have hlonger : FirstMatch (c :: text) (c :: before) p after := by
      refine ⟨by rw [first.cut]; rfl, first.placeholder, fun _ p' after' htext hp' => ?_,
        fun p' after' htext hp' => ?_⟩
      · obtain ⟨before', rfl, hrest⟩ := hshift htext hp'
        exact Nat.succ_le_succ (first.leftmost before' p' after' hrest hp')
      · exact first.longest p' after' (List.cons.inj htext).2 hp'
    exact .next hlonger rest

/-- A sigil with a word after it is the first match. -/
theorem firstMatch_sigil {sigil : Char} {text : List Char} (hsigil : isSigil sigil = true)
    (hne : text.takeWhile isWordChar ≠ []) :
    FirstMatch (sigil :: text) [] (sigil :: text.takeWhile isWordChar)
      (text.dropWhile isWordChar) := by
  refine ⟨by simp, ⟨sigil, _, rfl, hsigil, hne, fun c hc => List.mem_takeWhile_imp hc⟩,
    fun _ _ _ _ _ => Nat.zero_le _, fun p' after' htext hp' => ?_⟩
  obtain ⟨_, word, rfl, -, -, hword⟩ := hp'
  obtain rfl : text = word ++ after' := (List.cons.inj htext).2
  rw [List.takeWhile_append_of_pos hword]
  simp

theorem exists_matches (text : List Char) : ∃ found, Matches text found := by
  induction hlength : text.length using Nat.strong_induction_on generalizing text with
  | _ n ih =>
    cases text with
    | nil =>
      refine ⟨[], .done fun before p after htext hp => ?_⟩
      have hpos := hp.length_pos
      simp_all
    | cons c text =>
      obtain ⟨found, hfound⟩ := ih text.length (by simp [← hlength]) text rfl
      by_cases hstart : isSigil c = true ∧ text.takeWhile isWordChar ≠ []
      · have hshorter := List.length_dropWhile_le isWordChar text
        obtain ⟨found, hrest⟩ := ih (text.dropWhile isWordChar).length
          (by rw [← hlength]; exact Nat.lt_succ_of_le hshorter) _ rfl
        exact ⟨_, .next (firstMatch_sigil hstart.1 hstart.2) hrest⟩
      · refine ⟨found, hfound.cons fun p after htext hp => hstart ?_⟩
        obtain ⟨sigil, word, rfl, hsigil, hne, hword⟩ := hp
        obtain ⟨rfl, rfl⟩ : c = sigil ∧ text = word ++ after := List.cons.inj htext
        refine ⟨hsigil, ?_⟩
        rw [List.takeWhile_append_of_pos hword]
        exact List.append_ne_nil_of_left_ne_nil hne _

/-- The placeholders of a text are its leftmost-longest matches. -/
theorem matches_iff (s : String) (found : List String) :
    Matches s.toList (found.map String.toList) ↔ found = placeholders s := by
  have hfound : Matches s.toList (placeholdersFrom none s.toList) := by
    obtain ⟨found, h⟩ := exists_matches s.toList
    rwa [← h.eq_placeholdersFrom]
  have hback : (placeholders s).map String.toList = placeholdersFrom none s.toList := by
    simp [placeholders, Function.comp_def]
  constructor
  · intro h
    rw [← hback] at hfound
    have heq := h.eq_placeholdersFrom.trans hfound.eq_placeholdersFrom.symm
    exact List.map_injective_iff.2 (fun _ _ => String.toList_inj.1) heq
  · rintro rfl
    rwa [hback]

end KeyAccess.Text
