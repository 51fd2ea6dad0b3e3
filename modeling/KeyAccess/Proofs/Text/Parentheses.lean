-- The laws of parentheses in text. The parentheses of a text are paired if nowhere more are closed
-- than were opened and none stays open. Just then the text keeps to a group that it is put in: the
-- group ends with its own parenthesis, and nothing outside of the group depends on the text.
import Mathlib

namespace KeyAccess.Text

/-! ## The pure model -/

/-- At no place have more parentheses been closed than opened, and in the end all are closed. -/
structure Paired (s : String) : Prop where
  nowhere_below : ∀ start, start <+: s.toList → start.count ')' ≤ start.count '('
  all_closed : s.toList.count ')' = s.toList.count '('

/-- How many parentheses stand open after a character, with `depth` of them before it. -/
def depthAfter (depth : Nat) (c : Char) : Nat :=
  if c = '(' then depth + 1 else if c = ')' then depth - 1 else depth

/-- Whether a text closes what it opens and `depth` parentheses more, each after it was opened. -/
def pairedFrom : Nat → List Char → Bool
  | depth, [] => depth == 0
  | depth, c :: rest => (c != ')' || depth != 0) && pairedFrom (depthAfter depth c) rest

/-- What stands behind the parenthesis that closes the one before the text, where `depth` more have
been opened since that one. -/
def behindClosing : Nat → List Char → Option (List Char)
  | _, [] => none
  | depth, c :: rest =>
    if c = ')' ∧ depth = 0 then some rest else behindClosing (depthAfter depth c) rest

/-- The text outside of all parentheses, with `depth` of them open before it. Of a group only its
two parentheses are left. -/
def outside : Nat → List Char → List Char
  | _, [] => []
  | depth, c :: rest =>
    if depth = 0 ∨ depthAfter depth c = 0 then c :: outside (depthAfter depth c) rest
    else outside (depthAfter depth c) rest

theorem depthAfter_close (depth : Nat) : depthAfter depth ')' = depth - 1 := rfl

/-- More open parentheses stay open, unless a character closes one of them. -/
theorem depthAfter_add {depth : Nat} {c : Char} (h : c ≠ ')' ∨ depth ≠ 0) (more : Nat) :
    depthAfter (depth + more) c = depthAfter depth c + more := by
  unfold depthAfter
  split_ifs with hopen hclosed
  · omega
  · have := h.resolve_left (not_not_intro hclosed)
    omega
  · rfl

theorem depthAfter_other {c : Char} (hopen : c ≠ '(') (hclose : c ≠ ')') (depth : Nat) :
    depthAfter depth c = depth := by
  unfold depthAfter
  rw [if_neg hopen, if_neg hclose]

/-- A text is read on unless it closes what was not opened. -/
theorem pairedFrom_cons {depth : Nat} {c : Char} {rest : List Char} :
    pairedFrom depth (c :: rest) = true ↔
      (c ≠ ')' ∨ depth ≠ 0) ∧ pairedFrom (depthAfter depth c) rest = true := by
  rw [pairedFrom, Bool.and_eq_true, Bool.or_eq_true, bne_iff_ne, bne_iff_ne]

/-! ## Counting is reading -/

theorem pairedFrom_open (depth : Nat) (rest : List Char) :
    pairedFrom depth ('(' :: rest) = pairedFrom (depth + 1) rest := rfl

theorem pairedFrom_close_zero (rest : List Char) : pairedFrom 0 (')' :: rest) = false := rfl

theorem pairedFrom_close_succ (depth : Nat) (rest : List Char) :
    pairedFrom (depth + 1) (')' :: rest) = pairedFrom depth rest := rfl

theorem pairedFrom_other {c : Char} (hopen : c ≠ '(') (hclose : c ≠ ')') (depth : Nat)
    (rest : List Char) : pairedFrom depth (c :: rest) = pairedFrom depth rest := by
  rw [pairedFrom, depthAfter_other hopen hclose, bne_iff_ne.2 hclose, Bool.true_or, Bool.true_and]

theorem forall_prefix_cons {P : List Char → Prop} (hnil : P []) {c : Char} {cs : List Char} :
    (∀ start, start <+: c :: cs → P start) ↔ ∀ tail, tail <+: cs → P (c :: tail) := by
  constructor
  · intro h tail htail
    exact h _ (List.cons_prefix_cons.2 ⟨rfl, htail⟩)
  · intro h start hstart
    rcases List.prefix_cons_iff.1 hstart with rfl | ⟨tail, rfl, htail⟩
    · exact hnil
    · exact h tail htail

theorem pairedFrom_iff {depth : Nat} {cs : List Char} : pairedFrom depth cs = true ↔
    (∀ start, start <+: cs → start.count ')' ≤ depth + start.count '(') ∧
      cs.count ')' = depth + cs.count '(' := by
  induction cs generalizing depth with
  | nil =>
    rw [pairedFrom, beq_iff_eq]
    simp only [List.prefix_nil, forall_eq, List.count_nil]
    omega
  | cons c cs ih =>
    rw [forall_prefix_cons (by simp)]
    by_cases hopen : c = '('
    · subst hopen
      have hother : '(' ≠ ')' := by decide
      rw [pairedFrom_open, ih]
      refine and_congr (forall₂_congr fun tail _ => ?_) ?_
      all_goals
        rw [List.count_cons_self, List.count_cons_of_ne hother]
        omega
    · by_cases hclose : c = ')'
      · subst hclose
        cases depth with
        | zero =>
          rw [pairedFrom_close_zero]
          refine iff_of_false Bool.false_ne_true fun h => ?_
          -- the first character alone closes more than is open
          have hfirst := h.1 [] List.nil_prefix
          rw [List.count_cons_self, List.count_cons_of_ne hopen] at hfirst
          simp at hfirst
        | succ depth =>
          rw [pairedFrom_close_succ, ih]
          refine and_congr (forall₂_congr fun tail _ => ?_) ?_
          all_goals
            rw [List.count_cons_self, List.count_cons_of_ne hopen]
            omega
      · rw [pairedFrom_other hopen hclose, ih]
        refine and_congr (forall₂_congr fun tail _ => ?_) ?_
        all_goals rw [List.count_cons_of_ne hopen, List.count_cons_of_ne hclose]

theorem paired_iff {s : String} : Paired s ↔ pairedFrom 0 s.toList = true := by
  rw [pairedFrom_iff]
  simp only [Nat.zero_add]
  exact ⟨fun h => ⟨h.nowhere_below, h.all_closed⟩, fun h => ⟨h.1, h.2⟩⟩

instance (s : String) : Decidable (Paired s) := decidable_of_iff _ paired_iff.symm

/-! ## Text from parts -/

/-- A text that closes what it opens and some parentheses before it leaves the others open. -/
theorem pairedFrom_append {depth : Nat} {cs : List Char} (h : pairedFrom depth cs = true)
    (more : Nat) (rest : List Char) :
    pairedFrom (depth + more) (cs ++ rest) = pairedFrom more rest := by
  induction cs generalizing depth with
  | nil =>
    have hdepth : depth = 0 := by simpa [pairedFrom] using h
    rw [hdepth, Nat.zero_add, List.nil_append]
  | cons c cs ih =>
    obtain ⟨hstays, hcs⟩ := pairedFrom_cons.1 h
    rw [List.cons_append, Bool.eq_iff_iff, pairedFrom_cons, depthAfter_add hstays, ih hcs]
    exact and_iff_right (hstays.imp_right fun h => by omega)

theorem Paired.append {a b : String} (ha : Paired a) (hb : Paired b) : Paired (a ++ b) := by
  rw [paired_iff] at ha hb ⊢
  rw [String.toList_append]
  exact (pairedFrom_append ha 0 b.toList).trans hb

/-- A text that opens one parenthesis. -/
def Opens (s : String) : Prop := ∀ rest, pairedFrom 0 (s.toList ++ rest) = pairedFrom 1 rest

theorem Paired.opens {a s : String} (ha : Paired a) (h : Opens s) : Opens (a ++ s) := by
  intro rest
  rw [String.toList_append, List.append_assoc, ← h rest]
  exact pairedFrom_append (paired_iff.1 ha) 0 _

theorem Opens.append {s b : String} (h : Opens s) (hb : Paired b) : Opens (s ++ b) := by
  intro rest
  rw [String.toList_append, List.append_assoc, h]
  exact pairedFrom_append (paired_iff.1 hb) 1 rest

theorem Opens.close {s : String} (h : Opens s) : Paired (s ++ ")") := by
  rw [paired_iff, String.toList_append]
  exact h [')']

theorem paired_of_plain {s : String} (h : ∀ c ∈ s.toList, c ≠ '(' ∧ c ≠ ')') : Paired s := by
  have hopen : s.toList.count '(' = 0 := List.count_eq_zero.2 fun hmem => (h _ hmem).1 rfl
  have hclose : s.toList.count ')' = 0 := List.count_eq_zero.2 fun hmem => (h _ hmem).2 rfl
  refine ⟨fun start hstart => ?_, hclose.trans hopen.symm⟩
  have := hstart.sublist.count_le ')'
  omega

theorem Paired.intercalate {between : String} (hbetween : Paired between) {texts : List String}
    (h : ∀ t ∈ texts, Paired t) : Paired (String.intercalate between texts) := by
  induction texts with
  | nil => exact paired_of_plain (by simp)
  | cons a texts ih =>
    obtain ⟨ha, htexts⟩ := List.forall_mem_cons.1 h
    cases texts with
    | nil => rwa [String.intercalate_singleton]
    | cons b texts =>
      rw [String.intercalate_cons_cons]
      exact (ha.append hbetween).append (ih htexts)

/-! ## Groups -/

/-- A parenthesis is closed by the last character of what stands behind it exactly if all before
that character is paired. -/
theorem behindClosing_eq_nil_iff {depth : Nat} {cs : List Char} :
    behindClosing depth (cs ++ [')']) = some [] ↔ pairedFrom depth cs = true := by
  induction cs generalizing depth with
  | nil =>
    cases depth with
    | zero => simp [behindClosing, pairedFrom]
    | succ depth => simp [behindClosing, pairedFrom]
  | cons c cs ih =>
    rw [List.cons_append, behindClosing, pairedFrom_cons]
    by_cases hcloses : c = ')' ∧ depth = 0
    · simp [hcloses]
    · rw [if_neg hcloses, ih]
      exact (and_iff_right (not_and_or.1 hcloses)).symm

/-- A text that closes what it opens leaves what follows it at the place where it began. -/
theorem outside_append {depth : Nat} {cs : List Char} (h : pairedFrom depth cs = true)
    (rest : List Char) : outside depth (cs ++ rest) = outside depth cs ++ outside 0 rest := by
  induction cs generalizing depth with
  | nil =>
    have hdepth : depth = 0 := by simpa [pairedFrom] using h
    rw [hdepth]
    rfl
  | cons c cs ih =>
    rw [List.cons_append, outside, outside, ih (pairedFrom_cons.1 h).2]
    split <;> rfl

theorem outside_ne_nil (c : Char) (cs : List Char) : outside 0 (c :: cs) ≠ [] := by
  rw [outside, if_pos (Or.inl rfl)]
  exact List.cons_ne_nil _ _

/-- Nothing of a text stands outside of the group around it exactly if the text is paired. -/
theorem outside_eq_closing_iff {depth : Nat} {cs : List Char} :
    outside (depth + 1) (cs ++ [')']) = [')'] ↔ pairedFrom depth cs = true := by
  induction cs generalizing depth with
  | nil =>
    rw [List.nil_append, outside, depthAfter_close, pairedFrom, beq_iff_eq]
    cases depth <;> simp [outside]
  | cons c cs ih =>
    rw [List.cons_append, outside, pairedFrom_cons]
    by_cases hcloses : c = ')' ∧ depth = 0
    · obtain ⟨rfl, rfl⟩ := hcloses
      -- the group ends here, and the last parenthesis is left over
      obtain ⟨d, rest, hrest⟩ := List.exists_cons_of_ne_nil
        (List.append_ne_nil_of_right_ne_nil cs (List.cons_ne_nil ')' []))
      rw [hrest, if_pos (Or.inr (depthAfter_close 1))]
      simp [depthAfter_close, outside_ne_nil]
    · have hstays := not_and_or.1 hcloses
      rw [depthAfter_add hstays, if_neg (by simp), ih]
      exact (and_iff_right hstays).symm

end KeyAccess.Text
