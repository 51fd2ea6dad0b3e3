-- The text of terms is read back. Fixed text and placeholders become tokens one after the other,
-- and each term keeps to its own tokens, since a placeholder is one run that no neighbour joins.
import Mathlib
import KeyAccess.Request.Expression
import KeyAccess.Proofs.Clause.Fits
import KeyAccess.Proofs.Request.Reader
import KeyAccess.Proofs.Text.Placeholder

namespace KeyAccess

namespace Term

/-- The term has as many values as its operator compares with. -/
def Fits (t : Term) : Prop := t.operator.arity.allows t.valueCount = true

theorem Fits.no_value {t : Term} (h : t.Fits) (harity : t.operator.arity = .none) :
    t.valueCount = 0 := by
  simpa [Fits, harity, Arity.allows] using h

theorem Fits.one_value {t : Term} (h : t.Fits) (harity : t.operator.arity = .one) :
    t.valueCount = 1 := by
  simpa [Fits, harity, Arity.allows] using h

theorem Fits.two_values {t : Term} (h : t.Fits) (harity : t.operator.arity = .two) :
    t.valueCount = 2 := by
  simpa [Fits, harity, Arity.allows] using h

theorem Fits.some_values {t : Term} (h : t.Fits) (harity : t.operator.arity = .atLeastOne) :
    t.valueCount ≠ 0 := by
  simpa [Fits, harity, Arity.allows, Nat.one_le_iff_ne_zero] using h

end Term

theorem head_namePlaceholder (slot : Nat) :
    ∃ word, (namePlaceholder slot).toList = '#' :: word := by
  simp [namePlaceholder, reservedNames, String.toList_append]

theorem head_valuePlaceholder (slot : Nat) :
    ∃ word, (valuePlaceholder slot).toList = ':' :: word := by
  simp [valuePlaceholder, reservedValues, String.toList_append]

namespace Reader

/-! ## Runs -/

/-- No word goes on at the beginning of a text. -/
def Apart (rest : List Char) : Prop := rest.head?.map classOf ≠ some .word

theorem chunks_word {w rest : List Char} (hw : ∀ c ∈ w, classOf c = .word) (hne : w ≠ [])
    (hrest : Apart rest) : chunks (w ++ rest) = w :: chunks rest := by
  induction w with
  | nil => exact absurd rfl hne
  | cons c w ih =>
    have hc := hw c List.mem_cons_self
    rw [List.cons_append, chunks, hc]
    dsimp only
    cases w with
    | nil =>
      have hfalse : (rest.head?.map classOf == some .word) = false := by
        rw [beq_eq_false_iff_ne]
        exact hrest
      rw [List.nil_append, hfalse]
      rfl
    | cons d w =>
      have hd := hw d (by simp)
      rw [ih (fun e he => hw e (List.mem_cons_of_mem c he)) (List.cons_ne_nil d w),
        List.cons_append, List.head?_cons, Option.map_some, hd]
      rfl

theorem classOf_toString {n : Nat} {c : Char} (h : c ∈ (toString n).toList) :
    classOf c = .word := by
  simp [classOf, Text.isWordChar_toString h]

/-- A word with the number of a slot after it is one run. -/
theorem chunks_numbered {start : String} (slot : Nat) {rest : List Char}
    (hstart : start.toList.all (fun c => classOf c == .word) = true) (hne : start.toList ≠ [])
    (hrest : Apart rest) : chunks ((start ++ toString slot).toList ++ rest) =
      (start ++ toString slot).toList :: chunks rest := by
  refine chunks_word (fun c hc => ?_) ?_ hrest
  · rw [String.toList_append, List.mem_append] at hc
    rcases hc with hc | hc
    · simpa using List.all_eq_true.1 hstart c hc
    · exact classOf_toString hc
  · rw [String.toList_append]
    exact List.append_ne_nil_of_left_ne_nil hne _

theorem tokens_name (slot : Nat) {rest : List Char} (hrest : Apart rest) :
    tokens ((namePlaceholder slot).toList ++ rest) =
      .name (namePlaceholder slot) :: tokens rest := by
  have htoken : tokenOf (namePlaceholder slot).toList = .name (namePlaceholder slot) := by
    obtain ⟨l, hl⟩ := head_namePlaceholder slot
    rw [hl, tokenOf, ← hl, String.ofList_toList]
  unfold tokens
  rw [namePlaceholder, chunks_numbered slot rfl (by decide) hrest, List.map_cons,
    ← namePlaceholder, htoken]

theorem tokens_value (slot : Nat) {rest : List Char} (hrest : Apart rest) :
    tokens ((valuePlaceholder slot).toList ++ rest) =
      .value (valuePlaceholder slot) :: tokens rest := by
  have htoken : tokenOf (valuePlaceholder slot).toList = .value (valuePlaceholder slot) := by
    obtain ⟨l, hl⟩ := head_valuePlaceholder slot
    rw [hl, tokenOf, ← hl, String.ofList_toList]
  unfold tokens
  rw [valuePlaceholder, chunks_numbered slot rfl (by decide) hrest, List.map_cons,
    ← valuePlaceholder, htoken]

/-! ## Terms -/

/-- The tokens of values, with a token between any two of them. -/
def separated (between : Token) (values : List String) : List Token :=
  (values.map Token.value).intersperse between

/-- The tokens that the text of a term should have. -/
def termTokens (t : Term) : List Token :=
  let name := Token.name (namePlaceholder t.attributeSlot)
  match t.operator with
  | .eq | .ne | .lt | .le | .gt | .ge =>
    name :: .comparison t.operator :: separated .comma t.valueTexts
  | .between => name :: .keyword .between :: separated (.keyword .and) t.valueTexts
  | .isIn => name :: .keyword .isIn :: .opening :: (separated .comma t.valueTexts ++ [.closing])
  | .beginsWith =>
    .keyword .beginsWith :: .opening :: name :: .comma ::
      (separated .comma t.valueTexts ++ [.closing])
  | .contains =>
    .keyword .contains :: .opening :: name :: .comma ::
      (separated .comma t.valueTexts ++ [.closing])
  | .notContains =>
    .keyword .not :: .keyword .contains :: .opening :: name :: .comma ::
      (separated .comma t.valueTexts ++ [.closing])
  | .null => [.keyword .absent, .opening, name, .closing]
  | .notNull => [.keyword .present, .opening, name, .closing]

theorem apart_cons {c : Char} (hc : classOf c ≠ .word) (rest : List Char) : Apart (c :: rest) := by
  intro h
  exact hc (Option.some.inj h)

/-- A fixed text becomes the same tokens whatever stands after it. -/
def Becomes (text : String) (found : List Token) : Prop :=
  ∀ rest, tokens (text.toList ++ rest) = found ++ tokens rest

/-- A fixed text that no word before it joins. -/
def Separates (text : String) (found : List Token) : Prop :=
  (∀ rest, Apart (text.toList ++ rest)) ∧ Becomes text found

theorem separates_comma : Separates ", " [.comma] :=
  ⟨fun _ => apart_cons (by decide) _, fun _ => rfl⟩

theorem separates_closing : Separates ")" [.closing] :=
  ⟨fun _ => apart_cons (by decide) _, fun _ => rfl⟩

theorem separates_and : Separates " AND " [.keyword .and] :=
  ⟨fun _ => apart_cons (by decide) _, fun _ => rfl⟩

/-- Values with the same fixed text between any two of them. -/
theorem tokens_values {between : String} {token : Token} (hbetween : Separates between [token])
    (slots : List Nat) (hne : slots ≠ []) {rest : List Char} (hrest : Apart rest) :
    tokens ((String.intercalate between (slots.map valuePlaceholder)).toList ++ rest) =
      separated token (slots.map valuePlaceholder) ++ tokens rest := by
  induction slots with
  | nil => exact absurd rfl hne
  | cons slot slots ih =>
    cases slots with
    | nil =>
      rw [List.map_singleton, String.intercalate_singleton]
      exact tokens_value slot hrest
    | cons next slots =>
      have hstep := ih (List.cons_ne_nil next slots)
      simp only [List.map_cons] at hstep ⊢
      rw [String.intercalate_cons_cons, String.toList_append, String.toList_append,
        List.append_assoc, List.append_assoc, tokens_value slot (hbetween.1 _), hbetween.2, hstep]
      rfl

/-- A name, a comparison and a value. -/
theorem tokens_comparison {symbol : String} {operator : ComparisonOperator}
    (hsymbol : Separates symbol [.comparison operator]) (slot first : Nat) {rest : List Char}
    (hrest : Apart rest) :
    tokens ((namePlaceholder slot).toList ++ (symbol.toList ++
        ((valuePlaceholder first).toList ++ rest))) =
      .name (namePlaceholder slot) :: .comparison operator :: .value (valuePlaceholder first) ::
        tokens rest := by
  rw [tokens_name slot (hsymbol.1 _), hsymbol.2, List.singleton_append, tokens_value first hrest]

/-- What stands in the parentheses after the name of a function with a name and a value. -/
theorem tokens_arguments (slot first : Nat) (rest : List Char) :
    tokens ((namePlaceholder slot).toList ++ (", ".toList ++
        ((valuePlaceholder first).toList ++ (")".toList ++ rest)))) =
      .name (namePlaceholder slot) :: .comma :: .value (valuePlaceholder first) :: .closing ::
        tokens rest := by
  rw [tokens_name slot (separates_comma.1 _), separates_comma.2, List.singleton_append,
    tokens_value first (separates_closing.1 _), separates_closing.2, List.singleton_append]

theorem tokens_argument (slot : Nat) (rest : List Char) :
    tokens ((namePlaceholder slot).toList ++ (")".toList ++ rest)) =
      .name (namePlaceholder slot) :: .closing :: tokens rest := by
  rw [tokens_name slot (separates_closing.1 _), separates_closing.2, List.singleton_append]

/-- The text of a term becomes the tokens of the term, whatever stands apart after it. -/
theorem tokens_term {t : Term} (hfit : t.Fits) {rest : List Char} (hrest : Apart rest) :
    tokens (t.text.toList ++ rest) = termTokens t ++ tokens rest := by
  obtain ⟨operator, slot, first, count⟩ := t
  cases operator
  case eq | ne | lt | le | gt | ge =>
    obtain rfl : count = 1 := hfit.one_value rfl
    simp only [Term.text, Term.valueTexts, List.range'_one, List.map_singleton,
      String.intercalate_singleton, toString, String.toList_append, List.append_assoc]
    refine tokens_comparison ?_ slot first hrest
    exact ⟨fun _ => apart_cons (by decide) _, fun _ => rfl⟩
  case beginsWith =>
    obtain rfl : count = 1 := hfit.one_value rfl
    simp only [Term.text, Term.valueTexts, List.range'_one, List.map_singleton,
      String.intercalate_singleton, toString, String.toList_append, List.append_assoc]
    have hcall : Becomes "begins_with(" [.keyword .beginsWith, .opening] := fun _ => rfl
    rw [hcall, tokens_arguments]
    rfl
  case contains =>
    obtain rfl : count = 1 := hfit.one_value rfl
    simp only [Term.text, Term.valueTexts, List.range'_one, List.map_singleton,
      String.intercalate_singleton, toString, String.toList_append, List.append_assoc]
    have hcall : Becomes "contains(" [.keyword .contains, .opening] := fun _ => rfl
    rw [hcall, tokens_arguments]
    rfl
  case notContains =>
    obtain rfl : count = 1 := hfit.one_value rfl
    simp only [Term.text, Term.valueTexts, List.range'_one, List.map_singleton,
      String.intercalate_singleton, toString, String.toList_append, List.append_assoc]
    have hcall : Becomes "NOT contains(" [.keyword .not, .keyword .contains, .opening] :=
      fun _ => rfl
    rw [hcall, tokens_arguments]
    rfl
  case null =>
    simp only [Term.text, toString, String.toList_append, List.append_assoc]
    have hcall : Becomes "attribute_not_exists(" [.keyword .absent, .opening] := fun _ => rfl
    rw [hcall, tokens_argument]
    rfl
  case notNull =>
    simp only [Term.text, toString, String.toList_append, List.append_assoc]
    have hcall : Becomes "attribute_exists(" [.keyword .present, .opening] := fun _ => rfl
    rw [hcall, tokens_argument]
    rfl
  case between =>
    obtain rfl : count = 2 := hfit.two_values rfl
    have hbetween : Separates " BETWEEN " [.keyword .between] :=
      ⟨fun _ => apart_cons (by decide) _, fun _ => rfl⟩
    have hvalues := tokens_values separates_and (List.range' first 2) (List.cons_ne_nil _ _) hrest
    simp only [Term.text, Term.valueTexts, toString, String.toList_append, List.append_assoc]
    rw [tokens_name slot (hbetween.1 _), hbetween.2, hvalues]
    rfl
  case isIn =>
    have hslots : List.range' first count ≠ [] := by
      simpa using hfit.some_values rfl
    have hin : Separates " IN (" [.keyword .isIn, .opening] :=
      ⟨fun _ => apart_cons (by decide) _, fun _ => rfl⟩
    have hvalues := tokens_values separates_comma _ hslots (separates_closing.1 rest)
    simp only [Term.text, Term.valueTexts, toString, String.toList_append, List.append_assoc]
    rw [tokens_name slot (hin.1 _), hin.2, hvalues, separates_closing.2]
    simp [termTokens, Term.valueTexts]

/-! ## Conjunctions -/

/-- Terms with AND between them become their tokens with AND between them. -/
theorem tokens_conjunction {terms : List Term} (hfit : ∀ t ∈ terms, t.Fits) :
    tokens (String.intercalate " AND " (terms.map Term.text)).toList =
      List.intercalate [.keyword .and] (terms.map termTokens) := by
  induction terms with
  | nil => rfl
  | cons t terms ih =>
    have ht := hfit t List.mem_cons_self
    have hrest := ih (fun u hu => hfit u (List.mem_cons_of_mem t hu))
    cases terms with
    | nil =>
      have hend : Apart [] := by
        intro h
        cases h
      have hterm := tokens_term ht hend
      have hnil : tokens [] = [] := rfl
      simpa [hnil] using hterm
    | cons u terms =>
      simp only [List.map_cons] at hrest ⊢
      rw [String.intercalate_cons_cons, String.toList_append, String.toList_append,
        List.append_assoc, tokens_term ht (separates_and.1 _), separates_and.2, hrest,
        List.intercalate_cons_cons, List.append_assoc]

/-- A token that neither joins two terms nor begins the bounds of BETWEEN. -/
def Plain (t : Token) : Prop := t ≠ .keyword .and ∧ t ≠ .keyword .between

theorem splitTerms_plain {ts : List Token} (hplain : ∀ t ∈ ts, Plain t) (pending : Bool)
    (rest : List Token) :
    splitTerms pending (ts ++ rest) = ts.foldr putFirst (splitTerms pending rest) := by
  induction ts with
  | nil => rfl
  | cons t ts ih =>
    obtain ⟨hand, hbetween⟩ := hplain t List.mem_cons_self
    rw [List.cons_append, List.foldr_cons, ← ih (fun u hu => hplain u (List.mem_cons_of_mem t hu))]
    cases pending <;> simp [splitTerms, hand]

theorem foldr_putFirst (ts first : List Token) (terms : List (List Token)) :
    ts.foldr putFirst (first :: terms) = (ts ++ first) :: terms := by
  induction ts with
  | nil => rfl
  | cons t ts ih => rw [List.foldr_cons, ih, putFirst, List.cons_append]

theorem mem_separated {between u : Token} {values : List String}
    (hu : u ∈ separated between values) : u = between ∨ ∃ v, u = .value v := by
  unfold separated at hu
  induction values with
  | nil => simp at hu
  | cons v values ih =>
    cases values with
    | nil =>
      rw [List.map_singleton, List.intersperse_singleton, List.mem_singleton] at hu
      exact Or.inr ⟨v, hu⟩
    | cons w values =>
      simp only [List.map_cons] at hu ih
      rw [List.intersperse_cons_cons, List.mem_cons, List.mem_cons] at hu
      rcases hu with hu | hu | hu
      · exact Or.inr ⟨v, hu⟩
      · exact Or.inl hu
      · exact ih hu

theorem plain_termTokens {t : Term} (hne : t.operator ≠ .between) :
    ∀ u ∈ termTokens t, Plain u := by
  have hvalues : ∀ u ∈ separated .comma t.valueTexts, Plain u := by
    intro u hu
    rcases mem_separated hu with rfl | ⟨v, rfl⟩ <;> simp [Plain]
  unfold Plain at hvalues ⊢
  unfold termTokens
  dsimp only
  split
  case h_7 hbetween => exact absurd hbetween hne
  case h_12 | h_13 => simp
  all_goals simpa [or_imp, forall_and] using hvalues

/-- The tokens of a term stay together. -/
theorem splitTerms_term {t : Term} (hfit : t.Fits) (rest : List Token) :
    splitTerms false (termTokens t ++ rest) =
      (termTokens t).foldr putFirst (splitTerms false rest) := by
  by_cases hbetween : t.operator = .between
  · obtain ⟨operator, slot, first, count⟩ := t
    subst hbetween
    obtain rfl : count = 2 := hfit.two_values rfl
    rfl
  · exact splitTerms_plain (plain_termTokens hbetween) false rest

theorem splitTerms_conjunction {terms : List Term} (hne : terms ≠ []) (hfit : ∀ t ∈ terms, t.Fits) :
    splitTerms false (List.intercalate [.keyword .and] (terms.map termTokens)) =
      terms.map termTokens := by
  induction terms with
  | nil => exact absurd rfl hne
  | cons t terms ih =>
    have ht := hfit t List.mem_cons_self
    cases terms with
    | nil =>
      have hterm := splitTerms_term ht []
      have hnil : splitTerms false [] = [[]] := rfl
      rw [hnil, foldr_putFirst, List.append_nil] at hterm
      simpa using hterm
    | cons u terms =>
      have hrest := ih (List.cons_ne_nil u terms) (fun v hv => hfit v (List.mem_cons_of_mem t hv))
      simp only [List.map_cons] at hrest ⊢
      have hand : splitTerms false (.keyword .and :: List.intercalate [.keyword .and]
          (termTokens u :: terms.map termTokens)) = [] :: termTokens u :: terms.map termTokens := by
        rw [splitTerms, hrest]
      rw [List.intercalate_cons_cons, List.append_assoc, splitTerms_term ht,
        List.singleton_append, hand, foldr_putFirst, List.append_nil]

/-! ## Terms read back -/

theorem listed_separated {values : List String} (hne : values ≠ []) :
    listed (separated .comma values ++ [.closing]) = some values := by
  induction values with
  | nil => exact absurd rfl hne
  | cons v values ih =>
    cases values with
    | nil => rfl
    | cons w values =>
      have hrest := ih (List.cons_ne_nil w values)
      unfold separated at hrest ⊢
      simp only [List.map_cons] at hrest ⊢
      rw [List.intersperse_cons_cons, List.cons_append, List.cons_append, listed, hrest]
      rfl

/-- What is read from the tokens of a term. -/
theorem term_termTokens {t : Term} (hfit : t.Fits) : term (termTokens t) =
    some ⟨namePlaceholder t.attributeSlot, t.operator, t.valueTexts⟩ := by
  obtain ⟨operator, slot, first, count⟩ := t
  cases operator
  case eq | ne | lt | le | gt | ge | beginsWith | contains | notContains =>
    obtain rfl : count = 1 := hfit.one_value rfl
    rfl
  case null | notNull =>
    obtain rfl : count = 0 := hfit.no_value rfl
    rfl
  case between =>
    obtain rfl : count = 2 := hfit.two_values rfl
    rfl
  case isIn =>
    have hne : Term.valueTexts ⟨.isIn, slot, first, count⟩ ≠ [] := by
      simpa [Term.valueTexts] using hfit.some_values rfl
    simp only [termTokens, term, listed_separated hne]
    rfl

end Reader

end KeyAccess
