-- What a bound filter can be relied on for. It has the text and the bindings of the raw filter,
-- each value encoded. It binds exactly the placeholders that stand in its text, each in the map of
-- its sigil, and none of them is reserved for generated expressions.
import Mathlib
import KeyAccess.Criteria.Filter
import KeyAccess.Proofs.Outcome
import KeyAccess.Proofs.SortedMap
import KeyAccess.Proofs.Text.Placeholder

namespace KeyAccess

/-! ## Notions -/

/-- No placeholder that the filter binds is reserved for generated expressions. -/
def BoundFilter.Unreserved (f : BoundFilter) : Prop :=
  (∀ placeholder ∈ f.names.keys, isReserved placeholder = false) ∧
    ∀ placeholder ∈ f.values.keys, isReserved placeholder = false

/-- A bound filter says what a raw one says: the text and the names as they are, and each value in
its encoding. -/
structure RawFilter.SaidBy (f : RawFilter) (ctx : EncodingContext) (b : BoundFilter) : Prop where
  expression : b.expression = f.expression
  names : b.names = f.names
  values : ∀ p, (b.values.get? p).map Except.ok = (f.values.get? p).map (f.encodeBound ctx p)

/-- A map binds exactly what is mentioned with a sigil. -/
def BindsSigil {α : Type} (sigil : String) (m : SortedMap α) (mentioned : List String) : Prop :=
  ∀ p, p ∈ m.keys ↔ p ∈ mentioned ∧ startsWith p sigil = true

/-- Two maps bind exactly what is mentioned, the one all names and the other all values. -/
structure Binds (names : SortedMap String) (values : SortedMap AttributeValue)
    (mentioned : List String) : Prop where
  names : BindsSigil "#" names mentioned
  values : BindsSigil ":" values mentioned

/-- A raw filter has a text, none of the placeholders in it is reserved, and it binds exactly these,
the names in one map and the values in the other. -/
structure RawFilter.Consistent (f : RawFilter) : Prop where
  not_blank : Text.allBlank f.expression = false
  unreserved : ∀ p ∈ Text.placeholders f.expression, isReserved p = false
  names : BindsSigil "#" f.names (Text.placeholders f.expression)
  values : BindsSigil ":" f.values (Text.placeholders f.expression)

/-! ## Sigils -/

theorem startsWith_of_head {p sigil : String} {c : Char} {word : List Char}
    (hsigil : sigil.toList = [c]) (hp : p.toList = c :: word) : startsWith p sigil = true := by
  unfold startsWith
  rw [hsigil, hp, List.isPrefixOf_iff_prefix]
  exact ⟨word, rfl⟩

theorem head_of_startsWith {p sigil : String} {c : Char} (hsigil : sigil.toList = [c])
    (h : startsWith p sigil = true) : ∃ word, p.toList = c :: word := by
  unfold startsWith at h
  rw [hsigil, List.isPrefixOf_iff_prefix] at h
  obtain ⟨word, hword⟩ := h
  exact ⟨word, hword.symm⟩

/-- No placeholder has both sigils. -/
theorem startsWith_value_of_name {p : String} (h : startsWith p "#" = true) :
    startsWith p ":" = false := by
  rw [Bool.eq_false_iff]
  intro hvalue
  obtain ⟨word, hname⟩ := head_of_startsWith (c := '#') rfl h
  obtain ⟨word', hvalue⟩ := head_of_startsWith (c := ':') rfl hvalue
  rw [hname] at hvalue
  cases hvalue

/-- Every placeholder that stands in a text has one of the two sigils. -/
theorem startsWith_of_mem_placeholders {p s : String} (h : p ∈ Text.placeholders s) :
    startsWith p "#" = true ∨ startsWith p ":" = true := by
  obtain ⟨⟨c, word, hp, hsigil, -⟩, -⟩ := (Text.mem_placeholders_iff s p).1 h
  rcases Text.isSigil_iff.1 hsigil with rfl | rfl
  · exact Or.inl (startsWith_of_head rfl hp)
  · exact Or.inr (startsWith_of_head rfl hp)

namespace RawFilter

variable {f : RawFilter} {ctx : EncodingContext} {b : BoundFilter} {placeholder : String}

/-! ## The checks -/

theorem checkUsed_eq_ok_iff : f.checkUsed placeholder = .ok () ↔
    isReserved placeholder = false ∧
      (startsWith placeholder "#" = true → placeholder ∈ f.names.keys) ∧
      (startsWith placeholder "#" = false → placeholder ∈ f.values.keys) := by
  unfold checkUsed
  simp only [← SortedMap.contains_iff]
  cases isReserved placeholder <;> cases startsWith placeholder "#" <;> simp

theorem checkUsed_eq_error {e : QueryError} (h : f.checkUsed placeholder = .error e) :
    ∃ fault, e = .invalidFilter fault := by
  unfold checkUsed at h
  dsimp only at h
  split_ifs at h <;> cases h <;> exact ⟨_, rfl⟩

theorem checkBound_eq_ok_iff {used : List String} {sigil : Char} :
    checkBound used sigil placeholder = .ok () ↔
      startsWith placeholder sigil.toString = true ∧ placeholder ∈ used := by
  unfold checkBound
  cases startsWith placeholder sigil.toString <;> simp

theorem checkBound_eq_error {used : List String} {sigil : Char} {e : QueryError}
    (h : checkBound used sigil placeholder = .error e) : ∃ fault, e = .invalidFilter fault := by
  unfold checkBound at h
  split_ifs at h <;> cases h <;> exact ⟨_, rfl⟩

/-- The checks of the placeholders in the text and of those that are bound, one after the other,
require of the two together that they are the same. -/
theorem consistent_iff : f.Consistent ↔ Text.allBlank f.expression = false ∧
    (sortedDistinct (Text.placeholders f.expression)).forM f.checkUsed = .ok () ∧
    f.names.keys.forM (checkBound (sortedDistinct (Text.placeholders f.expression)) '#') = .ok () ∧
    f.values.keys.forM (checkBound (sortedDistinct (Text.placeholders f.expression)) ':') =
      .ok () := by
  simp only [forM_eq_ok_iff, checkUsed_eq_ok_iff, checkBound_eq_ok_iff, mem_sortedDistinct]
  constructor
  · intro h
    refine ⟨h.not_blank, fun p hp => ⟨h.unreserved p hp, fun hname => ?_, fun hname => ?_⟩,
      fun p hp => ((h.names p).1 hp).symm, fun p hp => ((h.values p).1 hp).symm⟩
    · exact (h.names p).2 ⟨hp, hname⟩
    · refine (h.values p).2 ⟨hp, (startsWith_of_mem_placeholders hp).resolve_left ?_⟩
      rw [hname]
      exact Bool.false_ne_true
  · rintro ⟨hblank, hused, hnames, hvalues⟩
    refine ⟨hblank, fun p hp => (hused p hp).1, fun p => ⟨fun hp => (hnames p hp).symm, ?_⟩,
      fun p => ⟨fun hp => (hvalues p hp).symm, ?_⟩⟩
    · rintro ⟨hp, hname⟩
      exact (hused p hp).2.1 hname
    · rintro ⟨hp, hvalue⟩
      refine (hused p hp).2.2 ?_
      rw [Bool.eq_false_iff]
      intro hname
      rw [startsWith_value_of_name hname] at hvalue
      cases hvalue

/-! ## Encoded entries -/

/-- The entries of the values, each one encoded. -/
def encodedEntries (f : RawFilter) (ctx : EncodingContext) :
    Except QueryError (List (String × AttributeValue)) :=
  f.values.entries.mapM fun (placeholder, value) => do
    return (placeholder, ← f.encodeBound ctx placeholder value)

/-- An entry and the encoding of it. -/
def EncodedAs (f : RawFilter) (ctx : EncodingContext) (e : String × ClauseValue)
    (e' : String × AttributeValue) : Prop :=
  e'.1 = e.1 ∧ f.encodeBound ctx e.1 e.2 = .ok e'.2

theorem keys_encoded {entries : List (String × ClauseValue)}
    {encoded : List (String × AttributeValue)}
    (h : List.Forall₂ (f.EncodedAs ctx) entries encoded) :
    encoded.map Prod.fst = entries.map Prod.fst := by
  induction h with
  | nil => rfl
  | cons hstep _ ih => rw [List.map_cons, List.map_cons, hstep.1, ih]

theorem findEntry_encoded {entries : List (String × ClauseValue)}
    {encoded : List (String × AttributeValue)}
    (h : List.Forall₂ (f.EncodedAs ctx) entries encoded) (p : String) :
    (SortedMap.findEntry encoded p).map Except.ok =
      (SortedMap.findEntry entries p).map (f.encodeBound ctx p) := by
  induction h with
  | nil => rfl
  | @cons e e' _ _ hstep _ ih =>
    rw [SortedMap.findEntry_cons, SortedMap.findEntry_cons, hstep.1]
    by_cases hp : e.1 = p
    · subst hp
      simp [hstep.2]
    · simpa [hp] using ih

theorem encodedEntries_eq_ok {encoded : List (String × AttributeValue)}
    (h : f.encodedEntries ctx = .ok encoded) :
    List.Forall₂ (f.EncodedAs ctx) f.values.entries encoded := by
  refine (mapM_eq_ok_iff.1 h).imp ?_
  rintro ⟨p, v⟩ ⟨q, w⟩ hstep
  obtain ⟨_, hvalue, hstep⟩ := bind_eq_ok_iff.1 hstep
  cases hstep
  exact ⟨rfl, hvalue⟩

theorem encodedEntries_eq_error {e : QueryError} (h : f.encodedEntries ctx = .error e) :
    ∃ p value, f.values.get? p = some value ∧ f.encodeBound ctx p value = .error e := by
  obtain ⟨⟨p, value⟩, hentry, herror⟩ := mapM_eq_error h
  refine ⟨p, value, (f.values.get?_eq_some_iff p value).2 hentry, ?_⟩
  rcases bind_eq_error_iff.1 herror with hvalue | ⟨_, _, herror⟩
  · exact hvalue
  · cases herror

theorem saidBy_encoded {encoded : List (String × AttributeValue)}
    (h : f.encodedEntries ctx = .ok encoded) :
    f.SaidBy ctx ⟨f.expression, f.names, SortedMap.ofList encoded⟩ := by
  have hsteps := encodedEntries_eq_ok h
  have hnodup : (encoded.map Prod.fst).Nodup := by
    rw [keys_encoded hsteps]
    exact f.values.keys_nodup
  refine ⟨rfl, rfl, fun p => ?_⟩
  rw [SortedMap.get?_ofList _ hnodup, SortedMap.get?_eq_findEntry, findEntry_encoded hsteps]

/-! ## Binding -/

theorem bind_of_consistent (h : f.Consistent) (ctx : EncodingContext) : f.bind ctx =
    (f.encodedEntries ctx >>= fun encoded =>
      .ok ⟨f.expression, f.names, SortedMap.ofList encoded⟩) := by
  obtain ⟨hblank, hused, hnames, hvalues⟩ := consistent_iff.1 h
  unfold bind
  dsimp only
  rw [hblank, if_neg Bool.false_ne_true, hused, ok_bind, hnames, ok_bind, hvalues, ok_bind]
  rfl

theorem bind_of_inconsistent (h : ¬ f.Consistent) (ctx : EncodingContext) :
    ∃ fault, f.bind ctx = .error (.invalidFilter fault) := by
  rw [consistent_iff] at h
  unfold bind
  dsimp only
  cases hblank : Text.allBlank f.expression with
  | true => exact ⟨_, rfl⟩
  | false =>
    rw [if_neg Bool.false_ne_true]
    cases hused : (sortedDistinct (Text.placeholders f.expression)).forM f.checkUsed with
    | error e =>
      obtain ⟨p, -, herror⟩ := forM_eq_error hused
      obtain ⟨fault, rfl⟩ := checkUsed_eq_error herror
      exact ⟨fault, rfl⟩
    | ok _ =>
      rw [ok_bind]
      cases hnames : f.names.keys.forM
          (checkBound (sortedDistinct (Text.placeholders f.expression)) '#') with
      | error e =>
        obtain ⟨p, -, herror⟩ := forM_eq_error hnames
        obtain ⟨fault, rfl⟩ := checkBound_eq_error herror
        exact ⟨fault, rfl⟩
      | ok _ =>
        rw [ok_bind]
        cases hvalues : f.values.keys.forM
            (checkBound (sortedDistinct (Text.placeholders f.expression)) ':') with
        | error e =>
          obtain ⟨p, -, herror⟩ := forM_eq_error hvalues
          obtain ⟨fault, rfl⟩ := checkBound_eq_error herror
          exact ⟨fault, rfl⟩
        | ok _ => exact absurd ⟨hblank, hused, hnames, hvalues⟩ h

theorem consistent_of_bind (h : f.bind ctx = .ok b) : f.Consistent := by
  by_contra hnot
  obtain ⟨fault, herror⟩ := bind_of_inconsistent hnot ctx
  rw [h] at herror
  cases herror

theorem saidBy_of_bind (h : f.bind ctx = .ok b) : f.SaidBy ctx b := by
  rw [bind_of_consistent (consistent_of_bind h)] at h
  obtain ⟨encoded, hencoded, h⟩ := bind_eq_ok_iff.1 h
  cases h
  exact saidBy_encoded hencoded

/-- Binding fails by the rules for placeholders, or, if these hold, by a value. -/
theorem error_of_bind {e : QueryError} (h : f.bind ctx = .error e) :
    (¬ f.Consistent ∧ ∃ fault, e = .invalidFilter fault) ∨
      f.Consistent ∧ ∃ p value, f.values.get? p = some value ∧
        f.encodeBound ctx p value = .error e := by
  by_cases hconsistent : f.Consistent
  · right
    rw [bind_of_consistent hconsistent] at h
    rcases bind_eq_error_iff.1 h with hencoded | ⟨_, _, h⟩
    · exact ⟨hconsistent, encodedEntries_eq_error hencoded⟩
    · cases h
  · left
    obtain ⟨fault, herror⟩ := bind_of_inconsistent hconsistent ctx
    rw [h] at herror
    cases herror
    exact ⟨hconsistent, fault, rfl⟩

theorem exists_bind_iff : (∃ b, f.bind ctx = .ok b) ↔ f.Consistent ∧
    ∀ p value, f.values.get? p = some value → ∃ v, f.encodeBound ctx p value = .ok v := by
  constructor
  · rintro ⟨b, hbind⟩
    refine ⟨consistent_of_bind hbind, fun p value hvalue => ?_⟩
    have hsaid := (saidBy_of_bind hbind).values p
    rw [hvalue, Option.map_some, Option.map_eq_some_iff] at hsaid
    obtain ⟨v, -, hv⟩ := hsaid
    exact ⟨v, hv.symm⟩
  · rintro ⟨hconsistent, hvalues⟩
    cases hbind : f.bind ctx with
    | ok b => exact ⟨b, rfl⟩
    | error e =>
      rcases error_of_bind hbind with ⟨hnot, -⟩ | ⟨-, p, value, hvalue, herror⟩
      · exact absurd hconsistent hnot
      · obtain ⟨v, hv⟩ := hvalues p value hvalue
        rw [herror] at hv
        cases hv

/-- What binding has checked and done. Every placeholder in the text may be used, every bound one
stands in the text and has the sigil of its map, and the values are encoded. -/
theorem bind_ok (h : f.bind ctx = .ok b) :
    (∀ p ∈ Text.placeholders f.expression, f.checkUsed p = .ok ()) ∧
      (∀ p ∈ f.names.keys, startsWith p "#" = true ∧ p ∈ Text.placeholders f.expression) ∧
      (∀ p ∈ f.values.keys, startsWith p ":" = true ∧ p ∈ Text.placeholders f.expression) ∧
      f.SaidBy ctx b := by
  have hconsistent := consistent_of_bind h
  have hused := (consistent_iff.1 hconsistent).2.1
  rw [forM_eq_ok_iff] at hused
  simp only [mem_sortedDistinct] at hused
  exact ⟨hused, fun p hp => ((hconsistent.names p).1 hp).symm,
    fun p hp => ((hconsistent.values p).1 hp).symm, saidBy_of_bind h⟩

theorem SaidBy.mem_values_keys (h : f.SaidBy ctx b) (p : String) :
    p ∈ b.values.keys ↔ p ∈ f.values.keys := by
  have hget := h.values p
  rw [SortedMap.mem_keys_iff, SortedMap.mem_keys_iff]
  cases hb : b.values.get? p <;> cases hf : f.values.get? p <;> simp_all

/-! ## What follows from the checks -/

theorem bind_unreserved (h : f.bind ctx = .ok b) : b.Unreserved := by
  have hconsistent := consistent_of_bind h
  have hsaid := saidBy_of_bind h
  refine ⟨fun p hp => ?_, fun p hp => ?_⟩
  · rw [hsaid.names] at hp
    exact hconsistent.unreserved p ((hconsistent.names p).1 hp).1
  · rw [hsaid.mem_values_keys] at hp
    exact hconsistent.unreserved p ((hconsistent.values p).1 hp).1

theorem bind_binds (h : f.bind ctx = .ok b) :
    Binds b.names b.values (Text.placeholders b.expression) := by
  have hconsistent := consistent_of_bind h
  have hsaid := saidBy_of_bind h
  rw [hsaid.expression, hsaid.names]
  refine ⟨hconsistent.names, fun p => ?_⟩
  rw [hsaid.mem_values_keys, hconsistent.values p]

end RawFilter

end KeyAccess
