-- The law of filter bindings. A filter binds exactly if its bindings are those of the placeholders
-- in its text and the last value of each can be encoded. Of each placeholder the last binding
-- counts, and a value is found at fault only where the placeholders are not.
import Mathlib
import KeyAccess.Proofs.Clause.Elements
import KeyAccess.Proofs.Criteria.Filter
import KeyAccess.Proofs.Text.Matches

namespace KeyAccess

/-! ## What bindings say -/

namespace FilterBinding

/-- The attribute name that it gives to a placeholder. -/
def name? (p : String) : FilterBinding → Option String
  | name placeholder held => if p = placeholder then some held else none
  | _ => none

/-- The value that it gives to a placeholder, with the property that this is encoded for. -/
def value? (p : String) : FilterBinding → Option (String × ClauseValue)
  | .value placeholder v => if p = placeholder then some (placeholder, v) else none
  | .valueFor placeholder property v => if p = placeholder then some (property, v) else none
  | _ => none

/-- The attribute name that a placeholder has in the end. -/
def lastName (p : String) (bindings : List FilterBinding) : Option String :=
  (bindings.filterMap (name? p)).getLast?

/-- The value that a placeholder has in the end, with the property that this is encoded for. -/
def lastValue (p : String) (bindings : List FilterBinding) : Option (String × ClauseValue) :=
  (bindings.filterMap (value? p)).getLast?

end FilterBinding

open FilterBinding (lastName lastValue)

/-- A bound filter has the text, and it binds the placeholders in it to what the bindings give them
in the end. -/
structure BoundFilter.SaidByBindings (b : BoundFilter) (ctx : EncodingContext) (text : String)
    (bindings : List FilterBinding) : Prop where
  expression : b.expression = text
  binds : Binds b.names b.values (Text.placeholders text)
  names : ∀ p, b.names.get? p = lastName p bindings
  values : ∀ p, (b.values.get? p).map Except.ok =
    (lastValue p bindings).map fun (property, v) => ctx.encode property v none

namespace RawFilter

variable {ctx : EncodingContext} {text : String} {bindings : List FilterBinding}

/-- The value of a placeholder, with the property that this is encoded for. -/
def value? (f : RawFilter) (p : String) : Option (String × ClauseValue) :=
  (f.values.get? p).map fun v => ((f.valueProperties.get? p).getD p, v)

theorem map_encodeBound (f : RawFilter) (ctx : EncodingContext) (p : String) :
    (f.values.get? p).map (f.encodeBound ctx p) =
      (f.value? p).map fun (property, v) => ctx.encode property v none := by
  unfold value?
  rw [Option.map_map]
  rfl

/-! ## The last binding counts -/

theorem name_bindOne (f : RawFilter) (x : FilterBinding) (p : String) :
    (f.bindOne x).names.get? p = (x.name? p).or (f.names.get? p) := by
  cases x with
  | name placeholder held =>
    by_cases hp : p = placeholder <;>
      simp [bindOne, SortedMap.get?_insert, FilterBinding.name?, hp]
  | value placeholder v => rfl
  | valueFor placeholder property v => rfl

/-- A value that is bound again is not encoded for the property of the value before it. -/
theorem value_bindOne (f : RawFilter) (x : FilterBinding) (p : String) :
    (f.bindOne x).value? p = (x.value? p).or (f.value? p) := by
  cases x with
  | name placeholder held => rfl
  | value placeholder v =>
    by_cases hp : p = placeholder <;>
      simp [bindOne, value?, SortedMap.get?_insert, SortedMap.get?_erase, FilterBinding.value?, hp]
  | valueFor placeholder property v =>
    by_cases hp : p = placeholder <;>
      simp [bindOne, value?, SortedMap.get?_insert, FilterBinding.value?, hp]

theorem name_ofBindings (text : String) (bindings : List FilterBinding) (p : String) :
    (ofBindings text bindings).names.get? p = lastName p bindings :=
  (SortedMap.foldl_last (fun f : RawFilter => f.names.get? p) bindOne (FilterBinding.name? p)
    (fun f x => name_bindOne f x p) { expression := text } bindings).trans Option.or_none

theorem value_ofBindings (text : String) (bindings : List FilterBinding) (p : String) :
    (ofBindings text bindings).value? p = lastValue p bindings :=
  (SortedMap.foldl_last (fun f : RawFilter => f.value? p) bindOne (FilterBinding.value? p)
    (fun f x => value_bindOne f x p) { expression := text } bindings).trans Option.or_none

theorem expression_foldl (f : RawFilter) (bindings : List FilterBinding) :
    (bindings.foldl bindOne f).expression = f.expression := by
  induction bindings generalizing f with
  | nil => rfl
  | cons x bindings ih =>
    rw [List.foldl_cons, ih]
    cases x <;> rfl

theorem expression_ofBindings (text : String) (bindings : List FilterBinding) :
    (ofBindings text bindings).expression = text :=
  expression_foldl { expression := text } bindings

/-! ## The values of a filter are the last ones of its bindings -/

theorem encodeBound_ofBindings (p : String) (outcome : Except QueryError AttributeValue) :
    (∃ v, (ofBindings text bindings).values.get? p = some v ∧
        (ofBindings text bindings).encodeBound ctx p v = outcome) ↔
      ∃ property v, lastValue p bindings = some (property, v) ∧
        ctx.encode property v none = outcome := by
  rw [← Option.map_eq_some_iff, map_encodeBound, value_ofBindings, Option.map_eq_some_iff,
    Prod.exists]

theorem encode_all_ofBindings :
    (∀ p v, (ofBindings text bindings).values.get? p = some v →
        ∃ w, (ofBindings text bindings).encodeBound ctx p v = .ok w) ↔
      ∀ p property v, lastValue p bindings = some (property, v) →
        ∃ w, ctx.encode property v none = .ok w := by
  constructor
  · intro h p property v hlast
    obtain ⟨v', hget, hencode⟩ := (encodeBound_ofBindings p _).2 ⟨property, v, hlast, rfl⟩
    obtain ⟨w, hw⟩ := h p v' hget
    exact ⟨w, hencode.symm.trans hw⟩
  · intro h p v hget
    obtain ⟨property, v', hlast, hencode⟩ := (encodeBound_ofBindings p _).1 ⟨v, hget, rfl⟩
    obtain ⟨w, hw⟩ := h p property v' hlast
    exact ⟨w, hencode.symm.trans hw⟩

theorem saidByBindings_of_bind {b : BoundFilter} (h : (ofBindings text bindings).bind ctx = .ok b) :
    b.SaidByBindings ctx text bindings := by
  have hsaid := saidBy_of_bind h
  have htext : b.expression = text := hsaid.expression.trans (expression_ofBindings text bindings)
  refine ⟨htext, ?_, fun p => ?_, fun p => ?_⟩
  · rw [← htext]
    exact bind_binds h
  · rw [hsaid.names, name_ofBindings]
  · rw [hsaid.values, map_encodeBound, value_ofBindings]

/-! ## Binding -/

/-- A filter binds exactly if it binds the leftmost-longest matches in its text and no more, none of
them is reserved, and every value can be encoded. What it binds is bound as its last binding says,
and it fails by a value only if the placeholders are right. -/
theorem a_filter_binds_exactly_if_it_is_consistent (text : String) (bindings : List FilterBinding)
    (ctx : EncodingContext) :
    Text.Matches text.toList ((Text.placeholders text).map String.toList) ∧
      (ofBindings text bindings).expression = text ∧
      ((∃ b, (ofBindings text bindings).bind ctx = .ok b) ↔
        (ofBindings text bindings).Consistent ∧
          ∀ p property v, lastValue p bindings = some (property, v) →
            ∃ w, ctx.encode property v none = .ok w) ∧
      (∀ b, (ofBindings text bindings).bind ctx = .ok b → b.SaidByBindings ctx text bindings) ∧
      ∀ e, (ofBindings text bindings).bind ctx = .error e →
        (¬ (ofBindings text bindings).Consistent ∧ ∃ fault, e = .invalidFilter fault) ∨
          (ofBindings text bindings).Consistent ∧ ∃ p property v fault,
            lastValue p bindings = some (property, v) ∧
              ctx.encode property v none = .error e ∧ e = .unsupportedValue property fault := by
  refine ⟨(Text.matches_iff text _).2 rfl, expression_ofBindings text bindings, ?_,
    fun b hbind => saidByBindings_of_bind hbind, fun e hbind => ?_⟩
  · rw [exists_bind_iff, encode_all_ofBindings]
  · refine (error_of_bind hbind).imp_right (And.imp_right ?_)
    rintro ⟨p, hvalue⟩
    obtain ⟨property, v, hlast, hencode⟩ := (encodeBound_ofBindings p _).1 hvalue
    obtain ⟨fault, hfault⟩ := EncodingContext.encode_eq_error hencode
    exact ⟨p, property, v, fault, hlast, hencode, hfault⟩

/-- A sigil alone is no placeholder, a letter outside ASCII ends one, and one that is bound again
has what it is bound to last. -/
theorem a_placeholder_bound_again_has_its_last_binding :
    ∃ b, (ofBindings "##t = :té" [.name "#t" "title", .value ":t" (.boolean true),
        .name "#t" "day", .valueFor ":t" "day" (.string "x")]).bind ⟨noteSchema, {}⟩ = .ok b ∧
      b.names.get? "#t" = some "day" ∧ b.values.get? ":t" = some (.string "x") := by
  obtain ⟨-, -, -, hsaid, -⟩ := a_filter_binds_exactly_if_it_is_consistent "##t = :té"
    [.name "#t" "title", .value ":t" (.boolean true), .name "#t" "day",
      .valueFor ":t" "day" (.string "x")] ⟨noteSchema, {}⟩
  have hok : (ofBindings "##t = :té" [.name "#t" "title", .value ":t" (.boolean true),
        .name "#t" "day", .valueFor ":t" "day" (.string "x")]).bind ⟨noteSchema, {}⟩ =
      .ok ⟨"##t = :té", SortedMap.ofList [("#t", "day")], SortedMap.ofList [(":t", .string "x")]⟩ := by
    decide +kernel
  exact ⟨_, hok, (hsaid _ hok).names "#t", by decide⟩

end RawFilter

end KeyAccess
