-- The law of bound values. A value that is bound for a property is encoded as the clauses on that
-- property are. A value that is bound without one has the form of its own kind, but only if the
-- placeholder is not the name of a property: else it is encoded as a value of that property.
import Mathlib
import KeyAccess.Proofs.Criteria.FilterBindings

namespace KeyAccess

/-! ## What becomes of a value under a name -/

namespace EncodingContext

/-- The name has no converter and no declared type. -/
structure Unknown (ctx : EncodingContext) (name : String) : Prop where
  converter : ctx.converters.get? name = none
  type : ctx.schema.attributeType name = none

/-- What a value becomes under a name: a converter of the name comes before its declared type, and
without either the value has the form of its own kind. -/
inductive Gives (ctx : EncodingContext) (name : String) (v : ClauseValue) (w : AttributeValue) :
    Prop
  | converted {convert : Converter} :
      ctx.converters.get? name = some convert → convert v = .ok w → Gives ctx name v w
  | typed {type : AttributeType} :
      ctx.converters.get? name = none → ctx.schema.attributeType name = some type →
        v.encodeAs (some type) = .ok w → Gives ctx name v w
  | inferred : ctx.Unknown name → v.encodeAs none = .ok w → Gives ctx name v w

variable {ctx : EncodingContext} {name : String} {v : ClauseValue} {w : AttributeValue}

theorem gives_iff_of_converter {convert : Converter}
    (h : ctx.converters.get? name = some convert) : ctx.Gives name v w ↔ convert v = .ok w := by
  refine ⟨?_, .converted h⟩
  rintro (⟨hother, hconvert⟩ | ⟨hnone, -, -⟩ | ⟨⟨hnone, -⟩, -⟩)
  · rw [h] at hother
    cases hother
    exact hconvert
  · rw [h] at hnone
    cases hnone
  · rw [h] at hnone
    cases hnone

theorem gives_iff_of_type {type : AttributeType} (h : ctx.converters.get? name = none)
    (htype : ctx.schema.attributeType name = some type) :
    ctx.Gives name v w ↔ v.encodeAs (some type) = .ok w := by
  refine ⟨?_, .typed h htype⟩
  rintro (⟨hsome, -⟩ | ⟨-, hother, hencode⟩ | ⟨⟨-, hnone⟩, -⟩)
  · rw [h] at hsome
    cases hsome
  · rw [htype] at hother
    cases hother
    exact hencode
  · rw [htype] at hnone
    cases hnone

/-- Under a name of which nothing is known, only the value counts. -/
theorem gives_iff_of_unknown (h : ctx.Unknown name) :
    ctx.Gives name v w ↔ v.encodeAs none = .ok w := by
  refine ⟨?_, .inferred h⟩
  rintro (⟨hsome, -⟩ | ⟨-, hsome, -⟩ | ⟨-, hencode⟩)
  · rw [h.converter] at hsome
    cases hsome
  · rw [h.type] at hsome
    cases hsome
  · exact hencode

theorem encode_eq_ok_iff : ctx.encode name v none = .ok w ↔ ctx.Gives name v w := by
  unfold encode
  cases hconverter : ctx.converters.get? name with
  | some convert =>
    rw [gives_iff_of_converter hconverter]
    cases hconvert : convert v <;> simp [hconvert]
  | none =>
    cases htype : ctx.schema.attributeType name with
    | some type =>
      rw [gives_iff_of_type hconverter htype]
      cases hencode : v.encodeAs (some type) <;> simp [hencode]
    | none =>
      rw [gives_iff_of_unknown ⟨hconverter, htype⟩]
      cases hencode : v.encodeAs none <;> simp [hencode]

end EncodingContext

/-! ## The last binding of a placeholder -/

namespace FilterBinding

variable {p : String} {x : FilterBinding} {bindings : List FilterBinding}

/-- A binding gives the placeholder a value, and none after it does. -/
def IsLastValue (p : String) (x : FilterBinding) (bindings : List FilterBinding) : Prop :=
  (x.value? p).isSome ∧ ∃ before after,
    bindings = before ++ x :: after ∧ ∀ y ∈ after, y.value? p = none

theorem lastValue_eq_some_iff {r : String × ClauseValue} : lastValue p bindings = some r ↔
    ∃ x, IsLastValue p x bindings ∧ x.value? p = some r := by
  unfold lastValue
  constructor
  · intro h
    obtain ⟨given, hgiven⟩ := List.getLast?_eq_some_iff.1 h
    obtain ⟨before, rest, rfl, -, hrest⟩ := List.filterMap_eq_append_iff.1 hgiven
    obtain ⟨skipped, x, after, rfl, -, hx, hafter⟩ := List.filterMap_eq_cons_iff.1 hrest
    refine ⟨x, ⟨Option.isSome_of_mem hx, before ++ skipped, after, ?_, ?_⟩, hx⟩
    · rw [List.append_assoc]
    · exact List.filterMap_eq_nil_iff.1 hafter
  · rintro ⟨x, ⟨-, before, after, rfl, hafter⟩, hx⟩
    rw [List.filterMap_append, List.filterMap_cons_some hx, List.filterMap_eq_nil_iff.2 hafter,
      List.getLast?_concat]

theorem isSome_value?_iff : (x.value? p).isSome ↔
    (∃ v, x = .value p v) ∨ ∃ property v, x = .valueFor p property v := by
  cases x with
  | name placeholder held => simp [value?]
  | value placeholder v =>
    by_cases hp : p = placeholder
    · subst hp
      simp [value?]
    · simp [value?, hp, Ne.symm hp]
  | valueFor placeholder property v =>
    by_cases hp : p = placeholder
    · subst hp
      simp [value?]
    · simp [value?, hp, Ne.symm hp]

end FilterBinding

open FilterBinding (IsLastValue lastValue_eq_some_iff)

/-! ## The law -/

namespace RawFilter

variable {ctx : EncodingContext} {text : String} {bindings : List FilterBinding}

/-- What is bound in the end is the last value, encoded for the property that goes with it. -/
theorem get?_of_isLastValue {b : BoundFilter} (h : b.SaidByBindings ctx text bindings) {p : String}
    {x : FilterBinding} {property : String} {v : ClauseValue} (hlast : IsLastValue p x bindings)
    (hx : x.value? p = some (property, v)) :
    ∃ w, b.values.get? p = some w ∧ ctx.encode property v none = .ok w := by
  have hvalues := h.values p
  rw [lastValue_eq_some_iff.2 ⟨x, hlast, hx⟩, Option.map_some, Option.map_eq_some_iff] at hvalues
  obtain ⟨w, hw, hencode⟩ := hvalues
  exact ⟨w, hw, hencode.symm⟩

/-- Every value of a filter is bound as the last binding of its placeholder says. One that is bound
for a property has the encoding of that property. One that is bound without has what the name of the
placeholder gives, and so the form of its own kind if nothing is known of that name. -/
theorem a_value_is_encoded_under_its_name {b : BoundFilter}
    (h : (ofBindings text bindings).bind ctx = .ok b) :
    (∀ p v, IsLastValue p (.value p v) bindings → ∃ w, b.values.get? p = some w ∧ ctx.Gives p v w ∧
      (ctx.Unknown p → v.encodeAs none = .ok w)) ∧
    (∀ p property v, IsLastValue p (.valueFor p property v) bindings →
      ∃ w, b.values.get? p = some w ∧ ctx.encode property v none = .ok w) ∧
    ∀ p ∈ b.values.keys, ∃ x, IsLastValue p x bindings ∧
      ((∃ v, x = .value p v) ∨ ∃ property v, x = .valueFor p property v) := by
  have hsaid := saidByBindings_of_bind h
  refine ⟨fun p v hlast => ?_, fun p property v hlast => ?_, fun p hp => ?_⟩
  · obtain ⟨w, hw, hencode⟩ := get?_of_isLastValue hsaid hlast (if_pos rfl)
    have hgives := EncodingContext.encode_eq_ok_iff.1 hencode
    exact ⟨w, hw, hgives, fun h => (EncodingContext.gives_iff_of_unknown h).1 hgives⟩
  · exact get?_of_isLastValue hsaid hlast (if_pos rfl)
  · obtain ⟨w, hw⟩ := (SortedMap.mem_keys_iff _ _).1 hp
    have hvalues := hsaid.values p
    rw [hw, Option.map_some, eq_comm, Option.map_eq_some_iff] at hvalues
    obtain ⟨r, hr, -⟩ := hvalues
    obtain ⟨x, hlast, -⟩ := lastValue_eq_some_iff.1 hr
    exact ⟨x, hlast, FilterBinding.isSome_value?_iff.1 hlast.1⟩

/-- A placeholder that is bound for a property and then without one, and one the other way round. -/
def rebound : List FilterBinding :=
  [.valueFor ":t" "title" (.string "x"), .value ":u" (.string "y"), .value ":t" (.string "x"),
    .valueFor ":u" "title" (.string "y")]

/-- Strings in upper case. -/
def upperCase : Converter
  | .string s => .ok (.string (String.ofList (s.toList.map Char.toUpper)))
  | value => .error s!"cannot convert {value.kind}"

/-- Notes whose titles are written in upper case. -/
def shouted : EncodingContext :=
  ⟨noteSchema, ({} : ConverterRegistry).register "title" upperCase⟩

theorem the_last_binding_decides_the_encoding :
    ∃ b, (ofBindings "contains(:t, :u)" rebound).bind shouted = .ok b ∧
      IsLastValue ":t" (.value ":t" (.string "x")) rebound ∧ shouted.Unknown ":t" ∧
      IsLastValue ":u" (.valueFor ":u" "title" (.string "y")) rebound ∧
      b.values.get? ":t" = some (.string "x") ∧ b.values.get? ":u" = some (.string "Y") := by
  obtain ⟨b, hbind⟩ : ∃ b, (ofBindings "contains(:t, :u)" rebound).bind shouted = .ok b :=
    ⟨⟨"contains(:t, :u)", ∅, SortedMap.ofList [(":t", .string "x"), (":u", .string "Y")]⟩,
      by decide +kernel⟩
  obtain ⟨hvalue, hvalueFor, -⟩ := a_value_is_encoded_under_its_name hbind
  have ht : IsLastValue ":t" (.value ":t" (.string "x")) rebound :=
    ⟨rfl, rebound.take 2, rebound.drop 3, rfl, by simp [rebound, FilterBinding.value?]⟩
  have hu : IsLastValue ":u" (.valueFor ":u" "title" (.string "y")) rebound :=
    ⟨rfl, rebound.take 3, [], rfl, by simp⟩
  have hunknown : shouted.Unknown ":t" := ⟨by rfl, by decide⟩
  obtain ⟨w, hw, -, hinferred⟩ := hvalue _ _ ht
  cases hinferred hunknown
  obtain ⟨w', hw', hencode⟩ := hvalueFor _ _ _ hu
  have hupper : shouted.encode "title" (.string "y") none = .ok (.string "Y") := by decide +kernel
  rw [hupper] at hencode
  cases hencode
  exact ⟨b, hbind, ht, hunknown, hu, hw, hw'⟩

/-- Notes with a property that is named like a placeholder. -/
def numberedDraft : SchemaDraft :=
  SchemaDraft.declareAll { entity := "note" } [.partitionKey "id", .attributeType ":n" .number]

def numberedSchema : KeySchema :=
  { entity := "note"
    tableName := "note"
    shape := .partitionOnly "id"
    properties := numberedDraft.properties
    indexes := []
    memberships := ∅ }

/-- A string that is bound without a property becomes a number, as the type of a property says that
has the name of the placeholder. -/
theorem a_placeholder_may_be_taken_for_a_property :
    numberedSchema.Built ∧
      IsLastValue ":n" (.value ":n" (.string "18")) [.value ":n" (.string "18")] ∧
      ∃ b, (ofBindings ":n" [.value ":n" (.string "18")]).bind ⟨numberedSchema, {}⟩ = .ok b ∧
        b.values.get? ":n" = some (.number "18") ∧
        ¬ ∃ w, b.values.get? ":n" = some w ∧ (ClauseValue.string "18").encodeAs none = .ok w := by
  have hbind : (ofBindings ":n" [.value ":n" (.string "18")]).bind ⟨numberedSchema, {}⟩ =
      .ok ⟨":n", ∅, SortedMap.ofList [(":n", .number "18")]⟩ := by
    decide +kernel
  refine ⟨⟨numberedDraft, by decide⟩, ⟨rfl, [], [], rfl, by simp⟩, _, hbind, by decide, ?_⟩
  rintro ⟨w, hw, hinferred⟩
  cases hinferred
  revert hw
  decide

end RawFilter

end KeyAccess
