-- Declarations survive their JSON text: what is written of a descriptor, of any part of it, of a
-- value or of a condition is read as it again. So the text of a descriptor is loaded exactly if the
-- descriptor is a sound declaration, and the definition that is registered is the declared one.
import Mathlib
import KeyAccess.Document.Value
import KeyAccess.Proofs.Json.ReadBack
import KeyAccess.Proofs.Registry.Additions
import KeyAccess.Proofs.Schema.Built

namespace KeyAccess

open KeyAccess.Json

/-! ## Choices and options -/

theorem AttributeType.reads (t : AttributeType) : Reads AttributeType.read t.tokens t :=
  reads_name (by cases t <;> rfl)

theorem ConsistencyMode.reads (m : ConsistencyMode) : Reads ConsistencyMode.read m.tokens m :=
  reads_name (by cases m <;> rfl)

theorem ComparisonOperator.reads (o : ComparisonOperator) :
    Reads ComparisonOperator.read o.tokens o :=
  reads_name (by cases o <;> rfl)

/-- What is read by its name may be missing. -/
theorem reads_optionTokens {α : Type} {read : Reader α} {name : α → String}
    (h : ∀ x, Reads read [.text (name x)] x) (x : Option α) :
    Reads (readOption read) (optionTokens (x.map name)) x := by
  cases x with
  | none => exact reads_null
  | some x => exact (h x).some (by simp [Token.text])

theorem reads_optionText (s : Option String) :
    Reads (readOption readString) (optionTokens s) s := by
  simpa using reads_optionTokens reads_text s

/-! ## Values and conditions -/

theorem AttributeValue.reads (v : AttributeValue) : Reads AttributeValue.read v.tokens v := by
  cases v with
  | string s => exact reads_variant rfl ((reads_text s).map AttributeValue.string)
  | number n => exact reads_variant rfl ((reads_text n).map AttributeValue.number)
  | boolean b => exact reads_variant rfl ((reads_boolean b).map AttributeValue.boolean)

theorem Condition.reads (c : Condition) : Reads Condition.read c.tokens c := by
  obtain ⟨o, values⟩ := c
  -- an empty list of values is not written, and is what a condition without values has
  cases values with
  | nil => exact reads_record (.member rfl rfl (reads_field _ o.reads) (.whole rfl))
  | cons v values =>
    exact reads_record
      (.member rfl rfl (reads_field _ o.reads)
        (.member rfl rfl (reads_field _ (reads_list fun v _ => v.reads))
          (.whole rfl)))

/-! ## Configurations -/

theorem ScanPolicy.reads (p : ScanPolicy) : Reads ScanPolicy.read p.tokens p :=
  reads_record
    (.member rfl rfl (reads_field _ (reads_boolean p.enabled))
      (.member rfl rfl (reads_field _ (reads_boolean p.countEnabled))
        (.whole rfl)))

theorem QueryConfig.reads (c : QueryConfig) : Reads QueryConfig.read c.tokens c :=
  reads_record
    (.member rfl rfl (reads_field _ c.scan.reads)
      (.member rfl rfl (reads_field _ c.consistency.reads)
        (.whole rfl)))

/-! ## Descriptors -/

theorem IndexDefinition.reads (i : IndexDefinition) : Reads IndexDefinition.read i.tokens i :=
  reads_record
    (.member rfl rfl (reads_field _ (reads_text i.name))
      (.member rfl rfl (reads_field _ (reads_text i.partition))
        (.member rfl rfl (reads_field _ (reads_optionText i.sort))
          (.whole rfl))))

theorem AttributeDescriptor.reads (a : AttributeDescriptor) :
    Reads AttributeDescriptor.read a.tokens a :=
  reads_record
    (.member rfl rfl (reads_field _ (reads_optionText a.name))
      (.member rfl rfl (reads_field _ (reads_optionTokens AttributeType.reads a.type))
        (.whole rfl)))

theorem EntityDescriptor.reads (d : EntityDescriptor) :
    Reads EntityDescriptor.read d.tokens d :=
  reads_record
    (.member rfl rfl (reads_field _ (reads_text d.entity))
      (.member rfl rfl (reads_field _ (reads_optionText d.table))
        (.member rfl rfl (reads_field _ (reads_optionText d.partitionKey))
          (.member rfl rfl (reads_field _ (reads_optionText d.sortKey))
            (.member rfl rfl (reads_field _ (reads_map fun e _ => e.2.reads))
              (.member rfl rfl (reads_field _ (reads_list fun i _ => i.reads))
                (.member rfl rfl (reads_field _ d.query.reads)
                  (.whole rfl))))))))

/-- A definition is of the entity that was described. -/
theorem EntityDescriptor.entity_of_toDefinition {d : EntityDescriptor}
    {definition : EntityDefinition} (h : d.toDefinition = .ok definition) :
    definition.schema.entity = d.entity := by
  obtain ⟨schema, hschema, h⟩ := bind_eq_ok_iff.1 h
  cases h
  change schema.entity = d.entity
  rw [SchemaDraft.entity_of_build hschema, SchemaDraft.entity_declareAll]

/-! ## Loads -/

theorem Registry.definitionOf_render (source : String) (d : EntityDescriptor) :
    Registry.definitionOf source (render d.tokens) = d.toDefinition := by
  unfold Registry.definitionOf
  rw [decode_render d.reads]

theorem Registry.loadText_render {r : Registry} {d : EntityDescriptor}
    {definition : EntityDefinition} (source : String) (hfresh : r.get? d.entity = none)
    (h : d.toDefinition = .ok definition) :
    (r.loadText source (render d.tokens)).outcome = .ok d.entity ∧
      Registry.Added r [definition] (r.loadText source (render d.tokens)).registry := by
  have hentity := d.entity_of_toDefinition h
  have hregister := Registry.register_eq_ok_iff.2 ⟨hentity ▸ hfresh, rfl⟩
  unfold Registry.loadText
  rw [Registry.definitionOf_render, h]
  simp only [hregister]
  exact ⟨congrArg Except.ok hentity, Registry.added_register hregister⟩

theorem Registry.loadText_render_error (r : Registry) (source : String) {d : EntityDescriptor}
    {e : SchemaError} (h : d.toDefinition = .error e) :
    r.loadText source (render d.tokens) = ⟨r, [], .error e⟩ := by
  unfold Registry.loadText
  rw [Registry.definitionOf_render, h]

/-! ## The law -/

/-- What is written of a value is read as that value again. -/
def RoundTrips {α : Type} (write : α → List Token) (read : Reader α) : Prop :=
  ∀ x, decode read (render (write x)) = .ok x

/-- Everything that is declared survives its text. A registry that has no definition of the entity
loads the text of a descriptor exactly if the descriptor is sound; then it holds the definition that
was declared and everything that it held before, and else it stays as it is and the fault is the
fault of the descriptor. -/
theorem declarations_survive_their_text :
    RoundTrips EntityDescriptor.tokens EntityDescriptor.read ∧
      RoundTrips AttributeDescriptor.tokens AttributeDescriptor.read ∧
      RoundTrips IndexDefinition.tokens IndexDefinition.read ∧
      RoundTrips QueryConfig.tokens QueryConfig.read ∧
      RoundTrips ScanPolicy.tokens ScanPolicy.read ∧
      RoundTrips ConsistencyMode.tokens ConsistencyMode.read ∧
      RoundTrips AttributeType.tokens AttributeType.read ∧
      RoundTrips ComparisonOperator.tokens ComparisonOperator.read ∧
      RoundTrips Condition.tokens Condition.read ∧
      RoundTrips AttributeValue.tokens AttributeValue.read ∧
      ∀ (r : Registry) (source : String) (d : EntityDescriptor), r.get? d.entity = none →
        (∀ definition, d.toDefinition = .ok definition →
          (r.loadText source (render d.tokens)).outcome = .ok d.entity ∧
            (r.loadText source (render d.tokens)).registry.get? d.entity = some definition ∧
            Registry.Added r [definition] (r.loadText source (render d.tokens)).registry) ∧
        ∀ e, d.toDefinition = .error e →
          (r.loadText source (render d.tokens)).outcome = .error e ∧
            (r.loadText source (render d.tokens)).registry = r := by
  refine ⟨fun d => decode_render d.reads, fun a => decode_render a.reads,
    fun i => decode_render i.reads, fun c => decode_render c.reads,
    fun p => decode_render p.reads, fun m => decode_render m.reads,
    fun t => decode_render t.reads, fun o => decode_render o.reads,
    fun c => decode_render c.reads, fun v => decode_render v.reads, ?_⟩
  intro r source d hfresh
  constructor
  · intro definition h
    obtain ⟨houtcome, hadded⟩ := Registry.loadText_render source hfresh h
    have hheld := hadded.holds (List.mem_singleton.2 rfl)
    rw [d.entity_of_toDefinition h] at hheld
    exact ⟨houtcome, hheld, hadded⟩
  · intro e h
    rw [r.loadText_render_error source h]
    exact ⟨rfl, rfl⟩

/-- A descriptor with names that are not written as they stand. -/
def oddNote : EntityDescriptor where
  entity := "note \"\\\x01\n"
  partitionKey := some "/𝄞\x7f"
  attributes := SortedMap.ofList [("day", ⟨some "\t", some .temporal⟩), ("", {})]
  indexes := [⟨"by day", "/𝄞\x7f", some "day"⟩, ⟨"days", "day", none⟩]
  query := ⟨⟨false, true⟩, .eventual⟩

theorem odd_note_survives_its_text :
    ({} : Registry).get? oddNote.entity = none ∧
      ∃ definition, oddNote.toDefinition = .ok definition ∧
        (({} : Registry).loadText "notes" (render oddNote.tokens)).outcome =
          .ok "note \"\\\x01\n" ∧
        (({} : Registry).loadText "notes" (render oddNote.tokens)).registry.get?
          "note \"\\\x01\n" = some definition := by
  obtain ⟨-, -, -, -, -, -, -, -, -, -, hload⟩ := declarations_survive_their_text
  have hfresh : ({} : Registry).get? oddNote.entity = none := rfl
  have hsound : oddNote.toDefinition.isOk = true := by decide +kernel
  cases hd : oddNote.toDefinition with
  | error e =>
    rw [hd] at hsound
    cases hsound
  | ok definition =>
    obtain ⟨houtcome, hheld, -⟩ := (hload {} "notes" oddNote hfresh).1 definition hd
    exact ⟨hfresh, definition, rfl, houtcome, hheld⟩

end KeyAccess
