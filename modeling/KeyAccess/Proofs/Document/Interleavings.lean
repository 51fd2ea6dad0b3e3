-- The law of the two ways to a schema: by a descriptor, or by declarations that are made one after
-- the other. If these declare what the descriptor declares, in whatever order, both ways end in the
-- same schema, or at the same fault.
import Mathlib
import KeyAccess.Proofs.Document.Attributes

namespace KeyAccess

open Declaration

namespace EntityDescriptor

/-! ## Declarations of one descriptor -/

/-- The type that a descriptor gives to a property. -/
def givenType (d : EntityDescriptor) (property : String) : Option AttributeType :=
  (d.attributes.get? property).bind AttributeDescriptor.type

/-- The declarations say once each thing that the descriptor gives, and the indexes in its order. -/
structure Spells (d : EntityDescriptor) (declarations : List Declaration) : Prop where
  table : declarations.filterMap table? = d.table.toList
  partitionKey : declarations.filterMap partitionKey? = d.partitionKey.toList
  sortKey : declarations.filterMap sortKey? = d.sortKey.toList
  names : ∀ property, declarations.filterMap (held? property) = (d.givenName property).toList
  types : ∀ property, declarations.filterMap (type? property) = (d.givenType property).toList
  indexes : indexesOf declarations = d.indexes

theorem types_declarations (d : EntityDescriptor) (property : String) :
    d.declarations.filterMap (type? property) = (d.givenType property).toList := by
  refine filterMap_declarations_of_property (fun x hx => ?_) (fun a => ?_) d
  · cases x with
    | attributeType other _ => exact if_neg hx
    | _ => rfl
  · simp [filterMap_entry, type?]

theorem spells_declarations (d : EntityDescriptor) : d.Spells d.declarations where
  table := by
    rw [filterMap_declarations]
    simp [table?, filterMap_entry, List.flatMap_eq_nil_iff]
  partitionKey := d.partitionKeys_declarations
  sortKey := d.sortKeys_declarations
  names := d.names_declarations
  types := d.types_declarations
  indexes := d.indexesOf_declarations

variable {d : EntityDescriptor} {declarations others : List Declaration}

/-! ## Interleavings -/

/-- There is only one order of one thing. -/
theorem filterMap_of_perm {α : Type} {read : Declaration → Option α} {given : Option α}
    (hperm : declarations.Perm others) (h : others.filterMap read = given.toList) :
    declarations.filterMap read = given.toList := by
  have hread := hperm.filterMap read
  rw [h] at hread
  cases given with
  | none => exact hread.eq_nil
  | some a => exact List.perm_singleton.1 hread

theorem Spells.of_perm (h : d.Spells others) (hperm : declarations.Perm others)
    (hindexes : indexesOf declarations = d.indexes) : d.Spells declarations where
  table := filterMap_of_perm hperm h.table
  partitionKey := filterMap_of_perm hperm h.partitionKey
  sortKey := filterMap_of_perm hperm h.sortKey
  names property := filterMap_of_perm hperm (h.names property)
  types property := filterMap_of_perm hperm (h.types property)
  indexes := hindexes

/-- A declaration stands among others as often as what it says is read off them. -/
theorem count_eq_of_read {α : Type} [DecidableEq α] (read : Declaration → Option α)
    {x : Declaration} {a : α} (hread : ∀ y, read y = some a ↔ y = x)
    (heq : declarations.filterMap read = others.filterMap read) :
    declarations.count x = others.count x := by
  have hcount (l : List Declaration) : l.count x = (l.filterMap read).count a := by
    rw [List.count_filterMap, List.count]
    refine List.countP_congr fun y _ => ?_
    rw [beq_iff_eq, beq_iff_eq, hread]
  rw [hcount, hcount, heq]

theorem Spells.perm (h : d.Spells declarations) (h' : d.Spells others) :
    declarations.Perm others := by
  rw [List.perm_iff_count]
  intro x
  cases x with
  | table name =>
    refine count_eq_of_read table? (a := name) ?_ (h.table.trans h'.table.symm)
    intro y
    cases y <;> simp [table?]
  | partitionKey property =>
    refine count_eq_of_read partitionKey? (a := property) ?_
      (h.partitionKey.trans h'.partitionKey.symm)
    intro y
    cases y <;> simp [partitionKey?]
  | sortKey property =>
    refine count_eq_of_read sortKey? (a := property) ?_ (h.sortKey.trans h'.sortKey.symm)
    intro y
    cases y <;> simp [sortKey?]
  | attributeName property held =>
    refine count_eq_of_read (held? property) (a := held) ?_
      ((h.names property).trans (h'.names property).symm)
    intro y
    cases y <;> simp [held?]
  | attributeType property type =>
    refine count_eq_of_read (type? property) (a := type) ?_
      ((h.types property).trans (h'.types property).symm)
    intro y
    cases y <;> simp [type?]
  | index definition =>
    refine count_eq_of_read Declaration.index? (a := definition) ?_
      (h.indexes.trans h'.indexes.symm)
    intro y
    cases y <;> simp [Declaration.index?]

/-- What spells a descriptor are its declarations in any order that keeps that of the indexes. -/
theorem spells_iff_perm : d.Spells declarations ↔
    declarations.Perm d.declarations ∧ indexesOf declarations = d.indexes :=
  ⟨fun h => ⟨h.perm d.spells_declarations, h.indexes⟩,
    fun ⟨hperm, hindexes⟩ => d.spells_declarations.of_perm hperm hindexes⟩

/-! ## The law -/

theorem Spells.sayTheSame (h : d.Spells declarations) (h' : d.Spells others) :
    SayTheSame declarations others where
  table := congrArg List.getLast? (h.table.trans h'.table.symm)
  partitionKey := congrArg List.getLast? (h.partitionKey.trans h'.partitionKey.symm)
  sortKey := congrArg List.getLast? (h.sortKey.trans h'.sortKey.symm)
  names property := congrArg List.getLast? ((h.names property).trans (h'.names property).symm)
  types property := congrArg List.getLast? ((h.types property).trans (h'.types property).symm)
  indexes := h.indexes.trans h'.indexes.symm

/-- Declarations that spell a descriptor, in whatever order, make the schema that the descriptor
makes, with its query configuration beside it, or fail as the descriptor does. -/
theorem a_descriptor_makes_what_its_declarations_make (h : d.Spells declarations) :
    let draft := SchemaDraft.declareAll { entity := d.entity } declarations
    (∀ definition, d.toDefinition = .ok definition ↔
      ∃ schema, draft.build = .ok schema ∧ definition = ⟨schema, d.query⟩) ∧
    ∀ e, d.toDefinition = .error e ↔ draft.build = .error e := by
  intro draft
  have hdraft : draft = SchemaDraft.declareAll { entity := d.entity } d.declarations :=
    SchemaDraft.declareAll_congr d.entity (h.sayTheSame d.spells_declarations)
  have hdefinition : d.toDefinition = (draft.build >>= fun schema => .ok ⟨schema, d.query⟩) := by
    rw [hdraft]
    rfl
  rw [hdefinition]
  constructor
  · intro definition
    rw [bind_eq_ok_iff]
    refine exists_congr fun schema => and_congr_right fun _ => ?_
    rw [Except.ok.injEq, eq_comm]
  · intro e
    rw [bind_eq_error_iff]
    simp

/-- Notes with two indexes, one property that is given a name and a type, and one that is given a
type only. -/
def datedNote : EntityDescriptor where
  entity := "note"
  table := some "notes"
  partitionKey := some "author"
  sortKey := some "day"
  attributes := SortedMap.ofList
    [("day", ⟨some "d", some .temporal⟩), ("title", {}), ("topic", ⟨none, some .string⟩)]
  indexes := [⟨"topics", "topic", none⟩, ⟨"topicDays", "topic", some "day"⟩]
  query := { scan := .disabled }

/-- What is declared of dated notes, mixed up. -/
def mixedDeclarations : List Declaration :=
  [.index ⟨"topics", "topic", none⟩, .attributeType "day" .temporal, .sortKey "day",
    .attributeType "topic" .string, .index ⟨"topicDays", "topic", some "day"⟩,
    .attributeName "day" "d", .partitionKey "author", .table "notes"]

/-- The schema of dated notes. -/
def datedSchema : KeySchema where
  entity := "note"
  tableName := "notes"
  shape := .partitionAndSort "author" "day"
  properties := SortedMap.ofList
    [("day", ⟨some "d", some .temporal⟩), ("topic", ⟨none, some .string⟩)]
  indexes := [⟨"topics", "topic", none⟩, ⟨"topicDays", "topic", some "day"⟩]
  memberships := SortedMap.ofList
    [("day", [("topicDays", .sort)]),
      ("topic", [("topics", .partition), ("topicDays", .partition)])]

/-- The mixed declarations make the schema of the dated notes. -/
theorem mixed_declarations_make_dated_notes :
    datedNote.Spells mixedDeclarations ∧
      (SchemaDraft.declareAll { entity := "note" } mixedDeclarations).build = .ok datedSchema ∧
      datedNote.toDefinition = .ok ⟨datedSchema, { scan := .disabled }⟩ := by
  have hspells : datedNote.Spells mixedDeclarations :=
    spells_iff_perm.2 ⟨by decide, rfl⟩
  have hdefinition : datedNote.toDefinition = .ok ⟨datedSchema, { scan := .disabled }⟩ := by
    decide +kernel
  obtain ⟨schema, hbuilt, hschema⟩ :=
    ((a_descriptor_makes_what_its_declarations_make hspells).1 _).1 hdefinition
  cases hschema
  exact ⟨hspells, hbuilt, hdefinition⟩

end EntityDescriptor

end KeyAccess
