-- The law of described attributes: the properties that a descriptor tells anything of are held by
-- different attributes. A property with an entry that gives neither a name nor a type is silent, if
-- no key and no index has it: nothing is declared of it, so another property may be given the
-- attribute of its name.
import Mathlib
import KeyAccess.Document.Entity
import KeyAccess.Proofs.Schema.Declared

namespace KeyAccess

open Declaration

namespace EntityDescriptor

/-! ## What the declarations of a descriptor say -/

/-- The attribute that a descriptor gives to a property. -/
def givenName (d : EntityDescriptor) (property : String) : Option String :=
  (d.attributes.get? property).bind AttributeDescriptor.name

theorem filterMap_toList_map {α β γ : Type} (read : β → Option γ) (f : α → β) (o : Option α) :
    (o.map f).toList.filterMap read = (o.bind fun a => read (f a)).toList := by
  cases o with
  | none => rfl
  | some a => cases h : read (f a) <;> simp [h]

/-- What is read off the declarations is read off the parts of the descriptor, one after the
other. -/
theorem filterMap_declarations {α : Type} (read : Declaration → Option α) (d : EntityDescriptor) :
    d.declarations.filterMap read =
      (d.table.bind fun name => read (.table name)).toList ++
        (d.partitionKey.bind fun property => read (.partitionKey property)).toList ++
        (d.sortKey.bind fun property => read (.sortKey property)).toList ++
        d.attributes.entries.flatMap (fun e => (e.2.declarations e.1).filterMap read) ++
        d.indexes.filterMap fun i => read (.index i) := by
  unfold declarations
  simp only [List.filterMap_append, filterMap_toList_map, List.filterMap_flatMap,
    List.filterMap_map, Function.comp_def]

theorem filterMap_entry {α : Type} (read : Declaration → Option α) (a : AttributeDescriptor)
    (property : String) : (a.declarations property).filterMap read =
      (a.name.bind fun held => read (.attributeName property held)).toList ++
        (a.type.bind fun type => read (.attributeType property type)).toList := by
  unfold AttributeDescriptor.declarations
  rw [List.filterMap_append, filterMap_toList_map, filterMap_toList_map]

theorem partitionKeys_declarations (d : EntityDescriptor) :
    d.declarations.filterMap partitionKey? = d.partitionKey.toList := by
  rw [filterMap_declarations]
  simp [partitionKey?, filterMap_entry, List.flatMap_eq_nil_iff]

theorem partitionKeyOf_declarations (d : EntityDescriptor) :
    partitionKeyOf d.declarations = SchemaDraft.givenKey d.partitionKey := by
  unfold partitionKeyOf lastOf
  rw [partitionKeys_declarations]
  cases d.partitionKey <;> rfl

theorem sortKeys_declarations (d : EntityDescriptor) :
    d.declarations.filterMap sortKey? = d.sortKey.toList := by
  rw [filterMap_declarations]
  simp [sortKey?, filterMap_entry, List.flatMap_eq_nil_iff]

theorem sortKeyOf_declarations (d : EntityDescriptor) :
    sortKeyOf d.declarations = SchemaDraft.givenKey d.sortKey := by
  unfold sortKeyOf lastOf
  rw [sortKeys_declarations]
  cases d.sortKey <;> rfl

theorem indexesOf_declarations (d : EntityDescriptor) : indexesOf d.declarations = d.indexes := by
  unfold indexesOf
  rw [filterMap_declarations]
  simp [index?, filterMap_entry]

/-- What is read of one property is read off the entry of that property. -/
theorem filterMap_declarations_of_property {α : Type} {read : Declaration → Option α}
    {part : AttributeDescriptor → Option α} {property : String}
    (hother : ∀ x : Declaration, ¬ x.Declares property → read x = none)
    (hentry : ∀ a : AttributeDescriptor,
      (a.declarations property).filterMap read = (part a).toList) (d : EntityDescriptor) :
    d.declarations.filterMap read = ((d.attributes.get? property).bind part).toList := by
  have hentries : ∀ e : String × AttributeDescriptor, (e.2.declarations e.1).filterMap read =
      if e.1 = property then (part e.2).toList else [] := by
    rintro ⟨other, a⟩
    by_cases h : other = property
    · simp [h, hentry]
    · have hname : ∀ held, read (.attributeName other held) = none := fun held => hother _ h
      have htype : ∀ type, read (.attributeType other type) = none := fun type => hother _ h
      simp [filterMap_entry, hname, htype, h]
  have htable : ∀ name, read (.table name) = none := fun name => hother _ id
  have hpartition : ∀ key, read (.partitionKey key) = none := fun key => hother _ id
  have hsort : ∀ key, read (.sortKey key) = none := fun key => hother _ id
  have hindex : ∀ i, read (.index i) = none := fun i => hother _ id
  have hkey := d.attributes.flatMap_entries_of_key property fun a => (part a).toList
  simp only [← hentries] at hkey
  rw [filterMap_declarations, hkey]
  simp only [htable, hpartition, hsort, hindex]
  cases d.attributes.get? property <;> simp

theorem names_declarations (d : EntityDescriptor) (property : String) :
    d.declarations.filterMap (held? property) = (d.givenName property).toList := by
  refine filterMap_declarations_of_property (fun x hx => ?_) (fun a => ?_) d
  · cases x with
    | attributeName other _ => exact if_neg hx
    | _ => rfl
  · simp [filterMap_entry, held?]

theorem attributeOf_declarations (d : EntityDescriptor) (property : String) :
    attributeOf d.declarations property = (d.givenName property).getD property := by
  unfold attributeOf lastOf
  rw [names_declarations]
  cases d.givenName property <;> rfl

/-- Something is declared of the properties whose entry gives a name or a type. -/
theorem declares_declarations (d : EntityDescriptor) (property : String) :
    (∃ x ∈ d.declarations, x.Declares property) ↔
      ∃ a, d.attributes.get? property = some a ∧ a ≠ {} := by
  simp only [declarations, AttributeDescriptor.declarations, List.mem_append, Option.mem_toList,
    Option.map_eq_some_iff, List.mem_flatMap, List.mem_map, SortedMap.get?_eq_some_iff]
  constructor
  · rintro ⟨x, (((⟨_, -, rfl⟩ | ⟨_, -, rfl⟩) | ⟨_, -, rfl⟩) | ⟨⟨p, a⟩, he, hx⟩) | ⟨_, -, rfl⟩,
      hdeclares⟩
    · cases hdeclares
    · cases hdeclares
    · cases hdeclares
    · rcases hx with ⟨held, hheld, rfl⟩ | ⟨type, htype, rfl⟩
      · cases hdeclares
        refine ⟨a, he, ?_⟩
        rintro rfl
        cases hheld
      · cases hdeclares
        refine ⟨a, he, ?_⟩
        rintro rfl
        cases htype
    · cases hdeclares
  · rintro ⟨⟨name, type⟩, he, hne⟩
    cases name with
    | some held =>
      exact ⟨.attributeName property held, Or.inl (Or.inr ⟨_, he, Or.inl ⟨held, rfl, rfl⟩⟩), rfl⟩
    | none =>
      cases type with
      | some type =>
        exact ⟨.attributeType property type, Or.inl (Or.inr ⟨_, he, Or.inr ⟨type, rfl, rfl⟩⟩), rfl⟩
      | none => exact absurd rfl hne

/-! ## Silent properties -/

/-- A property that stands in the descriptor: with an entry of its own, as a key or in an index. -/
def Mentions (d : EntityDescriptor) (property : String) : Prop :=
  property ∈ d.attributes.keys ∨ d.partitionKey = some property ∨ d.sortKey = some property ∨
    ∃ i ∈ d.indexes, property ∈ i.members

/-- A property of which the descriptor tells nothing. A blank key is none. -/
structure Silent (d : EntityDescriptor) (property : String) : Prop where
  entry : ∀ a, d.attributes.get? property = some a → a = {}
  partition : SchemaDraft.givenKey d.partitionKey ≠ some property
  sort : SchemaDraft.givenKey d.sortKey ≠ some property
  indexes : ∀ i ∈ d.indexes, property ∉ i.members

theorem silent_iff (d : EntityDescriptor) (property : String) :
    d.Silent property ↔ ¬ Mentioned d.declarations property := by
  unfold Mentioned
  rw [declares_declarations, partitionKeyOf_declarations, sortKeyOf_declarations,
    indexesOf_declarations]
  constructor
  · rintro ⟨hentry, hpartition, hsort, hindexes⟩ (⟨a, ha, hne⟩ | h | h | ⟨i, hi, hmember⟩)
    · exact hne (hentry a ha)
    · exact hpartition h
    · exact hsort h
    · exact hindexes i hi hmember
  · intro h
    refine ⟨fun a ha => ?_, fun hp => h ?_, fun hs => h ?_, fun i hi hmember => h ?_⟩
    · by_contra hne
      exact h (Or.inl ⟨a, ha, hne⟩)
    · exact Or.inr (Or.inl hp)
    · exact Or.inr (Or.inr (Or.inl hs))
    · exact Or.inr (Or.inr (Or.inr ⟨i, hi, hmember⟩))

variable {d : EntityDescriptor} {definition : EntityDefinition}

theorem Silent.givenName_eq {property : String} (h : d.Silent property) :
    d.givenName property = none := by
  unfold givenName
  cases ha : d.attributes.get? property with
  | none => rfl
  | some a => rw [h.entry a ha, Option.bind_some]

theorem attributeName_of_toDefinition (h : d.toDefinition = .ok definition) (property : String) :
    definition.schema.attributeName property = (d.givenName property).getD property := by
  obtain ⟨schema, hschema, h⟩ := bind_eq_ok_iff.1 h
  cases h
  rw [← attributeOf_declarations, ← SchemaDraft.heldBy_declareAll d.entity,
    (SchemaDraft.build_eq_ok_iff.1 hschema).2.1]
  rfl

theorem injOn_of_toDefinition (h : d.toDefinition = .ok definition) :
    Set.InjOn definition.schema.attributeName {property | ¬ d.Silent property} := by
  have hheld : definition.schema.attributeName = attributeOf d.declarations := by
    funext property
    rw [attributeName_of_toDefinition h, attributeOf_declarations]
  obtain ⟨schema, hschema, -⟩ := bind_eq_ok_iff.1 h
  simp only [silent_iff, not_not, hheld]
  exact (SchemaDraft.build_declareAll_eq_ok_iff.1 hschema).2.2.2.attributes_differ

/-- A silent property is held by the attribute of its own name, which another property has only if
it is given that name. -/
theorem Silent.shares_iff {p q : String} (hp : d.Silent p) (h : d.toDefinition = .ok definition)
    (hne : p ≠ q) :
    definition.schema.attributeName p = definition.schema.attributeName q ↔
      d.givenName q = some p := by
  rw [attributeName_of_toDefinition h, attributeName_of_toDefinition h, hp.givenName_eq,
    Option.getD_none]
  cases d.givenName q with
  | none => simpa using hne
  | some held => simp [eq_comm]

/-! ## The law -/

/-- In the schema of a descriptor two properties are held by one attribute exactly if the descriptor
is silent about one of them and gives its name to the other. -/
theorem only_a_silent_property_shares_its_attribute (h : d.toDefinition = .ok definition)
    {p q : String} (hne : p ≠ q) :
    definition.schema.attributeName p = definition.schema.attributeName q ↔
      d.Silent p ∧ d.givenName q = some p ∨ d.Silent q ∧ d.givenName p = some q := by
  by_cases hp : d.Silent p
  · have hgiven : d.givenName p ≠ some q := by
      rw [hp.givenName_eq]
      nofun
    simp [hp.shares_iff h hne, hp, hgiven]
  · by_cases hq : d.Silent q
    · rw [eq_comm, hq.shares_iff h hne.symm]
      simp [hp, hq]
    · have hapart : definition.schema.attributeName p ≠ definition.schema.attributeName q :=
        fun heq => hne (injOn_of_toDefinition h hp hq heq)
      simp [hp, hq, hapart]

/-- Notes whose headings are held by the attribute `title`, beside an empty entry for titles. -/
def titledNote : EntityDescriptor where
  entity := "Note"
  partitionKey := some "id"
  attributes := SortedMap.ofList [("heading", { name := some "title" }), ("title", {})]

theorem a_heading_is_held_as_a_title :
    ∃ definition, titledNote.toDefinition = .ok definition ∧ "heading" ≠ "title" ∧
      titledNote.Silent "title" ∧ definition.schema.attributeName "heading" =
        definition.schema.attributeName "title" := by
  have hsilent : titledNote.Silent "title" := by
    refine ⟨fun a ha => ?_, by decide, by decide, by decide⟩
    have hempty : titledNote.attributes.get? "title" = some {} := by decide
    exact Option.some.inj (ha.symm.trans hempty)
  obtain ⟨definition, h⟩ : ∃ definition, titledNote.toDefinition = .ok definition := ⟨_, rfl⟩
  have hne : "heading" ≠ "title" := by decide
  exact ⟨definition, h, hne, hsilent,
    (only_a_silent_property_shares_its_attribute h hne).2 (Or.inr ⟨hsilent, by decide⟩)⟩

/-- The headings and the titles of these notes both stand in the descriptor, and still it is
accepted. -/
theorem mentioned_properties_may_share_an_attribute :
    ¬ ∀ (d : EntityDescriptor) (definition : EntityDefinition), d.toDefinition = .ok definition →
      Set.InjOn definition.schema.attributeName {property | d.Mentions property} := by
  intro hall
  obtain ⟨definition, h⟩ : ∃ definition, titledNote.toDefinition = .ok definition := ⟨_, rfl⟩
  have hheading : titledNote.Mentions "heading" := Or.inl (by decide)
  have htitle : titledNote.Mentions "title" := Or.inl (by decide)
  have hshared : definition.schema.attributeName "heading" =
      definition.schema.attributeName "title" := by
    rw [attributeName_of_toDefinition h, attributeName_of_toDefinition h]
    decide
  exact absurd (hall titledNote definition h hheading htitle hshared) (by decide)

end EntityDescriptor

end KeyAccess
