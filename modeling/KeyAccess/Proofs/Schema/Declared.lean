-- The law of declarations: an entity is accepted exactly if what its declarations say in the end is
-- well formed. Of each kind the last declaration counts, indexes add up, and any two properties
-- that the declarations mention must be held by different attributes.
import Mathlib
import KeyAccess.Proofs.Schema.Built

namespace KeyAccess

namespace Declaration

/-! ## What a declaration says -/

/-- The table name that it sets. -/
def table? : Declaration → Option String
  | table name => some name
  | _ => none

/-- The partition key that it sets. -/
def partitionKey? : Declaration → Option String
  | partitionKey property => some property
  | _ => none

/-- The sort key that it sets. -/
def sortKey? : Declaration → Option String
  | sortKey property => some property
  | _ => none

/-- The attribute that it gives to a property. -/
def held? (property : String) : Declaration → Option String
  | attributeName other held => if other = property then some held else none
  | _ => none

/-- The storage type that it gives to a property. -/
def type? (property : String) : Declaration → Option AttributeType
  | attributeType other type => if other = property then some type else none
  | _ => none

/-- The index that it adds. -/
def index? : Declaration → Option IndexDefinition
  | index definition => some definition
  | _ => none

/-- It names an attribute for the property or gives it a type. -/
def Declares (property : String) : Declaration → Prop
  | attributeName other _ => other = property
  | attributeType other _ => other = property
  | _ => False

/-! ## What declarations say in the end -/

/-- The last of the values that declarations give. -/
def lastOf {α : Type} (read : Declaration → Option α) (declarations : List Declaration) :
    Option α :=
  (declarations.filterMap read).getLast?

/-- The partition key, if one is set and not blank. -/
def partitionKeyOf (declarations : List Declaration) : Option String :=
  SchemaDraft.givenKey (lastOf partitionKey? declarations)

/-- The sort key, if one is set and not blank. -/
def sortKeyOf (declarations : List Declaration) : Option String :=
  SchemaDraft.givenKey (lastOf sortKey? declarations)

/-- The indexes, in the order of their declaration. -/
def indexesOf (declarations : List Declaration) : List IndexDefinition :=
  declarations.filterMap index?

/-- The attribute that holds a property: the last one that is given to it, else the one of its own
name. -/
def attributeOf (declarations : List Declaration) (property : String) : String :=
  (lastOf (held? property) declarations).getD property

/-- What is declared of a property in the end, if anything is. -/
def propertyOf (declarations : List Declaration) (property : String) : Option PropertyDef :=
  match lastOf (held? property) declarations, lastOf (type? property) declarations with
  | none, none => none
  | held, type => some { attributeName := held, attributeType := type }

/-- A property that is declared itself, or is in the primary key or in an index. -/
def Mentioned (declarations : List Declaration) (property : String) : Prop :=
  (∃ x ∈ declarations, x.Declares property) ∨ partitionKeyOf declarations = some property ∨
    sortKeyOf declarations = some property ∨ ∃ i ∈ indexesOf declarations, property ∈ i.members

/-- In the end both say the same, of each part by itself. -/
structure SayTheSame (declarations others : List Declaration) : Prop where
  table : lastOf table? declarations = lastOf table? others
  partitionKey : lastOf partitionKey? declarations = lastOf partitionKey? others
  sortKey : lastOf sortKey? declarations = lastOf sortKey? others
  names : ∀ property, lastOf (held? property) declarations = lastOf (held? property) others
  types : ∀ property, lastOf (type? property) declarations = lastOf (type? property) others
  indexes : indexesOf declarations = indexesOf others

structure WellFormed (declarations : List Declaration) : Prop where
  partition : ∃ property, partitionKeyOf declarations = some property
  keys_differ : ∀ property, sortKeyOf declarations = some property →
    partitionKeyOf declarations ≠ some property
  names_differ : ((indexesOf declarations).map IndexDefinition.name).Nodup
  indexes : ∀ i ∈ indexesOf declarations, SchemaDraft.SoundIndex i
  attributes_differ :
    Set.InjOn (attributeOf declarations) {property | Mentioned declarations property}

end Declaration

/-! ## The draft of some declarations -/

attribute [ext] SchemaDraft

namespace SchemaDraft

open Declaration

/-- A part of the draft that a declaration sets or leaves alone holds the last value that is set. -/
theorem part_declareAll {α : Type} (part : SchemaDraft → Option α) (read : Declaration → Option α)
    (hstep : ∀ d x, part (d.declare x) = (read x).or (part d)) (d : SchemaDraft)
    (declarations : List Declaration) :
    part (d.declareAll declarations) = (lastOf read declarations).or (part d) :=
  SortedMap.foldl_last part declare read hstep d declarations

theorem partition_declareAll (d : SchemaDraft) (declarations : List Declaration) :
    (d.declareAll declarations).partition = (lastOf partitionKey? declarations).or d.partition := by
  apply part_declareAll SchemaDraft.partition
  intro d x
  cases x <;> rfl

theorem sort_declareAll (d : SchemaDraft) (declarations : List Declaration) :
    (d.declareAll declarations).sort = (lastOf sortKey? declarations).or d.sort := by
  apply part_declareAll SchemaDraft.sort
  intro d x
  cases x <;> rfl

theorem tableName_declareAll (d : SchemaDraft) (declarations : List Declaration) :
    (d.declareAll declarations).tableName = (lastOf table? declarations).or d.tableName := by
  apply part_declareAll SchemaDraft.tableName
  intro d x
  cases x <;> rfl

/-- A name and a type that are declared of one property change its entry without touching each
other. -/
theorem get?_declareAll (entity : String) (declarations : List Declaration) (property : String) :
    (declareAll { entity } declarations).properties.get? property =
      propertyOf declarations property := by
  have hlast {α : Type} (read : Declaration → Option α) (rest : List Declaration) (x : Declaration) :
      lastOf read (rest ++ [x]) = (read x).or (lastOf read rest) := by
    unfold lastOf
    cases hx : read x <;> simp [hx]
  induction declarations using List.reverseRecOn with
  | nil => rfl
  | append_singleton rest x ih =>
    unfold declareAll propertyOf at ih ⊢
    rw [List.foldl_concat]
    simp only [hlast]
    cases x with
    | attributeName other _ | attributeType other _ =>
      by_cases h : other = property
      · subst h
        cases hname : lastOf (held? other) rest <;> cases htype : lastOf (type? other) rest <;>
          simp [declare, SortedMap.get?_update, held?, type?, ih, hname, htype]
      · simp [declare, SortedMap.get?_update, held?, type?, ih, h, Ne.symm h]
    | table _ | partitionKey _ | sortKey _ | index _ => exact ih

theorem heldBy_declareAll (entity : String) (declarations : List Declaration) (property : String) :
    heldBy (declareAll { entity } declarations).properties property =
      attributeOf declarations property := by
  unfold heldBy attributeOf
  rw [get?_declareAll]
  unfold propertyOf
  cases lastOf (held? property) declarations <;> cases lastOf (type? property) declarations <;> rfl

theorem indexes_declareAll (d : SchemaDraft) (declarations : List Declaration) :
    (d.declareAll declarations).indexes = d.indexes ++ indexesOf declarations := by
  unfold declareAll indexesOf
  induction declarations generalizing d with
  | nil => simp
  | cons x rest ih =>
    rw [List.foldl_cons, ih, List.filterMap_cons]
    cases x <;> simp [declare, index?]

/-- A draft is known by what is said of its parts in the end. -/
theorem declareAll_congr (entity : String) {declarations others : List Declaration}
    (h : SayTheSame declarations others) :
    declareAll { entity } declarations = declareAll { entity } others := by
  ext1
  case entity => rw [entity_declareAll, entity_declareAll]
  case tableName => rw [tableName_declareAll, tableName_declareAll, h.table]
  case partition => rw [partition_declareAll, partition_declareAll, h.partitionKey]
  case sort => rw [sort_declareAll, sort_declareAll, h.sortKey]
  case properties =>
    refine SortedMap.ext_get? (fun property => ?_)
    rw [get?_declareAll, get?_declareAll, propertyOf, propertyOf, h.names, h.types]
  case indexes => rw [indexes_declareAll, indexes_declareAll, h.indexes]

theorem mem_keys_declareAll (d : SchemaDraft) (declarations : List Declaration)
    (property : String) :
    property ∈ (d.declareAll declarations).properties.keys ↔
      (∃ x ∈ declarations, x.Declares property) ∨ property ∈ d.properties.keys := by
  have hstep : ∀ (d : SchemaDraft) x, property ∈ (d.declare x).properties.keys ↔
      x.Declares property ∨ property ∈ d.properties.keys := by
    intro d x
    cases x with
    | attributeName other _ | attributeType other _ =>
      simp only [declare, Declares, SortedMap.mem_keys_iff, SortedMap.get?_update]
      by_cases h : property = other <;> simp [h, eq_comm]
    | table _ | partitionKey _ | sortKey _ | index _ => simp [declare, Declares]
  unfold declareAll
  induction declarations generalizing d with
  | nil => simp
  | cons x rest ih =>
    rw [List.foldl_cons]
    refine (ih (d.declare x)).trans ?_
    rw [hstep, List.exists_mem_cons_iff, or_left_comm, or_assoc]

/-- The draft knows the properties that its declarations mention. -/
theorem knows_declareAll (entity : String) (declarations : List Declaration) (property : String) :
    (declareAll { entity } declarations).Knows property ↔ Mentioned declarations property := by
  unfold Knows Mentioned partitionKeyOf sortKeyOf
  rw [mem_keys_declareAll, partition_declareAll, sort_declareAll, indexes_declareAll]
  simp [SortedMap.mem_keys_iff]

theorem build_declareAll_eq_ok_iff {entity : String} {declarations : List Declaration}
    {s : KeySchema} :
    (declareAll { entity } declarations).build = .ok s ↔
      s = (declareAll { entity } declarations).schemaWith s.shape ∧
        partitionKeyOf declarations = some s.partitionKey ∧
        sortKeyOf declarations = s.sortKey ∧ WellFormed declarations := by
  have hattribute : heldBy (declareAll { entity } declarations).properties =
      attributeOf declarations := funext (heldBy_declareAll entity declarations)
  rw [build_eq_ok_iff, keyShape_eq_ok_iff, hattribute, partition_declareAll, sort_declareAll,
    indexes_declareAll]
  simp only [knows_declareAll, Option.or_none, List.nil_append]
  constructor
  · rintro ⟨⟨hp, hsort, hdiffer⟩, hs, hnames, hindexes, hinj⟩
    refine ⟨hs, hp, hsort, ⟨_, hp⟩, fun property hproperty heq => ?_, hnames, hindexes, hinj⟩
    exact hdiffer (hsort.symm.trans (hproperty.trans (heq.symm.trans hp)))
  · rintro ⟨hs, hp, hsort, hwell⟩
    refine ⟨⟨hp, hsort, fun heq => ?_⟩, hs, hwell.names_differ, hwell.indexes,
      hwell.attributes_differ⟩
    exact hwell.keys_differ _ (hsort.trans heq) hp

end SchemaDraft

/-! ## The law -/

open Declaration

/-- Declarations make a schema exactly if they are well formed. In the schema each property is held
by the attribute that the declarations give it, no two mentioned properties are held by one, and the
key is composite exactly if a sort key is set and not blank. -/
theorem declarations_are_accepted_exactly_if_well_formed (entity : String)
    (declarations : List Declaration) :
    ((∃ s, (SchemaDraft.declareAll { entity } declarations).build = .ok s) ↔
      WellFormed declarations) ∧
    ∀ s, (SchemaDraft.declareAll { entity } declarations).build = .ok s →
      s.attributeName = attributeOf declarations ∧
      Set.InjOn s.attributeName {property | Mentioned declarations property} ∧
      partitionKeyOf declarations = some s.partitionKey ∧
      sortKeyOf declarations = s.sortKey ∧
      ((∃ partition sort, s.shape = .partitionAndSort partition sort) ↔
        ∃ sort, sortKeyOf declarations = some sort) := by
  refine ⟨⟨?_, fun hwell => ?_⟩, fun s hs => ?_⟩
  · rintro ⟨s, hs⟩
    exact (SchemaDraft.build_declareAll_eq_ok_iff.1 hs).2.2.2
  · obtain ⟨partition, hpartition⟩ := hwell.partition
    cases hsort : sortKeyOf declarations with
    | none =>
      exact ⟨SchemaDraft.schemaWith _ (.partitionOnly partition),
        SchemaDraft.build_declareAll_eq_ok_iff.2 ⟨rfl, hpartition, hsort, hwell⟩⟩
    | some sort =>
      exact ⟨SchemaDraft.schemaWith _ (.partitionAndSort partition sort),
        SchemaDraft.build_declareAll_eq_ok_iff.2 ⟨rfl, hpartition, hsort, hwell⟩⟩
  · obtain ⟨heq, hpartition, hsort, hwell⟩ := SchemaDraft.build_declareAll_eq_ok_iff.1 hs
    have hheld : s.attributeName = attributeOf declarations := by
      rw [heq]
      exact funext (SchemaDraft.heldBy_declareAll entity declarations)
    refine ⟨hheld, hheld ▸ hwell.attributes_differ, hpartition, hsort, ?_⟩
    rw [hsort]
    unfold KeySchema.sortKey
    cases s.shape <;> simp [KeyShape.sort]

/-- Notes whose author and day are held by attributes with each other's names. Of the two partition
keys the second counts, and the blank sort key is none. -/
def swappedNames : List Declaration :=
  [.partitionKey "topic", .partitionKey "author", .sortKey " ", .attributeName "author" "day",
    .attributeName "day" "place", .attributeName "day" "author",
    .index ⟨"topicDays", "topic", some "day"⟩]

theorem swapped_names_are_accepted :
    WellFormed swappedNames ∧
      ∃ s, (SchemaDraft.declareAll { entity := "note" } swappedNames).build = .ok s ∧
        s.attributeName "author" = "day" ∧ s.attributeName "day" = "author" ∧
        s.partitionKey = "author" ∧ s.sortKey = none := by
  obtain ⟨hiff, hschema⟩ := declarations_are_accepted_exactly_if_well_formed "note" swappedNames
  have hbuilt : (SchemaDraft.declareAll { entity := "note" } swappedNames).build =
      .ok (SchemaDraft.schemaWith (SchemaDraft.declareAll { entity := "note" } swappedNames)
        (.partitionOnly "author")) := by
    decide
  obtain ⟨hheld, -⟩ := hschema _ hbuilt
  refine ⟨hiff.1 ⟨_, hbuilt⟩, _, hbuilt, ?_, ?_, rfl, rfl⟩
  · rw [hheld]
    decide
  · rw [hheld]
    decide

end KeyAccess
