-- What a schema that was built can be relied on for: its two keys differ, its indexes have names of
-- their own and two different members each, and no two of the properties that it knows are held by
-- one attribute.
import Mathlib
import KeyAccess.Schema.Draft
import KeyAccess.Proofs.Outcome
import KeyAccess.Proofs.SortedMap

namespace KeyAccess

namespace KeySchema

/-- The schema of a draft that passed every check. -/
def Built (s : KeySchema) : Prop := ∃ d : SchemaDraft, d.build = .ok s

/-- A property of the declarations, of the primary key or of an index. -/
def Knows (s : KeySchema) (property : String) : Prop :=
  property ∈ s.properties.keys ∨ property = s.partitionKey ∨ s.sortKey = some property ∨
    ∃ i ∈ s.indexes, property ∈ i.members

structure Sound (s : KeySchema) : Prop where
  keys_differ : s.sortKey ≠ some s.partitionKey
  names_differ : (s.indexes.map IndexDefinition.name).Nodup
  members_differ : ∀ i ∈ s.indexes, i.sort ≠ some i.partition
  attributes_differ : ∀ p q, s.Knows p → s.Knows q → s.attributeName p = s.attributeName q → p = q

theorem knows_partitionKey (s : KeySchema) : s.Knows s.partitionKey := Or.inr (Or.inl rfl)

theorem knows_sortKey {s : KeySchema} {property : String} (h : s.sortKey = some property) :
    s.Knows property := Or.inr (Or.inr (Or.inl h))

theorem knows_member {s : KeySchema} {i : IndexDefinition} {property : String}
    (hi : i ∈ s.indexes) (h : property ∈ i.members) : s.Knows property :=
  Or.inr (Or.inr (Or.inr ⟨i, hi, h⟩))

/-- The index with a name is the only one that has it. -/
theorem Sound.index?_eq {s : KeySchema} (h : s.Sound) {i : IndexDefinition}
    (hi : i ∈ s.indexes) : s.index? i.name = some i := by
  unfold index?
  cases hf : s.indexes.find? (fun j => j.name == i.name) with
  | none =>
    rw [List.find?_eq_none] at hf
    exact absurd (hf i hi) (by simp)
  | some j =>
    have hname : j.name = i.name := by simpa using List.find?_some hf
    rw [List.inj_on_of_nodup_map h.names_differ (List.mem_of_find?_eq_some hf) hi hname]

end KeySchema

namespace SchemaDraft

/-! ## Keys and indexes -/

/-- The property of a key, if one is set and not blank. -/
def givenKey (key : Option String) : Option String := key.filter (fun p => !Text.allBlank p)

theorem keyShape_eq_ok_iff {d : SchemaDraft} {shape : KeyShape} :
    d.keyShape = .ok shape ↔ givenKey d.partition = some shape.partition ∧
      givenKey d.sort = shape.sort ∧ shape.sort ≠ some shape.partition := by
  unfold keyShape givenKey
  rcases d.partition with _ | partition
  · simp
  by_cases hp : Text.allBlank partition = true
  · simp [Option.filter, hp]
  rcases d.sort with _ | sort
  · cases shape <;> simp [Option.filter, hp, KeyShape.partition, KeyShape.sort]
  by_cases hs : Text.allBlank sort = true
  · cases shape <;> simp [Option.filter, hp, hs, KeyShape.partition, KeyShape.sort]
  by_cases heq : sort = partition
  · cases shape with
    | partitionOnly p => simp [Option.filter, hp, heq, KeyShape.sort]
    | partitionAndSort p s =>
      simp only [Option.filter, hp, heq, KeyShape.partition, KeyShape.sort]
      grind
  · cases shape with
    | partitionOnly p => simp [Option.filter, hp, hs, heq, KeyShape.sort]
    | partitionAndSort p s =>
      simp only [Option.filter, hp, hs, KeyShape.partition, KeyShape.sort]
      grind

/-- An index by itself: its name and its partition member are not blank, and its sort member is
another property. -/
structure SoundIndex (i : IndexDefinition) : Prop where
  name : Text.allBlank i.name = false
  partition : Text.allBlank i.partition = false
  members_differ : i.sort ≠ some i.partition

theorem checkIndex_eq_ok_iff {entity : String} {seen : List String} {i : IndexDefinition} :
    checkIndex entity seen i = .ok () ↔ i.name ∉ seen ∧ SoundIndex i := by
  unfold checkIndex
  constructor
  · intro h
    split_ifs at h with hname hseen hpartition hsort
    exact ⟨hseen, by simpa using hname, by simpa using hpartition, hsort⟩
  · rintro ⟨hseen, hname, hpartition, hsort⟩
    simp [hname, hseen, hpartition, hsort]

theorem checkIndexes_eq_ok_iff {entity : String} {seen : List String}
    {indexes : List IndexDefinition} :
    checkIndexes entity seen indexes = .ok () ↔ (indexes.map IndexDefinition.name).Nodup ∧
      ∀ i ∈ indexes, i.name ∉ seen ∧ SoundIndex i := by
  induction indexes generalizing seen with
  | nil => simp [checkIndexes]
  | cons i rest ih =>
    unfold checkIndexes
    rw [bind_eq_ok_iff, List.map_cons, List.nodup_cons, List.forall_mem_cons]
    simp only [ih, List.mem_map, List.mem_cons, not_or, not_exists, not_and]
    constructor
    · rintro ⟨_, hi, hnodup, hrest⟩
      exact ⟨⟨fun j hj => (hrest j hj).1.1, hnodup⟩, checkIndex_eq_ok_iff.1 hi,
        fun j hj => ⟨(hrest j hj).1.2, (hrest j hj).2⟩⟩
    · rintro ⟨⟨hfresh, hnodup⟩, hi, hrest⟩
      exact ⟨(), checkIndex_eq_ok_iff.2 hi, hnodup,
        fun j hj => ⟨⟨hfresh j hj, (hrest j hj).1⟩, (hrest j hj).2⟩⟩

/-! ## Membership -/

/-- What an index enters in a membership table, one entry for each member. -/
def entriesOf (i : IndexDefinition) : List (String × String × KeyRole) :=
  i.members.map fun property => (property, i.name, (i.roleOf property).getD .partition)

theorem enterIndex_eq (table : SortedMap (List (String × KeyRole))) (i : IndexDefinition) :
    enterIndex table i = table.appendAll (entriesOf i) := by
  unfold enterIndex SortedMap.appendAll entriesOf
  rw [List.foldl_map]

theorem mem_keys_enterIndex (table : SortedMap (List (String × KeyRole))) (i : IndexDefinition)
    (property : String) :
    property ∈ (enterIndex table i).keys ↔ property ∈ i.members ∨ property ∈ table.keys := by
  rw [enterIndex_eq, SortedMap.mem_keys_appendAll]
  simp [entriesOf]

/-- The membership table lists the members of all indexes. -/
theorem mem_keys_membershipsOf (indexes : List IndexDefinition) (property : String) :
    property ∈ (membershipsOf indexes).keys ↔ ∃ i ∈ indexes, property ∈ i.members := by
  have hfold : ∀ table : SortedMap (List (String × KeyRole)),
      property ∈ (indexes.foldl enterIndex table).keys ↔
        (∃ i ∈ indexes, property ∈ i.members) ∨ property ∈ table.keys := by
    induction indexes with
    | nil => simp
    | cons i rest ih =>
      intro table
      rw [List.foldl_cons, ih, mem_keys_enterIndex]
      simp only [List.mem_cons, exists_eq_or_imp]
      rw [or_left_comm, or_assoc]
  unfold membershipsOf
  rw [hfold]
  simp [SortedMap.mem_keys_iff]

/-! ## Attributes -/

/-- The attribute that holds a property under some declarations. -/
def heldBy (properties : SortedMap PropertyDef) (property : String) : String :=
  ((properties.get? property).bind PropertyDef.attributeName).getD property

theorem heldBy_undeclared {properties : SortedMap PropertyDef} {property : String}
    (h : property ∉ properties.keys) : heldBy properties property = property := by
  simp [heldBy, (SortedMap.get?_eq_none_iff _ _).2 h]

theorem attributeOwners_eq (properties : SortedMap PropertyDef) :
    attributeOwners properties = properties.keys.map fun p => (p, heldBy properties p) := by
  unfold attributeOwners SortedMap.keys
  rw [List.map_map]
  apply List.map_congr_left
  rintro ⟨p, definition⟩ hm
  simp [heldBy, (SortedMap.get?_eq_some_iff _ _ _).2 hm]

theorem checkOwners_eq_ok_iff {entity : String} {seen owners : List (String × String)} :
    checkOwners entity seen owners = .ok () ↔
      (owners.map Prod.snd).Nodup ∧ ∀ o ∈ owners, o.2 ∉ seen.map Prod.snd := by
  induction owners generalizing seen with
  | nil => simp [checkOwners]
  | cons o rest ih =>
    obtain ⟨property, held⟩ := o
    unfold checkOwners
    rw [List.map_cons, List.nodup_cons, List.forall_mem_cons]
    cases hfind : seen.find? (fun o => o.2 == held) with
    | some first =>
      have heq : first.2 = held := by simpa using List.find?_some hfind
      have hseen : held ∈ seen.map Prod.snd :=
        List.mem_map.2 ⟨first, List.mem_of_find?_eq_some hfind, heq⟩
      simp [hseen]
    | none =>
      have hfresh : held ∉ seen.map Prod.snd := by
        intro hmem
        obtain ⟨e, he, heq⟩ := List.mem_map.1 hmem
        exact List.find?_eq_none.1 hfind e he (by simp [heq])
      simp only [ih, List.map_cons, List.mem_cons, not_or]
      constructor
      · rintro ⟨hnodup, hrest⟩
        refine ⟨⟨fun hmem => ?_, hnodup⟩, hfresh, fun e he => (hrest e he).2⟩
        obtain ⟨e, he, heq⟩ := List.mem_map.1 hmem
        exact (hrest e he).1 heq
      · rintro ⟨⟨hheld, hnodup⟩, -, hrest⟩
        exact ⟨hnodup, fun e he => ⟨fun heq => hheld (List.mem_map.2 ⟨e, he, heq⟩), hrest e he⟩⟩

/-- A key property that is not declared holds an attribute of its own name, which no declared
property may hold. -/
theorem checkKeyNames_eq_ok_iff {entity : String} {properties : SortedMap PropertyDef}
    {names : List String} :
    checkKeyNames entity properties names = .ok () ↔
      ∀ p ∈ names, p ∉ properties.keys → ∀ q ∈ properties.keys, heldBy properties q ≠ p := by
  induction names with
  | nil => simp [checkKeyNames]
  | cons name rest ih =>
    unfold checkKeyNames
    rw [List.forall_mem_cons, ← ih, attributeOwners_eq]
    cases hfind : (properties.keys.map fun p => (p, heldBy properties p)).find?
        (fun o => o.2 == name) with
    | none =>
      have hfree : ∀ q ∈ properties.keys, heldBy properties q ≠ name := by
        intro q hq heq
        exact List.find?_eq_none.1 hfind _ (List.mem_map.2 ⟨q, hq, rfl⟩) (by simp [heq])
      simp only [iff_and_self]
      exact fun _ _ => hfree
    | some owner =>
      obtain ⟨q, hq, rfl⟩ := List.mem_map.1 (List.mem_of_find?_eq_some hfind)
      have heq : heldBy properties q = name := by simpa using List.find?_some hfind
      by_cases hdeclared : name ∈ properties.keys
      · simp [(SortedMap.contains_iff _ _).2 hdeclared, hdeclared]
      · have hcontains : properties.contains name = false := by
          simpa [← SortedMap.contains_iff] using hdeclared
        simp only [hcontains, Bool.false_eq_true, if_false, reduceCtorEq, false_iff, not_and]
        exact fun hfree => absurd heq (hfree hdeclared q hq)

/-- The two checks together: declared properties are compared with each other, the others hold
attributes of their own names. -/
theorem checkAttributes_iff (entity : String) {properties : SortedMap PropertyDef}
    {names : List String} :
    checkOwners entity [] (attributeOwners properties) = .ok () ∧
        checkKeyNames entity properties names = .ok () ↔
      Set.InjOn (heldBy properties) {p | p ∈ properties.keys ∨ p ∈ names} := by
  rw [checkOwners_eq_ok_iff, checkKeyNames_eq_ok_iff, attributeOwners_eq, List.map_map]
  constructor
  · rintro ⟨⟨hnodup, -⟩, hnames⟩ p hp q hq heq
    by_cases hpd : p ∈ properties.keys <;> by_cases hqd : q ∈ properties.keys
    · exact List.inj_on_of_nodup_map hnodup hpd hqd heq
    · rw [heldBy_undeclared hqd] at heq
      exact absurd heq (hnames q (hq.resolve_left hqd) hqd p hpd)
    · rw [heldBy_undeclared hpd] at heq
      exact absurd heq.symm (hnames p (hp.resolve_left hpd) hpd q hqd)
    · rwa [heldBy_undeclared hpd, heldBy_undeclared hqd] at heq
  · intro hinj
    refine ⟨⟨?_, by simp⟩, fun p hp hpd q hq heq => ?_⟩
    · exact properties.keys_nodup.map_on fun p hp q hq heq => hinj (Or.inl hp) (Or.inl hq) heq
    · rw [← heldBy_undeclared hpd] at heq
      exact hpd (hinj (Or.inl hq) (Or.inr hp) heq ▸ hq)

/-! ## The whole schema -/

/-- The schema that a draft with a shape of its keys makes. -/
def schemaWith (d : SchemaDraft) (shape : KeyShape) : KeySchema :=
  { entity := d.entity
    tableName := d.tableName.getD d.entity
    shape
    properties := d.properties
    indexes := d.indexes
    memberships := membershipsOf d.indexes }

/-- The properties that a draft declares, and those of its keys and of its indexes. -/
def Knows (d : SchemaDraft) (property : String) : Prop :=
  property ∈ d.properties.keys ∨ givenKey d.partition = some property ∨
    givenKey d.sort = some property ∨ ∃ i ∈ d.indexes, property ∈ i.members

/-- A build succeeds exactly if the keys, the indexes and the names of the attributes are sound. -/
theorem build_eq_ok_iff {d : SchemaDraft} {s : KeySchema} :
    d.build = .ok s ↔ d.keyShape = .ok s.shape ∧ s = d.schemaWith s.shape ∧
      (d.indexes.map IndexDefinition.name).Nodup ∧ (∀ i ∈ d.indexes, SoundIndex i) ∧
      Set.InjOn (heldBy d.properties) {p | d.Knows p} := by
  have hknown {shape : KeyShape} (hshape : d.keyShape = .ok shape) :
      {p | p ∈ d.properties.keys ∨
        p ∈ shape.partition :: shape.sort.toList ++ (membershipsOf d.indexes).keys} =
      {p | d.Knows p} := by
    obtain ⟨hp, hs, -⟩ := keyShape_eq_ok_iff.1 hshape
    ext p
    simp only [Set.mem_ofPred_eq, Knows, hp, hs, List.cons_append, List.mem_cons, List.mem_append,
      Option.mem_toList, mem_keys_membershipsOf, Option.some.injEq]
    rw [eq_comm (a := p)]
  constructor
  · intro h
    obtain ⟨shape, hshape, h⟩ := bind_eq_ok_iff.1 h
    obtain ⟨_, hindexes, h⟩ := bind_eq_ok_iff.1 h
    obtain ⟨_, howners, h⟩ := bind_eq_ok_iff.1 h
    obtain ⟨_, hnames, h⟩ := bind_eq_ok_iff.1 h
    cases h
    obtain ⟨hnodup, hsound⟩ := checkIndexes_eq_ok_iff.1 hindexes
    refine ⟨hshape, rfl, hnodup, fun i hi => (hsound i hi).2, ?_⟩
    rw [← hknown hshape]
    exact (checkAttributes_iff d.entity).1 ⟨howners, hnames⟩
  · rintro ⟨hshape, hs, hnodup, hsound, hinj⟩
    rw [← hknown hshape] at hinj
    obtain ⟨howners, hnames⟩ := (checkAttributes_iff d.entity).2 hinj
    have hindexes : checkIndexes d.entity [] d.indexes = .ok () :=
      checkIndexes_eq_ok_iff.2 ⟨hnodup, fun i hi => ⟨List.not_mem_nil, hsound i hi⟩⟩
    refine bind_eq_ok_iff.2 ⟨s.shape, hshape, bind_eq_ok_iff.2 ⟨(), hindexes, ?_⟩⟩
    refine bind_eq_ok_iff.2 ⟨(), howners, bind_eq_ok_iff.2 ⟨(), hnames, ?_⟩⟩
    exact congrArg Except.ok hs.symm

theorem entity_of_build {d : SchemaDraft} {s : KeySchema} (h : d.build = .ok s) :
    s.entity = d.entity := by
  rw [(build_eq_ok_iff.1 h).2.1]
  rfl

/-- No declaration changes the entity. -/
theorem entity_declareAll (d : SchemaDraft) (declarations : List Declaration) :
    (d.declareAll declarations).entity = d.entity := by
  unfold declareAll
  induction declarations generalizing d with
  | nil => rfl
  | cons declaration rest ih =>
    rw [List.foldl_cons, ih]
    cases declaration <;> rfl

end SchemaDraft

open SchemaDraft in
theorem KeySchema.Built.sound {s : KeySchema} (h : s.Built) : s.Sound := by
  obtain ⟨d, h⟩ := h
  obtain ⟨hshape, hs, hnodup, hsound, hinj⟩ := build_eq_ok_iff.1 h
  obtain ⟨hp, hsort, hdiffer⟩ := keyShape_eq_ok_iff.1 hshape
  have hknown {p : String} (hk : s.Knows p) : d.Knows p := by
    rw [hs] at hk
    rcases hk with hk | hk | hk | hk
    · exact Or.inl hk
    · exact Or.inr (Or.inl (hk ▸ hp))
    · exact Or.inr (Or.inr (Or.inl (hsort.trans hk)))
    · exact Or.inr (Or.inr (Or.inr hk))
  refine ⟨hdiffer, ?_, ?_, fun p q hkp hkq heq => ?_⟩
  · rw [hs]
    exact hnodup
  · rw [hs]
    exact fun i hi => (hsound i hi).members_differ
  · rw [hs] at heq
    exact hinj (hknown hkp) (hknown hkq) heq

/-! ## One schema -/

/-- Notes by author and day, with two indexes by topic. -/
def noteDraft : SchemaDraft :=
  SchemaDraft.declareAll { entity := "note" }
    [.partitionKey "author", .sortKey "day", .attributeName "day" "d",
      .index ⟨"topics", "topic", none⟩, .index ⟨"topicDays", "topic", some "day"⟩]

def noteSchema : KeySchema :=
  { entity := "note"
    tableName := "note"
    shape := .partitionAndSort "author" "day"
    properties := noteDraft.properties
    indexes := noteDraft.indexes
    memberships := SchemaDraft.membershipsOf noteDraft.indexes }

theorem noteSchema_built : noteSchema.Built := ⟨noteDraft, by decide⟩

end KeyAccess
