-- The membership table beside the list of the indexes. The table is filled once, while a schema is
-- built, and is read by property; the list is searched by name. As names and members differ, the
-- two answer alike.
import Mathlib
import KeyAccess.Proofs.Schema.Built

namespace KeyAccess

/-- The members of an index are the properties that have a role in it. -/
theorem IndexDefinition.mem_members_iff {i : IndexDefinition} {property : String} :
    property ∈ i.members ↔ ∃ role, i.roleOf property = some role := by
  unfold members roleOf
  rw [List.mem_cons, Option.mem_toList]
  split
  · rename_i h
    simp [h]
  · rename_i h
    split
    · rename_i hsort
      simp [hsort]
    · rename_i hsort
      simp [Ne.symm h, hsort]

namespace SchemaDraft

/-! ## The entries of one property -/

/-- The entry of an index under a property, if the property is a member of it. -/
def entryIn (property : String) (i : IndexDefinition) : Option (String × KeyRole) :=
  (i.roleOf property).map fun role => (i.name, role)

/-- An index whose members differ is entered once under each of them. -/
theorem getD_enterIndex {i : IndexDefinition} (hi : i.sort ≠ some i.partition)
    (table : SortedMap (List (String × KeyRole))) (property : String) :
    ((enterIndex table i).get? property).getD [] =
      (table.get? property).getD [] ++ (entryIn property i).toList := by
  rw [enterIndex_eq, SortedMap.getD_appendAll]
  congr 1
  unfold entriesOf entryIn IndexDefinition.members IndexDefinition.roleOf
  cases hsort : i.sort with
  | none => by_cases hp : i.partition = property <;> simp [hp]
  | some s =>
    rw [hsort] at hi
    by_cases hp : i.partition = property
    · subst hp
      have hne : s ≠ i.partition := by simpa using hi
      simp [hne]
    · by_cases hs : s = property
      · subst hs
        simp [hp]
      · simp [hp, hs]

/-- Under a property the table lists, in the order of the indexes, those that have it. -/
theorem getD_membershipsOf {indexes : List IndexDefinition}
    (h : ∀ i ∈ indexes, i.sort ≠ some i.partition) (property : String) :
    ((membershipsOf indexes).get? property).getD [] = indexes.filterMap (entryIn property) := by
  have hfold : ∀ table : SortedMap (List (String × KeyRole)),
      ((indexes.foldl enterIndex table).get? property).getD [] =
        (table.get? property).getD [] ++ indexes.filterMap (entryIn property) := by
    induction indexes with
    | nil => simp
    | cons i rest ih =>
      intro table
      obtain ⟨hi, hrest⟩ := List.forall_mem_cons.1 h
      rw [List.foldl_cons, ih hrest, getD_enterIndex hi, List.append_assoc]
      congr 1
      cases hentry : entryIn property i with
      | none => rw [List.filterMap_cons_none hentry, Option.toList_none, List.nil_append]
      | some entry => rw [List.filterMap_cons_some hentry, Option.toList_some, List.singleton_append]
  exact hfold ∅

theorem map_name_entries (indexes : List IndexDefinition) (property : String) :
    (indexes.filterMap (entryIn property)).map Prod.fst =
      (indexes.filter (fun i => property ∈ i.members)).map IndexDefinition.name := by
  induction indexes with
  | nil => rfl
  | cons i rest ih =>
    cases hrole : i.roleOf property with
    | none =>
      have hnot : property ∉ i.members := by
        simp [IndexDefinition.mem_members_iff, hrole]
      have hentry : entryIn property i = none := by simp [entryIn, hrole]
      rw [List.filterMap_cons_none hentry, ih, List.filter_cons_of_neg (by simpa using hnot)]
    | some role =>
      have hmem : property ∈ i.members := IndexDefinition.mem_members_iff.2 ⟨role, hrole⟩
      have hentry : entryIn property i = some (i.name, role) := by simp [entryIn, hrole]
      rw [List.filterMap_cons_some hentry, List.map_cons, ih,
        List.filter_cons_of_pos (by simpa using hmem), List.map_cons]

theorem mem_entries_iff {indexes : List IndexDefinition} {name property : String}
    {role : KeyRole} : (name, role) ∈ indexes.filterMap (entryIn property) ↔
      ∃ i ∈ indexes, i.name = name ∧ i.roleOf property = some role := by
  simp only [List.mem_filterMap, entryIn, Option.map_eq_some_iff, Prod.mk.injEq]
  constructor
  · rintro ⟨i, hi, _, hrole, hname, rfl⟩
    exact ⟨i, hi, hname, hrole⟩
  · rintro ⟨i, hi, hname, hrole⟩
    exact ⟨i, hi, role, hrole, hname, rfl⟩

end SchemaDraft

namespace KeySchema

variable {s : KeySchema}

/-! ## The questions to a schema -/

theorem Sound.index?_eq_some_iff (h : s.Sound) {name : String} {i : IndexDefinition} :
    s.index? name = some i ↔ i ∈ s.indexes ∧ i.name = name := by
  constructor
  · intro hfind
    exact ⟨List.mem_of_find?_eq_some hfind, by simpa using List.find?_some hfind⟩
  · rintro ⟨hi, rfl⟩
    exact h.index?_eq hi

theorem Built.memberships_eq (h : s.Built) :
    s.memberships = SchemaDraft.membershipsOf s.indexes := by
  obtain ⟨d, h⟩ := h
  rw [(SchemaDraft.build_eq_ok_iff.1 h).2.1]
  rfl

theorem Built.entries_eq (h : s.Built) (property : String) :
    (s.memberships.get? property).getD [] =
      s.indexes.filterMap (SchemaDraft.entryIn property) := by
  rw [h.memberships_eq]
  exact SchemaDraft.getD_membershipsOf h.sound.members_differ property

theorem Built.indexNamesFor_eq (h : s.Built) (property : String) :
    s.indexNamesFor property =
      (s.indexes.filter (fun i => property ∈ i.members)).map IndexDefinition.name := by
  unfold indexNamesFor
  rw [h.entries_eq, SchemaDraft.map_name_entries]

theorem Built.indexNamesFor_nodup (h : s.Built) (property : String) :
    (s.indexNamesFor property).Nodup := by
  rw [h.indexNamesFor_eq]
  exact h.sound.names_differ.sublist (List.filter_sublist.map _)

/-- The one entry with a name is that of the one index with this name. -/
theorem Built.indexRole_eq (h : s.Built) (name property : String) :
    s.indexRole name property = (s.index? name).bind (·.roleOf property) := by
  have hnodup := h.indexNamesFor_nodup property
  unfold indexNamesFor at hnodup
  ext role
  unfold indexRole
  rw [← SortedMap.findEntry, SortedMap.findEntry_eq_some_iff hnodup, h.entries_eq,
    SchemaDraft.mem_entries_iff, Option.bind_eq_some_iff]
  simp only [h.sound.index?_eq_some_iff, and_assoc]

theorem Built.isIndexMember_iff (h : s.Built) (property : String) :
    s.isIndexMember property = true ↔ s.indexNamesFor property ≠ [] := by
  unfold isIndexMember
  rw [SortedMap.contains_iff, h.memberships_eq, SchemaDraft.mem_keys_membershipsOf,
    h.indexNamesFor_eq, ne_eq, List.map_eq_nil_iff, List.filter_eq_nil_iff]
  simp

/-! ## The law -/

/-- Of a schema that was built, the membership table and the list of the indexes tell the same: the
roles, the names in the order of the declarations, who is a member at all, and one index for a
name. -/
theorem the_membership_table_agrees_with_the_indexes (hbuilt : s.Built) :
    (∀ name property, s.indexRole name property = (s.index? name).bind (·.roleOf property)) ∧
    (∀ property, s.indexNamesFor property =
        (s.indexes.filter (fun i => property ∈ i.members)).map IndexDefinition.name ∧
      (s.indexNamesFor property).Nodup) ∧
    (∀ property, s.isIndexMember property = true ↔ s.indexNamesFor property ≠ []) ∧
    (∀ name i, s.index? name = some i ↔ i ∈ s.indexes ∧ i.name = name) ∧
    ∀ i ∈ s.indexes, ∀ j ∈ s.indexes, i.name = j.name → i = j := by
  refine ⟨hbuilt.indexRole_eq, ?_, hbuilt.isIndexMember_iff, ?_, ?_⟩
  · intro property
    exact ⟨hbuilt.indexNamesFor_eq property, hbuilt.indexNamesFor_nodup property⟩
  · intro name i
    exact hbuilt.sound.index?_eq_some_iff
  · intro i hi j hj hname
    exact List.inj_on_of_nodup_map hbuilt.sound.names_differ hi hj hname

/-- The topic of a note leads both of its indexes, and the day, a key of the notes themselves,
orders one of them. -/
theorem noteSchema_topic_leads_both :
    noteSchema.Built ∧ noteSchema.indexNamesFor "topic" = ["topics", "topicDays"] ∧
      noteSchema.indexRole "topicDays" "day" = some .sort ∧
      noteSchema.indexRole "topics" "day" = none := by
  obtain ⟨hrole, hnames, -, -⟩ :=
    the_membership_table_agrees_with_the_indexes noteSchema_built
  refine ⟨noteSchema_built, ?_, ?_, ?_⟩
  · rw [(hnames "topic").1]
    decide
  · rw [hrole]
    decide
  · rw [hrole]
    decide

end KeySchema

end KeyAccess
