-- The law of key conditions: what a query asks of its key is read back from its text and its
-- bindings as an equality on the partition member, perhaps with a comparison on the sort member,
-- of the table or of the index that it names.
import Mathlib
import KeyAccess.Proofs.Request.Conjunction
import KeyAccess.Proofs.Request.Emitted

namespace KeyAccess

/-! ## Keys -/

theorem ComparisonOperator.isQueryLegal_iff {operator : ComparisonOperator} :
    operator.isQueryLegal = true ↔ operator ∈ [.eq, .le, .lt, .ge, .gt, .beginsWith, .between] := by
  cases operator <;> decide

/-- The members of the key that a query asks: those of the table, or of the index that it names. -/
def QueryRequest.Asks (r : QueryRequest) (s : KeySchema) (partition : String)
    (sort : Option String) : Prop :=
  match r.indexName with
  | none => partition = s.partitionKey ∧ sort = s.sortKey
  | some name => ∃ i, s.index? name = some i ∧ partition = i.partition ∧ sort = i.sort

/-- A term may follow the equality on the partition member: it compares the attribute of the sort
member, which is another attribute. -/
structure ReadTerm.Ranges (t : ReadTerm) (s : KeySchema) (partition : String)
    (sort : Option String) : Prop where
  sort_member : ∃ p, sort = some p ∧ t.attributeName = s.attributeName p
  query_legal : t.operator ∈ [.eq, .le, .lt, .ge, .gt, .beginsWith, .between]
  attributes_differ : t.attributeName ≠ s.attributeName partition

/-- The key condition of a query is legal, as it is read back through the bindings. -/
structure QueryRequest.Legal (r : QueryRequest) (s : KeySchema) : Prop where
  key : ∃ partition sort value range, r.Asks s partition sort ∧
    Reader.read r.attributeNames r.attributeValues r.keyConditionExpression =
      some (⟨s.attributeName partition, .eq, [value]⟩ :: range.toList) ∧
    ∀ t, range = some t → t.Ranges s partition sort
  not_empty : r.keyConditionExpression ≠ ""
  table_of_index : r.tableName.isSome = r.indexName.isSome

namespace Criteria

variable {α : Type} {c : Criteria}

/-- Conditions that suit a key: an equality on its partition member, and perhaps a condition on its
sort member that a key condition may use. -/
structure SuitsKey (c : Criteria) (partition : String) (sort : Option String)
    (a : AttributeCondition) (range : Option AttributeCondition) : Prop where
  asked : ∀ b ∈ a :: range.toList, b ∈ c.allConditions
  partition_equality : a.property = partition ∧ a.condition.isEquality = true
  sort_member : ∀ b, range = some b → sort = some b.property
  query_legal : ∀ b, range = some b → b.condition.isQueryLegal = true

/-- The text and the bindings of a query are read back as its conditions. -/
theorem read_queryRequest {key : List AttributeCondition} (h : c.Sound) (hne : key ≠ [])
    (hkey : ∀ b ∈ key, b ∈ c.allConditions) (mode : RequestMode) (index : Option (String × String))
    (order : Option SortOrder) :
    Reader.read (queryRequest c mode key index order).attributeNames
        (queryRequest c mode key index order).attributeValues
        (queryRequest c mode key index order).keyConditionExpression =
      some (key.map AttributeCondition.said) := by
  cases hconj : conjunction {} key with
  | mk text slots =>
    have hbound := slots.boundIn_filter h.filter_unreserved
    have hread := Reader.read_conjunction hne (fun b hb => h.fits b (hkey b hb)) hconj hbound
    unfold queryRequest
    rw [hconj]
    exact hread

theorem ranges_of_suitsKey {partition : String} {sort : Option String} {a b : AttributeCondition}
    (h : c.Sound) (hs : c.schema.Sound) (hsuits : c.SuitsKey partition sort a (some b))
    (hne : sort ≠ some partition) (hpartition : c.schema.Knows partition)
    (hsort : ∀ p, sort = some p → c.schema.Knows p) :
    b.said.Ranges c.schema partition sort := by
  have hproperty := hsuits.sort_member b rfl
  have hname : b.attributeName = c.schema.attributeName b.property :=
    h.named b (hsuits.asked b (by simp))
  refine ⟨⟨b.property, hproperty, hname⟩, ?_, fun heq => ?_⟩
  · have hlegal : b.operator.isQueryLegal = true := hsuits.query_legal b rfl
    exact ComparisonOperator.isQueryLegal_iff.1 hlegal
  · have hsame : c.schema.attributeName b.property = c.schema.attributeName partition := by
      rw [← hname]
      exact heq
    have hp := hs.attributes_differ _ _ (hsort _ hproperty) hpartition hsame
    rw [hp] at hproperty
    exact hne hproperty

theorem legal_of_suitsKey {partition : String} {sort : Option String} {a : AttributeCondition}
    {range : Option AttributeCondition} (h : c.Sound) (hs : c.schema.Sound)
    (hsuits : c.SuitsKey partition sort a range) (hne : sort ≠ some partition)
    (hpartition : c.schema.Knows partition) (hsort : ∀ p, sort = some p → c.schema.Knows p)
    (mode : RequestMode) (index : Option (String × String)) (order : Option SortOrder)
    (hasks : (queryRequest c mode (a :: range.toList) index order).Asks c.schema partition sort) :
    (queryRequest c mode (a :: range.toList) index order).Legal c.schema := by
  obtain ⟨hproperty, heq⟩ := hsuits.partition_equality
  obtain ⟨value, hvalue⟩ := eq_pinned h (hsuits.asked a List.mem_cons_self) heq
  have hsaid : a.said = ⟨c.schema.attributeName partition, .eq, [value]⟩ := by
    rw [hvalue, hproperty]
    rfl
  have hread := read_queryRequest h (List.cons_ne_nil a _) hsuits.asked mode index order
  refine ⟨⟨partition, sort, value, range.map AttributeCondition.said, hasks, ?_, ?_⟩, ?_, ?_⟩
  · rw [hread, List.map_cons, hsaid]
    cases range <;> rfl
  · intro t ht
    cases range with
    | none => cases ht
    | some b =>
      cases ht
      exact ranges_of_suitsKey h hs hsuits hne hpartition hsort
  · intro hempty
    rw [hempty, Reader.read_empty] at hread
    cases hread
  · cases index <;> rfl

/-! ## The key conditions of the paths -/

theorem suitsKey_of_load {v : AttributeValue} {w : Option AttributeValue}
    (hall : c.allConditions = loadConditions c.schema v w) :
    ∃ range, loadConditions c.schema v w =
        pinned c.schema c.schema.partitionKey v :: range.toList ∧
      c.SuitsKey c.schema.partitionKey c.schema.sortKey
        (pinned c.schema c.schema.partitionKey v) range := by
  unfold loadConditions at hall ⊢
  split
  · rename_i property value hsort
    rw [hsort] at hall
    refine ⟨some (pinned c.schema property value), rfl, ?_, ⟨rfl, rfl⟩, fun b hb => ?_,
      fun b hb => ?_⟩
    · rw [hall]
      exact fun b hb => hb
    · cases hb
      exact hsort
    · cases hb
      rfl
  · rename_i hnone
    refine ⟨none, rfl, ?_, ⟨rfl, rfl⟩, fun b hb => ?_, fun b hb => ?_⟩
    · intro b hb
      rw [hall, List.mem_singleton.1 hb]
      split <;> exact List.mem_cons_self
    · cases hb
    · cases hb

theorem suitsKey_of_primary (h : c.Sound) (hs : c.schema.Sound) {sort : String}
    {v : AttributeValue} (hsort : c.schema.sortKey = some sort)
    (hserved : c.ServedBy c.schema.partitionKey (some sort))
    (hall : c.allConditions = pinned c.schema c.schema.partitionKey v :: c.sortCondition.toList) :
    c.SuitsKey c.schema.partitionKey c.schema.sortKey
      (pinned c.schema c.schema.partitionKey v) c.sortCondition := by
  refine ⟨?_, ⟨rfl, rfl⟩, h.sort_condition, ?_⟩
  · rw [hall]
    exact fun b hb => hb
  · exact ((servedBy_primaryKey_iff h hs hsort).1 hserved).2.2

theorem suitsKey_of_index {i : IndexDefinition} {a : AttributeCondition}
    (hserved : c.ServedBy i.partition i.sort) (ha : c.conditionsOn i.partition = [a]) :
    c.SuitsKey i.partition i.sort a (c.rangeOn i.sort) := by
  have hmem : a ∈ c.allConditions ∧ a.property = i.partition := by
    rw [← mem_conditionsOn, ha]
    exact List.mem_cons_self
  have hrange : ∀ b, c.rangeOn i.sort = some b → ∃ s, i.sort = some s ∧ c.conditionsOn s = [b] ∧
      b.condition.isQueryLegal = true := by
    intro b hb
    obtain ⟨s, hsort, hhead⟩ := Option.bind_eq_some_iff.1 hb
    rcases hserved.ranged s hsort with hnil | ⟨b', hb', hlegal⟩
    · rw [hnil] at hhead
      cases hhead
    · rw [hb'] at hhead
      cases hhead
      exact ⟨s, hsort, hb', hlegal⟩
  refine ⟨?_, ?_, ?_, ?_⟩
  · intro b hb
    rcases List.mem_cons.1 hb with rfl | hb
    · exact hmem.1
    · obtain ⟨s, -, hon, -⟩ := hrange b (Option.mem_toList.1 hb)
      have hbmem : b ∈ c.conditionsOn s := by
        rw [hon]
        exact List.mem_cons_self
      exact (mem_conditionsOn.1 hbmem).1
  · obtain ⟨a', ha', heq⟩ := hserved.pinned
    rw [ha] at ha'
    cases ha'
    exact ⟨hmem.2, heq⟩
  · intro b hb
    obtain ⟨s, hsort, hon, -⟩ := hrange b hb
    have hbmem : b ∈ c.conditionsOn s := by
      rw [hon]
      exact List.mem_cons_self
    rw [hsort, (mem_conditionsOn.1 hbmem).2]
  · intro b hb
    obtain ⟨s, -, -, hlegal⟩ := hrange b hb
    exact hlegal

theorem legal_of_chosen (h : c.Sound) (hs : c.schema.Sound) {path : AccessPath}
    (hchosen : AccessPath.Chosen c path) {mode : RequestMode} {table : String} {r : QueryRequest}
    (hr : StoreRequest.ofPath c path mode table = .query r) : r.Legal c.schema := by
  have hprimary := KeySchema.knows_partitionKey c.schema
  have hsorts : ∀ p, c.schema.sortKey = some p → c.schema.Knows p :=
    fun _ => KeySchema.knows_sortKey
  cases hchosen with
  | @load v w _ hall =>
    obtain ⟨range, hkey, hsuits⟩ := suitsKey_of_load hall
    unfold StoreRequest.ofPath at hr
    dsimp only at hr
    split at hr
    · cases hr
    · cases hr
      rw [hkey]
      exact legal_of_suitsKey h hs hsuits hs.keys_differ hprimary hsorts mode none none ⟨rfl, rfl⟩
  | @primary sort v hsort hserved hall _ =>
    cases hr
    have hsuits := suitsKey_of_primary h hs hsort hserved hall
    exact legal_of_suitsKey h hs hsuits hs.keys_differ hprimary hsorts mode none c.sort.head?
      ⟨rfl, rfl⟩
  | @index i a hi hserved _ ha =>
    cases hr
    have hsuits := suitsKey_of_index hserved ha
    have hmembers : ∀ p, i.sort = some p → c.schema.Knows p := by
      intro p hp
      exact KeySchema.knows_member hi (by simp [IndexDefinition.members, hp])
    have hmember : c.schema.Knows i.partition := KeySchema.knows_member hi List.mem_cons_self
    exact legal_of_suitsKey h hs hsuits (hs.members_differ i hi) hmember hmembers mode
      (some (table, i.name)) c.sort.head? ⟨i, hs.index?_eq hi, rfl, rfl⟩
  | scan _ _ => cases hr

/-! ## The law -/

/-- Every query that is built or counted has a legal key condition. -/
theorem every_query_has_a_legal_key_condition {schema : KeySchema} {store : Store α}
    {r : QueryRequest} (hbuilt : schema.Built) (hreach : Reachable schema c)
    (hemits : c.Emits store (.query r)) : r.Legal schema := by
  have hs := hreach.schema_sound hbuilt
  obtain ⟨path, mode, table, hpath, hrequest⟩ := hemits.of_path
  have hchosen := AccessPath.select_chosen hreach.sound hs hpath
  have hlegal := legal_of_chosen hreach.sound hs hchosen hrequest.symm
  rw [hreach.schema_eq] at hlegal
  exact hlegal

/-- The note of an author on a day, if it has a title. -/
def titledNote : List Call :=
  [.equality "author" (.string "x"), .equality "day" (.string "a"),
    .filter { expression := "#t = :t"
              names := SortedMap.ofList [("#t", "title")]
              values := SortedMap.ofList [(":t", .string "z")] }]

/-- A load cannot carry the filter, so the note is queried by its whole key. -/
def titledNoteRequest : QueryRequest :=
  { tableName := none
    indexName := none
    keyConditionExpression := "#kq_n0 = :kq_v0 AND #kq_n1 = :kq_v1"
    filterExpression := some "#t = :t"
    attributeNames := SortedMap.ofList [("#kq_n0", "author"), ("#kq_n1", "d"), ("#t", "title")]
    attributeValues := SortedMap.ofList
      [(":kq_v0", .string "x"), (":kq_v1", .string "a"), (":t", .string "z")]
    scanIndexForward := true
    limit := none
    consistentRead := none
    projectionExpression := none
    select := .allAttributes }

theorem a_filtered_load_is_a_legal_query :
    ∃ c, (ofEntity ⟨noteSchema, {}⟩).run titledNote = .ok c ∧
      c.Emits emptyStore (.query titledNoteRequest) ∧ titledNoteRequest.Legal noteSchema := by
  have hok : ((ofEntity ⟨noteSchema, {}⟩).run titledNote >>= fun c =>
      (c.buildQuery emptyStore).outcome >>= fun q => Except.ok q.request) =
      .ok (.query titledNoteRequest) := by
    decide +kernel
  obtain ⟨c, hrun, hok⟩ := bind_eq_ok_iff.1 hok
  obtain ⟨q, hq, hok⟩ := bind_eq_ok_iff.1 hok
  have hemits : c.Emits emptyStore (.query titledNoteRequest) := Or.inl ⟨q, hq, Except.ok.inj hok⟩
  exact ⟨c, hrun, hemits,
    every_query_has_a_legal_key_condition noteSchema_built ⟨{}, titledNote, hrun⟩ hemits⟩

end Criteria

end KeyAccess
