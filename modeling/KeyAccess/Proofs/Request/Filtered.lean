-- The law of raw filters: a filter only adds. The path stays as it was, and the request keeps its
-- kind and every field that does not tell of a filter. The text of the filter stands behind the
-- generated one and its bindings stand beside the generated ones. A load, which cannot carry a
-- filter, becomes a query that asks for the same key.
import Mathlib
import KeyAccess.Proofs.Request.KeyCondition

namespace KeyAccess

/-! ## The pure model -/

/-- The filter text and the bindings of a request before and after a filter is added. -/
structure BoundFilter.Adds (b : BoundFilter) (text text' : Option String)
    (names names' : SortedMap String) (values values' : SortedMap AttributeValue) : Prop where
  alone : text = none → text' = some b.expression
  joined : ∀ g, text = some g → text' = some (g ++ " AND (" ++ b.expression ++ ")")
  names : SortedMap.DisjointUnion names b.names names'
  values : SortedMap.DisjointUnion values b.values values'

/-- A query on the table asks for exactly the key that a load fetches. -/
structure QueryRequest.PinsKeyOf (r : QueryRequest) (s : KeySchema) (l : LoadRequest) : Prop where
  table : r.tableName = none ∧ r.indexName = none
  key : ∃ sort : Option (String × AttributeValue),
    s.sortKey = sort.map Prod.fst ∧ l.sortValue = sort.map Prod.snd ∧
    Reader.read r.attributeNames r.attributeValues r.keyConditionExpression =
      some (⟨s.attributeName s.partitionKey, .eq, [l.partitionValue]⟩ ::
        sort.toList.map (fun e => ⟨s.attributeName e.1, .eq, [e.2]⟩))

/-- A request and the one with a filter added: nothing else changes in a query or a scan, and a
load becomes a query. -/
inductive StoreRequest.Filtered (s : KeySchema) (b : BoundFilter) :
    StoreRequest → StoreRequest → Prop
  | query {r r' : QueryRequest} :
      b.Adds r.filterExpression r'.filterExpression r.attributeNames r'.attributeNames
        r.attributeValues r'.attributeValues →
      r' = { r with
        filterExpression := r'.filterExpression
        attributeNames := r'.attributeNames
        attributeValues := r'.attributeValues } →
      Filtered s b (.query r) (.query r')
  | scan {r r' : ScanRequest} :
      b.Adds r.filterExpression r'.filterExpression r.attributeNames r'.attributeNames
        r.attributeValues r'.attributeValues →
      r' = { r with
        filterExpression := r'.filterExpression
        attributeNames := r'.attributeNames
        attributeValues := r'.attributeValues } →
      Filtered s b (.scan r) (.scan r')
  | load {l : LoadRequest} {r' : QueryRequest} :
      r'.PinsKeyOf s l → r'.filterExpression = some b.expression →
      (∀ p name, b.names.get? p = some name → r'.attributeNames.get? p = some name) →
      (∀ p value, b.values.get? p = some value → r'.attributeValues.get? p = some value) →
      r'.consistentRead = l.consistentRead → Filtered s b (.load l) (.query r')

namespace Criteria

variable {α : Type} {c : Criteria} {b : BoundFilter}

/-! ## Criteria with a filter -/

theorem sound_filter (h : c.Sound) (hb : b.Unreserved) : ({ c with filter := some b }).Sound := by
  refine sound_same h ⟨rfl, rfl, rfl, rfl⟩ (fun f hf => ?_)
  cases hf
  exact hb

/-- The choice of a path looks at no filter. -/
theorem select_filter (c : Criteria) (schema : KeySchema) (filter : Option BoundFilter) :
    AccessPath.select schema { c with filter } = AccessPath.select schema c := rfl

/-! ## Queries and scans -/

theorem adds_filter (text : Option String) (slots : Slots) (hb : b.Unreserved) :
    b.Adds (joinedFilter text none) (joinedFilter text (some b)) (boundNames slots none)
      (boundNames slots (some b)) (boundValues slots none) (boundValues slots (some b)) := by
  refine ⟨?_, ?_, slots.names_beside hb, slots.values_beside hb⟩
  · rintro rfl
    rfl
  · rintro g rfl
    rfl

theorem filtered_query (s : KeySchema) (hfree : c.filter = none) (hb : b.Unreserved)
    (mode : RequestMode) (key : List AttributeCondition) (index : Option (String × String))
    (order : Option SortOrder) :
    StoreRequest.Filtered s b (.query (queryRequest c mode key index order))
      (.query (queryRequest { c with filter := some b } mode key index order)) := by
  refine .query ?_ rfl
  have hadds := adds_filter none (conjunction {} key).2 hb
  rw [← hfree] at hadds
  exact hadds

theorem filtered_scan (s : KeySchema) (hfree : c.filter = none) (hb : b.Unreserved)
    (mode : RequestMode) (filters : List AttributeCondition) :
    StoreRequest.Filtered s b (.scan (scanRequest c mode filters))
      (.scan (scanRequest { c with filter := some b } mode filters)) := by
  refine .scan ?_ rfl
  have hadds := adds_filter (conjunction {} filters).1 (conjunction {} filters).2 hb
  rw [← hfree] at hadds
  exact hadds

/-! ## Loads -/

theorem directLoad?_sort {schema : KeySchema} {v : AttributeValue} {w : Option AttributeValue}
    (h : AccessPath.directLoad? schema c = some (.directLoad v w)) :
    ∃ sort : Option (String × AttributeValue),
      schema.sortKey = sort.map Prod.fst ∧ w = sort.map Prod.snd := by
  unfold AccessPath.directLoad? at h
  split at h
  · cases h
  · obtain ⟨_, -, h⟩ := Option.bind_eq_some_iff.1 h
    obtain ⟨_, -, h⟩ := Option.bind_eq_some_iff.1 h
    split at h
    · rename_i hshape
      cases h
      exact ⟨none, by simp [KeySchema.sortKey, hshape, KeyShape.sort], rfl⟩
    · rename_i sort hshape
      obtain ⟨_, -, h⟩ := Option.bind_eq_some_iff.1 h
      split at h
      · cases h
      · obtain ⟨value, -, h⟩ := Option.bind_eq_some_iff.1 h
        cases h
        exact ⟨some (sort, value), by simp [KeySchema.sortKey, hshape, KeyShape.sort], rfl⟩

theorem directLoad?_of_select (h : c.Sound) (hs : c.schema.Sound) {v : AttributeValue}
    {w : Option AttributeValue} (hpath : AccessPath.select c.schema c = .ok (.directLoad v w)) :
    AccessPath.directLoad? c.schema c = some (.directLoad v w) ∧
      c.allConditions = loadConditions c.schema v w := by
  cases AccessPath.select_chosen h hs hpath with
  | load hpin hall =>
    refine ⟨?_, hall⟩
    obtain ⟨-, hload | ⟨hnone, -⟩⟩ := AccessPath.select_ok hpath
    · exact hload
    · obtain ⟨_, _, hsome, -⟩ := AccessPath.directLoad?_of_fullyPinned h hs hpin
      rw [hnone] at hsome
      cases hsome

theorem said_loadConditions {s : KeySchema} {sort : Option (String × AttributeValue)}
    (hsort : s.sortKey = sort.map Prod.fst) (v : AttributeValue) :
    (loadConditions s v (sort.map Prod.snd)).map AttributeCondition.said =
      ⟨s.attributeName s.partitionKey, .eq, [v]⟩ ::
        sort.toList.map (fun e => ⟨s.attributeName e.1, .eq, [e.2]⟩) := by
  unfold loadConditions
  rw [hsort]
  cases sort <;> rfl

theorem filtered_load (h : c.Sound) (hs : c.schema.Sound) (hfree : c.filter = none)
    (hb : b.Unreserved) {v : AttributeValue} {w : Option AttributeValue}
    (hpath : AccessPath.select c.schema c = .ok (.directLoad v w)) (mode : RequestMode)
    (table : String) :
    StoreRequest.Filtered c.schema b (StoreRequest.ofPath c (.directLoad v w) mode table)
      (StoreRequest.ofPath { c with filter := some b } (.directLoad v w) mode table) := by
  obtain ⟨hload, hall⟩ := directLoad?_of_select h hs hpath
  obtain ⟨sort, hsort, rfl⟩ := directLoad?_sort hload
  -- the key conditions are all conditions that there are, so they are read back
  have hne : loadConditions c.schema v (sort.map Prod.snd) ≠ [] := List.cons_ne_nil _ _
  have hread := read_queryRequest (sound_filter h hb) hne (fun a ha => hall ▸ ha) mode none none
  rw [said_loadConditions hsort] at hread
  unfold StoreRequest.ofPath
  rw [hfree]
  refine .load ⟨⟨rfl, rfl⟩, sort, hsort, rfl, hread⟩ rfl ?_ ?_ rfl
  · exact fun p name hname => (Slots.names_beside _ hb).get?_right hname
  · exact fun p value hvalue => (Slots.values_beside _ hb).get?_right hvalue

/-! ## The law -/

theorem filtered_ofPath (h : c.Sound) (hs : c.schema.Sound) (hfree : c.filter = none)
    (hb : b.Unreserved) {path : AccessPath} (hpath : AccessPath.select c.schema c = .ok path)
    (mode : RequestMode) (table : String) :
    StoreRequest.Filtered c.schema b (StoreRequest.ofPath c path mode table)
      (StoreRequest.ofPath { c with filter := some b } path mode table) := by
  cases path with
  | directLoad v w => exact filtered_load h hs hfree hb hpath mode table
  | primaryQuery v range order => exact filtered_query _ hfree hb mode _ none order
  | indexQuery index a range order =>
    exact filtered_query _ hfree hb mode _ (some (table, index)) order
  | scan filters => exact filtered_scan _ hfree hb mode filters

/-- A filter that is accepted changes no path, and it only adds to the requests: its text behind the
generated one and its bindings beside the generated ones. A load becomes a query for its key. -/
theorem a_filter_only_adds {schema : KeySchema} {c' : Criteria} {f : RawFilter} (store : Store α)
    (hbuilt : schema.Built) (hreach : Reachable schema c) (hfilter : c.withFilter f = .ok c') :
    (c'.accessPath : Traced α QueryError AccessPath) = c.accessPath ∧
    ∃ b, f.SaidBy c.context b ∧
      Agree (fun q q' => StoreRequest.Filtered schema b q.request q'.request)
        (c.buildQuery store).outcome (c'.buildQuery store).outcome ∧
      ∀ paged, Agree (fun q q' => StoreRequest.Filtered schema b q.request q'.request)
        (c.buildCountQuery store paged).outcome (c'.buildCountQuery store paged).outcome := by
  obtain ⟨hfree, b, hbind, rfl⟩ := withFilter_ok hfilter
  have hs := hreach.schema_sound hbuilt
  have hb := RawFilter.bind_unreserved hbind
  have hsame : Agree Eq (AccessPath.select c.schema c)
      (AccessPath.select c.schema { c with filter := some b }) := by
    rw [select_filter]
    exact .refl (fun _ => rfl) _
  rw [← hreach.schema_eq]
  refine ⟨rfl, b, (RawFilter.bind_ok hbind).2.2.2, ?_, fun paged => ?_⟩
  · rw [buildQuery_outcome, buildQuery_outcome]
    refine hsame.bind ?_
    rintro path _ hpath rfl
    exact .ok (filtered_ofPath hreach.sound hs hfree hb hpath .items _)
  · rw [buildCountQuery_outcome, buildCountQuery_outcome]
    refine hsame.bind ?_
    rintro path _ hpath rfl
    have hpages : countsPages { c with filter := some b } path = c.countsPages path := rfl
    rw [hpages]
    split
    · exact .error _
    · exact .ok (filtered_ofPath hreach.sound hs hfree hb hpath .count _)

/-- A title that the note must have. -/
def titleFilter : RawFilter :=
  { expression := "#t = :t"
    names := SortedMap.ofList [("#t", "title")]
    values := SortedMap.ofList [(":t", .string "z")] }

theorem a_filter_turns_a_load_into_a_query :
    ∃ c c', (ofEntity ⟨noteSchema, {}⟩).run
        [.equality "author" (.string "x"), .equality "day" (.string "a")] = .ok c ∧
      c.withFilter titleFilter = .ok c' ∧
      ∃ b, titleFilter.SaidBy c.context b ∧
        StoreRequest.Filtered noteSchema b
          (.load ⟨.string "x", some (.string "a"), none, none⟩) (.query titledNoteRequest) := by
  have hok : ((ofEntity ⟨noteSchema, {}⟩).run
        [.equality "author" (.string "x"), .equality "day" (.string "a")] >>= fun c =>
      c.withFilter titleFilter >>= fun c' => (c.buildQuery emptyStore).outcome >>= fun q =>
        (c'.buildQuery emptyStore).outcome >>= fun q' => Except.ok (q.request, q'.request)) =
      .ok (.load ⟨.string "x", some (.string "a"), none, none⟩, .query titledNoteRequest) := by
    decide +kernel
  obtain ⟨c, hrun, hok⟩ := bind_eq_ok_iff.1 hok
  obtain ⟨c', hfilter, hok⟩ := bind_eq_ok_iff.1 hok
  obtain ⟨q, hq, hok⟩ := bind_eq_ok_iff.1 hok
  obtain ⟨q', hq', hok⟩ := bind_eq_ok_iff.1 hok
  obtain ⟨-, b, hsaid, hbuild, -⟩ :=
    a_filter_only_adds emptyStore noteSchema_built ⟨{}, _, hrun⟩ hfilter
  rw [hq, hq'] at hbuild
  cases hbuild with
  | ok hfiltered =>
    simp only [Except.ok.injEq, Prod.mk.injEq] at hok
    rw [hok.1, hok.2] at hfiltered
    exact ⟨c, c', hrun, hfilter, b, hsaid, hfiltered⟩

end Criteria

end KeyAccess
