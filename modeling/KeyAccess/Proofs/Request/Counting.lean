-- The law of counts: a count counts what a query fetches. Both are refused for the same reasons,
-- but that the count of a page may need leave to scan, and their requests differ in nothing but
-- what they return of the items that they find.
import Mathlib
import KeyAccess.Proofs.Request.Emitted

namespace KeyAccess

/-! ## Requests that find the same items -/

/-- The request of a count and the request that fetches what is counted. A load is counted by the
same load; else all that is found is counted, with no limit and no attribute of the items. -/
inductive StoreRequest.Counts : StoreRequest → StoreRequest → Prop
  | load (r : LoadRequest) : Counts (.load r) (.load r)
  | query (r : QueryRequest) :
      Counts (.query { r with limit := none, projectionExpression := none, select := .count })
        (.query r)
  | scan (r : ScanRequest) :
      Counts (.scan { r with limit := none, projectionExpression := none, select := .count })
        (.scan r)

theorem StoreRequest.Counts.of_query {n : StoreRequest} {r : QueryRequest}
    (h : n.Counts (.query r)) :
    n = .query { r with limit := none, projectionExpression := none, select := .count } := by
  cases h
  rfl

theorem StoreRequest.counts_query (c : Criteria) (key : List AttributeCondition)
    (index : Option (String × String)) (order : Option SortOrder) :
    Counts (.query (queryRequest c .count key index order))
      (.query (queryRequest c .items key index order)) :=
  .query (queryRequest c .items key index order)

theorem StoreRequest.counts_scan (c : Criteria) (filters : List AttributeCondition) :
    Counts (.scan (scanRequest c .count filters)) (.scan (scanRequest c .items filters)) :=
  .scan (scanRequest c .items filters)

/-- The two requests of one path find the same items, whichever path it is. -/
theorem StoreRequest.counts_ofPath (c : Criteria) (path : AccessPath) (table : String) :
    Counts (ofPath c path .count table) (ofPath c path .items table) := by
  cases path with
  | directLoad partition sort =>
    unfold ofPath
    -- a filter turns the load into a query, for the count as for the items
    cases c.filter with
    | none => exact .load _
    | some f => exact counts_query c _ none none
  | primaryQuery partition sort order => exact counts_query c _ none order
  | indexQuery index partition sort order => exact counts_query c _ (some (table, index)) order
  | scan filters => exact counts_scan c filters

namespace Criteria

variable {α : Type}

/-- The count of a page would read all items, and there is no leave for that. -/
def RefusesCount (c : Criteria) (path : AccessPath) (paged : Bool) : Prop :=
  paged = true ∧ path.isScan = true ∧ c.config.scan.countEnabled = false

instance (c : Criteria) (path : AccessPath) (paged : Bool) :
    Decidable (c.RefusesCount path paged) := inferInstanceAs (Decidable (_ ∧ _ ∧ _))

theorem refusesCount_iff {c : Criteria} {path : AccessPath} {paged : Bool} :
    c.RefusesCount path paged ↔ (paged && !c.countsPages path) = true := by
  unfold RefusesCount countsPages
  simp

/-! ## The law -/

/-- A count fails as the query fails. Else it is built unless it is the count of a page that would
scan without leave, and its request counts what the request of the query fetches. -/
theorem a_count_counts_what_a_query_fetches (c : Criteria) (store : Store α) (paged : Bool) :
    match (c.buildQuery store).outcome with
    | .error e => (c.buildCountQuery store paged).outcome = .error e
    | .ok q =>
      if c.RefusesCount q.path paged then
        (c.buildCountQuery store paged).outcome =
          .error (.unsupportedOperation (.scanCountDisabled c.schema.entity))
      else ∃ n, (c.buildCountQuery store paged).outcome = .ok n ∧
        StoreRequest.Counts n.request q.request := by
  rw [buildQuery_outcome, buildCountQuery_outcome]
  cases AccessPath.select c.schema c with
  | error e => rfl
  | ok path =>
    -- both requests are made of the path that was chosen
    change if c.RefusesCount path paged then
        (if paged && !c.countsPages path then _ else _) = _
      else ∃ n, (if paged && !c.countsPages path then _ else _) = _ ∧ _
    split
    · rename_i hrefused
      rw [if_pos (refusesCount_iff.1 hrefused)]
    · rename_i hallowed
      rw [if_neg (mt refusesCount_iff.2 hallowed)]
      exact ⟨_, rfl, StoreRequest.counts_ofPath c path _⟩

/-- Some late notes on a topic that have a title, and of them the day only. -/
def lateNotes : List Call :=
  [.equality "topic" (.string "x"), .range "day" .gt (.string "a"),
    .filter { expression := "#t = :t"
              names := SortedMap.ofList [("#t", "title")]
              values := SortedMap.ofList [(":t", .string "z")] },
    .limit 5, .projection "d"]

/-- What is asked of them. -/
def lateNotesRequest : QueryRequest :=
  { tableName := some "note"
    indexName := some "topicDays"
    keyConditionExpression := "#kq_n0 = :kq_v0 AND #kq_n1 > :kq_v1"
    filterExpression := some "#t = :t"
    attributeNames := SortedMap.ofList [("#kq_n0", "topic"), ("#kq_n1", "d"), ("#t", "title")]
    attributeValues := SortedMap.ofList
      [(":kq_v0", .string "x"), (":kq_v1", .string "a"), (":t", .string "z")]
    scanIndexForward := true
    limit := some 5
    consistentRead := none
    projectionExpression := some "d"
    select := .specificAttributes }

/-- Some notes with a title, which only a scan finds. -/
def titledNotesInPart : List Call := [.equality "title" (.string "z"), .limit 5, .projection "d"]

/-- Of the late notes five are fetched at most, and of each its day, but all of them are counted.
The titled notes are fetched by a scan, and there is no leave to count them for a page. -/
theorem late_notes_are_counted_beyond_the_limit :
    (∃ c q n, (ofEntity ⟨noteSchema, {}⟩).run lateNotes = .ok c ∧
      (c.buildQuery emptyStore).outcome = .ok q ∧ q.request = .query lateNotesRequest ∧
      (c.buildCountQuery emptyStore true).outcome = .ok n ∧
      n.request = .query { lateNotesRequest with
        limit := none, projectionExpression := none, select := .count }) ∧
    ∃ c q, (ofEntity ⟨noteSchema, {}⟩).run titledNotesInPart = .ok c ∧
      (c.buildQuery emptyStore).outcome = .ok q ∧ q.path.isScan = true ∧
      (c.buildCountQuery emptyStore true).outcome =
        .error (.unsupportedOperation (.scanCountDisabled "note")) := by
  constructor
  · have hok : ((ofEntity ⟨noteSchema, {}⟩).run lateNotes >>= fun c =>
        (c.buildQuery emptyStore).outcome >>= fun q => Except.ok (q.request, q.path.isScan)) =
        .ok (.query lateNotesRequest, false) := by
      decide +kernel
    obtain ⟨c, hrun, hok⟩ := bind_eq_ok_iff.1 hok
    obtain ⟨q, hq, hok⟩ := bind_eq_ok_iff.1 hok
    obtain ⟨hrequest, hscan⟩ := Prod.mk.inj (Except.ok.inj hok)
    have hallowed : ¬ c.RefusesCount q.path true := by
      rintro ⟨-, hrefused, -⟩
      rw [hscan] at hrefused
      cases hrefused
    have hcount := a_count_counts_what_a_query_fetches c emptyStore true
    rw [hq] at hcount
    dsimp only at hcount
    rw [if_neg hallowed, hrequest] at hcount
    obtain ⟨n, hn, hcounts⟩ := hcount
    exact ⟨c, q, n, hrun, hq, hrequest, hn, hcounts.of_query⟩
  · have hok : ((ofEntity ⟨noteSchema, {}⟩).run titledNotesInPart >>= fun c =>
        (c.buildQuery emptyStore).outcome >>= fun q =>
          Except.ok (c.schema.entity, q.path.isScan, c.config.scan.countEnabled)) =
        .ok ("note", true, false) := by
      decide +kernel
    obtain ⟨c, hrun, hok⟩ := bind_eq_ok_iff.1 hok
    obtain ⟨q, hq, hok⟩ := bind_eq_ok_iff.1 hok
    obtain ⟨hentity, hrest⟩ := Prod.mk.inj (Except.ok.inj hok)
    obtain ⟨hscan, hconfig⟩ := Prod.mk.inj hrest
    have hcount := a_count_counts_what_a_query_fetches c emptyStore true
    rw [hq] at hcount
    dsimp only at hcount
    rw [if_pos ⟨rfl, hscan, hconfig⟩, hentity] at hcount
    exact ⟨c, q, hrun, hq, hscan, hcount⟩

end Criteria

end KeyAccess
