-- The law of scan leave: the scan policy cannot be passed by. Whatever a caller builds, combines
-- and uses, in whatever order, and however policies change meanwhile, a store is asked to read all
-- items only for what was built when the policy of its criteria allowed it.
import Mathlib
import KeyAccess.Proofs.Session.Calls

namespace KeyAccess

variable {α : Type} {ops : List (Operation α)} {s : Session α}

/-! ## Leave to build -/

/-- A path that is turned into a scan is one that the policy allows. -/
theorem Criteria.Grounded.scan_enabled {c : Criteria} (h : c.Grounded) {path : AccessPath}
    (hpath : AccessPath.select c.schema c = .ok path) {mode : RequestMode} {table : String}
    {r : ScanRequest} (hrequest : StoreRequest.ofPath c path mode table = .scan r) :
    path.isScan = true ∧ c.config.scan.enabled = true := by
  obtain ⟨schema, hbuilt, hreach⟩ := h
  have hchosen := AccessPath.select_chosen hreach.sound (hreach.schema_sound hbuilt) hpath
  obtain ⟨filters, rfl⟩ := StoreRequest.scan_of_path hrequest
  cases hchosen with
  | scan _ henabled => exact ⟨rfl, henabled⟩

theorem BuiltQuery.MadeIn.scan_enabled {b : BuiltQuery α} (h : b.MadeIn ops)
    (hc : b.criteria.Grounded) {r : ScanRequest} (hr : b.query.request = .scan r) :
    b.criteria.config.scan.enabled = true := by
  obtain ⟨store, -, hbuild⟩ := h
  obtain ⟨hpath, table, hrequest⟩ := Criteria.buildQuery_ok hbuild
  exact (hc.scan_enabled hpath (hrequest.symm.trans hr)).2

/-- A count that scans may serve a page only under a policy that allows this as well. -/
theorem BuiltCount.MadeIn.scan_enabled {n : BuiltCount α} (h : n.MadeIn ops)
    (hc : n.criteria.Grounded) {r : ScanRequest} (hr : n.count.request = .scan r) :
    n.criteria.config.scan.enabled = true ∧
      (n.count.servesPages = true → n.criteria.config.scan.countEnabled = true) := by
  obtain ⟨store, paged, -, hbuild⟩ := h
  obtain ⟨path, hpath, hmade⟩ := Criteria.buildCountQuery_made hbuild
  have hrequest := congrArg CountQuery.request hmade
  have hserves := congrArg CountQuery.servesPages hmade
  obtain ⟨hscan, henabled⟩ := hc.scan_enabled hpath (hrequest.symm.trans hr)
  refine ⟨henabled, fun hpages => ?_⟩
  -- the flag that the count carries was computed from the path, which is a scan
  have hcounts : n.criteria.countsPages path = true := hserves.symm.trans hpages
  unfold Criteria.countsPages at hcounts
  simpa [hscan] using hcounts

/-! ## The calls that read all items -/

theorem Query.request_of_scan {q : Query α} {schema : KeySchema} {r : ScanRequest}
    (h : q.itemCall = .scan schema r) : q.request = .scan r := by
  unfold itemCall at h
  split at h
  · cases h
  · cases h
  · rename_i hrequest
    cases h
    exact hrequest

theorem Query.itemCall_ne_count (q : Query α) (schema : KeySchema) (r : StoreRequest) :
    q.itemCall ≠ .count schema r := by
  unfold itemCall
  split <;> exact nofun

theorem CountQuery.request_of_count {n : CountQuery α} {schema : KeySchema} {r : StoreRequest}
    (h : n.call = .count schema r) : n.request = r := by
  unfold call at h
  split at h
  · cases h
  · cases h
    rfl
  · cases h
    rfl

theorem CountQuery.call_ne_scan (n : CountQuery α) (schema : KeySchema) (r : ScanRequest) :
    n.call ≠ .scan schema r := by
  unfold call
  split <;> exact nofun

theorem Criteria.eq_of_mem_tableCalls {c : Criteria} {call : StoreCall α}
    (h : call ∈ c.tableCalls) : call = .tableName c.schema c.schema.tableName := by
  rcases c.tableCalls_cases with hnone | htable
  · rw [hnone] at h
    cases h
  · rw [htable] at h
    exact List.mem_singleton.1 h

theorem Query.eq_of_mem_deletions {q : Query α} {call : StoreCall α} (h : call ∈ q.deletions) :
    ∃ entity, call = .delete q.schema entity := by
  rcases q.deletions_cases with hnone | ⟨-, entity, hdelete⟩
  · rw [hnone] at h
    cases h
  · rw [hdelete] at h
    exact ⟨entity, List.mem_singleton.1 h⟩

theorem Query.eq_of_mem_pageCalls {q : Query α} {n : CountQuery α} {pageable : Pageable}
    {call : StoreCall α} (h : call ∈ q.pageCalls n pageable) :
    call = q.itemCall ∨ (call = n.call ∧ n.servesPages = true) := by
  rcases q.pageCalls_cases n pageable with hnone | hitem | ⟨-, hserves, -, hboth⟩
  · rw [hnone] at h
    cases h
  · rw [hitem] at h
    exact Or.inl (List.mem_singleton.1 h)
  · rw [hboth] at h
    exact (List.mem_pair.1 h).imp_right fun hcount => ⟨hcount, hserves⟩

namespace Operation

variable {op : Operation α} {schema : KeySchema}

/-- A scan is called for the query that the operation uses. -/
theorem scan_mem_calls {r : ScanRequest} (h : .scan schema r ∈ op.calls) :
    ∃ b, op.query? = some b ∧ b.query.request = .scan r := by
  rw [calls_eq_due] at h
  cases op with
  | buildSchema _ | beginCriteria _ | addToCriteria _ _ => cases h
  | buildQuery c _ | buildCount c _ _ => cases Criteria.eq_of_mem_tableCalls h
  | read b _ => exact ⟨b, rfl, Query.request_of_scan (List.mem_singleton.1 h).symm⟩
  | page b n pageable =>
    rcases Query.eq_of_mem_pageCalls h with hitem | ⟨hcount, -⟩
    · exact ⟨b, rfl, Query.request_of_scan hitem.symm⟩
    · exact absurd hcount.symm (n.count.call_ne_scan schema r)
  | delete b =>
    rcases List.mem_cons.1 h with hitem | hdelete
    · exact ⟨b, rfl, Query.request_of_scan hitem.symm⟩
    · obtain ⟨entity, hdelete⟩ := Query.eq_of_mem_deletions hdelete
      cases hdelete
  | count n => exact absurd (List.mem_singleton.1 h).symm (n.count.call_ne_scan schema r)

/-- A number is called for the count that the operation uses, which serves pages if the operation
asks for a page. -/
theorem count_mem_calls {r : StoreRequest} (h : .count schema r ∈ op.calls) :
    ∃ n, op.count? = some n ∧ n.count.request = r ∧
      ((∃ b pageable, op = .page b n pageable) → n.count.servesPages = true) := by
  rw [calls_eq_due] at h
  cases op with
  | buildSchema _ | beginCriteria _ | addToCriteria _ _ => cases h
  | buildQuery c _ | buildCount c _ _ => cases Criteria.eq_of_mem_tableCalls h
  | read b _ => exact absurd (List.mem_singleton.1 h).symm (b.query.itemCall_ne_count schema r)
  | page b n pageable =>
    rcases Query.eq_of_mem_pageCalls h with hitem | ⟨hcount, hserves⟩
    · exact absurd hitem.symm (b.query.itemCall_ne_count schema r)
    · refine ⟨n, rfl, CountQuery.request_of_count hcount.symm, ?_⟩
      rintro ⟨_, _, ⟨⟩⟩
      exact hserves
  | delete b =>
    rcases List.mem_cons.1 h with hitem | hdelete
    · exact absurd hitem.symm (b.query.itemCall_ne_count schema r)
    · obtain ⟨entity, hdelete⟩ := Query.eq_of_mem_deletions hdelete
      cases hdelete
  | count n =>
    refine ⟨n, rfl, CountQuery.request_of_count (List.mem_singleton.1 h).symm, ?_⟩
    rintro ⟨_, _, ⟨⟩⟩

end Operation

/-! ## The law -/

/-- After any run, an operation that makes a store read all items, to fetch them or to count them,
uses what the run built from criteria that then had leave for scans. If it asks for a page, the
criteria of its count then had leave to count by scanning too. -/
theorem a_scan_needs_leave {op : Operation α} (hrun : Run ops s) (hop : s.Allows op) :
    (∀ schema r, .scan schema r ∈ op.calls → ∃ b, op.query? = some b ∧ b.MadeIn ops ∧
      b.query.request = .scan r ∧ b.criteria.config.scan.enabled = true) ∧
    (∀ schema r, .count schema (.scan r) ∈ op.calls → ∃ n, op.count? = some n ∧ n.MadeIn ops ∧
      n.count.request = .scan r ∧ n.criteria.config.scan.enabled = true ∧
      ((∃ b pageable, op = .page b n pageable) → n.criteria.config.scan.countEnabled = true)) := by
  have hsound := hrun.sound
  constructor
  · intro schema r hcall
    obtain ⟨b, hb, hrequest⟩ := Operation.scan_mem_calls hcall
    obtain ⟨hmade, hgrounded⟩ := hsound.query (hop.query hb)
    exact ⟨b, hb, hmade, hrequest, hmade.scan_enabled hgrounded hrequest⟩
  · intro schema r hcall
    obtain ⟨n, hn, hrequest, hpage⟩ := Operation.count_mem_calls hcall
    obtain ⟨hmade, hgrounded⟩ := hsound.count (hop.count hn)
    obtain ⟨henabled, hcounts⟩ := hmade.scan_enabled hgrounded hrequest
    exact ⟨n, hn, hmade, hrequest, henabled, fun h => hcounts (hpage h)⟩

/-- A page of all notes scans for them and for their number, each with leave. -/
theorem a_page_of_notes_scans_with_leave :
    ∃ s op scan count, Run noteOperations s ∧ s.Allows op ∧
      op.calls = [.scan noteSchema scan, .count noteSchema (.scan count)] ∧
      (∃ b, op.query? = some b ∧ b.MadeIn noteOperations ∧
        b.criteria.config.scan.enabled = true) ∧
      ∃ n, op.count? = some n ∧ n.MadeIn noteOperations ∧
        n.criteria.config.scan.countEnabled = true := by
  obtain ⟨s, hrun, hquery, hcount⟩ := noteOperations_run
  have hop : s.Allows (.page (scannedNotes emptyStore) (countedNotes emptyStore) (.paged 0 10)) :=
    ⟨hquery emptyStore, hcount emptyStore⟩
  obtain ⟨hscans, hcounts⟩ := a_scan_needs_leave hrun hop
  have hcalls := Operation.calls_eq_due
    (.page (scannedNotes emptyStore) (countedNotes emptyStore) (.paged 0 10))
  refine ⟨s, _, _, _, hrun, hop, hcalls, ?_, ?_⟩
  · obtain ⟨b, hb, hmade, -, henabled⟩ :=
      hscans noteSchema _ (by rw [hcalls]; exact List.mem_cons_self)
    exact ⟨b, hb, hmade, henabled⟩
  · obtain ⟨n, hn, hmade, -, -, hpage⟩ :=
      hcounts noteSchema _ (by rw [hcalls]; exact List.mem_cons_of_mem _ List.mem_cons_self)
    cases hn
    exact ⟨_, rfl, hmade, hpage ⟨_, _, rfl⟩⟩

end KeyAccess
