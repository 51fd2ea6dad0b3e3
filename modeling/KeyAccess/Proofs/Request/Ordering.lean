-- The law of sort directives: a directive is honoured or refused, and never ignored. Only the sort
-- member of the key that is queried can give an order, and there is none where every item is read.
import Mathlib
import KeyAccess.Proofs.AccessPath.Cheapest
import KeyAccess.Proofs.Request.Emitted

namespace KeyAccess

/-! ## The order of a request -/

/-- A query is read in the order of its path, which is ascending without a directive. -/
theorem StoreRequest.scanIndexForward_of_path {c : Criteria} {path : AccessPath}
    {mode : RequestMode} {table : String} {r : QueryRequest}
    (h : StoreRequest.ofPath c path mode table = .query r) :
    r.scanIndexForward = (path.order.map SortOrder.ascending).getD true := by
  cases path with
  | directLoad partition sort =>
    unfold ofPath at h
    dsimp only at h
    split at h
    · cases h
    · cases h
      rfl
  | primaryQuery partition sort order => cases h; rfl
  | indexQuery index partition sort order => cases h; rfl
  | scan filters => cases h

namespace Criteria

variable {α : Type} {c : Criteria}

/-- A sort directive is honoured: one item needs no order, and a query is read by the sort member of
its key, in the direction that is asked for. An index gives no order where an equality fixes its
sort member. -/
inductive Honours (c : Criteria) (d : SortOrder) : AccessPath → StoreRequest → Prop
  | load {v : AttributeValue} {w : Option AttributeValue} {request : StoreRequest} :
      Honours c d (.directLoad v w) request
  | primary {v : AttributeValue} {range : Option AttributeCondition} {r : QueryRequest} :
      c.schema.sortKey = some d.property → r.scanIndexForward = d.ascending →
      Honours c d (.primaryQuery v range (some d)) (.query r)
  | index {i : IndexDefinition} {a : AttributeCondition} {range : Option AttributeCondition}
      {r : QueryRequest} : c.schema.index? i.name = some i → i.sort = some d.property →
      (∀ b ∈ c.allConditions, b.property = d.property → b.condition.isEquality = false) →
      r.scanIndexForward = d.ascending →
      Honours c d (.indexQuery i.name a range (some d)) (.query r)

theorem honours_of_chosen {path : AccessPath} {d : SortOrder} (hs : c.schema.Sound)
    (hchosen : AccessPath.Chosen c path) (hd : c.sort.head? = some d) (mode : RequestMode)
    (table : String) : c.Honours d path (StoreRequest.ofPath c path mode table) := by
  cases hchosen with
  | load _ _ => exact .load
  | @primary s v hsort _ _ hord =>
    have hproperty := hord d hd
    rw [hd]
    refine .primary ?_ rfl
    rw [hsort, hproperty]
  | @index i a hi _ hord _ =>
    obtain ⟨hsort, hfree⟩ := hord d hd
    rw [hd]
    refine .index (hs.index?_eq hi) hsort (fun b hb hp => ?_) rfl
    exact hfree b (mem_conditionsOn.2 ⟨hb, hp⟩)
  | scan hnone _ =>
    rw [hnone] at hd
    cases hd

theorem order_of_chosen {path : AccessPath} (hchosen : AccessPath.Chosen c path)
    (hnone : c.sort.head? = none) : path.order = none := by
  cases hchosen with
  | load _ _ => rfl
  | primary _ _ _ _ => exact hnone
  | index _ _ _ _ => exact hnone
  | scan _ _ => rfl

/-! ## The law -/

/-- A sort directive is honoured or refused: of two directives neither is, one is honoured by each
query that is built, no scan is built under a directive, and without one every query ascends. -/
theorem a_sort_directive_is_never_ignored {schema : KeySchema} (store : Store α)
    (hbuilt : schema.Built) (hreach : Reachable schema c) :
    (2 ≤ c.sort.length → ∃ fault, (c.accessPath : Traced α QueryError AccessPath).outcome =
      .error (.unsupportedOperation fault)) ∧
    (∀ d q, c.sort = [d] → (c.buildQuery store).outcome = .ok q → c.Honours d q.path q.request) ∧
    (c.sort ≠ [] → ∀ r, ¬ c.Emits store (.scan r)) ∧
    (c.sort = [] → ∀ r, c.Emits store (.query r) → r.scanIndexForward = true) := by
  have hs := hreach.schema_sound hbuilt
  refine ⟨fun hmany => ?_, fun d q hd hq => ?_, fun hsome r hemits => ?_, fun hnone r hemits => ?_⟩
  · refine ⟨.severalSorts c.sort.length, ?_⟩
    rw [AccessPath.accessPath_outcome]
    unfold AccessPath.select
    rw [if_pos (by omega)]
    rfl
  · obtain ⟨hpath, table, hrequest⟩ := buildQuery_ok hq
    rw [hrequest]
    have hchosen := AccessPath.select_chosen hreach.sound hs hpath
    exact honours_of_chosen hs hchosen (by rw [hd]; rfl) .items table
  · obtain ⟨path, mode, table, hpath, hrequest⟩ := hemits.of_path
    obtain ⟨filters, rfl⟩ := StoreRequest.scan_of_path hrequest.symm
    have hchosen := AccessPath.select_chosen hreach.sound hs hpath
    have hhead : c.sort.head? = none := by
      cases hchosen
      assumption
    exact hsome (List.head?_eq_none_iff.1 hhead)
  · obtain ⟨path, mode, table, hpath, hrequest⟩ := hemits.of_path
    have hchosen := AccessPath.select_chosen hreach.sound hs hpath
    have hhead : c.sort.head? = none := by rw [hnone]; rfl
    rw [StoreRequest.scanIndexForward_of_path hrequest.symm, order_of_chosen hchosen hhead]
    rfl

theorem the_latest_on_a_topic_descend :
    ∃ c q, (ofEntity ⟨noteSchema, {}⟩).run latestOnTopic = .ok c ∧
      (c.buildQuery emptyStore).outcome = .ok q ∧ q.path = latestOnTopicPath ∧
      c.Honours ⟨"day", false⟩ q.path q.request := by
  have hok : ((ofEntity ⟨noteSchema, {}⟩).run latestOnTopic >>= fun c =>
      (c.buildQuery emptyStore).outcome >>= fun q => Except.ok (c.sort, q.path)) =
      .ok ([⟨"day", false⟩], latestOnTopicPath) := by
    decide +kernel
  obtain ⟨c, hrun, hok⟩ := bind_eq_ok_iff.1 hok
  obtain ⟨q, hq, hok⟩ := bind_eq_ok_iff.1 hok
  simp only [Except.ok.injEq, Prod.mk.injEq] at hok
  have hlaw := a_sort_directive_is_never_ignored emptyStore noteSchema_built
    ⟨{}, latestOnTopic, hrun⟩
  exact ⟨c, q, hrun, hq, hok.2, hlaw.2.1 _ q hok.1 hq⟩

end Criteria

end KeyAccess
