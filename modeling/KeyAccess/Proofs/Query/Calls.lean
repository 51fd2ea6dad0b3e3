-- The calls that building and using a query make. A build asks for the name of a table at most.
-- Each use of a query asks for its items once, and only their arrival can lead to a second call.
import Mathlib
import KeyAccess.Query
import KeyAccess.Proofs.Results.Reduction
import KeyAccess.Proofs.AccessPath.Chosen

namespace KeyAccess

open Traced

variable {α : Type}

/-! ## Answers -/

namespace Store

/-- Whether the store answers a call. Else the call fails. -/
def answers (s : Store α) : StoreCall α → Bool
  | .load schema request => (s.load schema request).isOk
  | .query schema request => (s.query schema request).isOk
  | .scan schema request => (s.scan schema request).isOk
  | .count schema request => (s.count schema request).isOk
  | .delete schema entity => (s.delete schema entity).isOk
  | .tableName _ _ => true

variable {β : Type}

theorem outcome_calling (call : StoreCall α) (answer : Except StoreError β) :
    (calling call answer).outcome = answer.mapError .store := by
  cases answer <;> rfl

end Store

/-! ## Building -/

namespace Criteria

variable {c : Criteria} {store : Store α}

/-- The calls that a build is due to make: an index query names its table, and the store may have
another name for it. -/
def tableCalls (c : Criteria) : List (StoreCall α) :=
  match AccessPath.select c.schema c with
  | .ok (.indexQuery _ _ _ _) => [.tableName c.schema c.schema.tableName]
  | .ok _ | .error _ => []

theorem tableCalls_cases (c : Criteria) : (c.tableCalls : List (StoreCall α)) = [] ∨
    (c.tableCalls : List (StoreCall α)) = [.tableName c.schema c.schema.tableName] := by
  unfold tableCalls
  split
  · exact Or.inr rfl
  · exact Or.inl rfl
  · exact Or.inl rfl

theorem quiet_accessPath (c : Criteria) :
    (c.accessPath : Traced α QueryError AccessPath).Quiet := by
  unfold accessPath accessPathIn
  cases AccessPath.select c.schema c with
  | error e => rfl
  | ok path => simp [Quiet, calls, List.filterMap_map, Function.comp_def, Effect.call?]

/-- Assembling the request of the path that is chosen asks for the table of an index query. -/
theorem calls_requestFor {path : AccessPath} (h : AccessPath.select c.schema c = .ok path)
    (mode : RequestMode) : (c.requestFor store path mode).calls = c.tableCalls := by
  unfold tableCalls
  rw [h]
  cases path <;> rfl

theorem calls_buildQuery (c : Criteria) (store : Store α) :
    (c.buildQuery store).calls = c.tableCalls := by
  unfold buildQuery
  rw [calls_bind_of_quiet c.quiet_accessPath, AccessPath.accessPath_outcome]
  cases h : AccessPath.select c.schema c with
  | error e =>
    unfold tableCalls
    rw [h]
  | ok path =>
    refine (calls_bind_quiet fun _ => ?_).trans (calls_requestFor h .items)
    exact quiet_pure _

theorem calls_buildCountQuery (c : Criteria) (store : Store α) (paged : Bool) :
    (c.buildCountQuery store paged).calls = c.tableCalls := by
  unfold buildCountQuery
  rw [calls_bind_of_quiet c.quiet_accessPath, AccessPath.accessPath_outcome]
  cases h : AccessPath.select c.schema c with
  | error e =>
    unfold tableCalls
    rw [h]
  | ok path =>
    have hlast : ∀ servesPages, (do
        let request ← c.requestFor store path .count
        return ⟨store, c.schema, request, servesPages⟩ :
          Traced α QueryError (CountQuery α)).calls = c.tableCalls := fun _ =>
      (calls_bind_quiet fun _ => quiet_pure _).trans (calls_requestFor h .count)
    dsimp only
    split
    · rename_i hscan
      split
      · -- a count that is refused is one of a scan, which names no table
        cases path with
        | scan filters =>
          unfold tableCalls
          rw [h]
          rfl
        | directLoad _ _ | primaryQuery _ _ _ | indexQuery _ _ _ _ => cases hscan
      · rw [calls_bind_of_quiet (quiet_log _ _)]
        exact hlast _
    · exact hlast _

end Criteria

/-! ## Using -/

namespace CountQuery

/-- The call that asks for the number of items. A load counts by loading. -/
def call (n : CountQuery α) : StoreCall α :=
  match n.request with
  | .load request => .load n.schema request
  | .query _ | .scan _ => .count n.schema n.request

theorem calls_count (n : CountQuery α) : n.count.calls = [n.call] := by
  unfold count call
  cases n.request with
  | load request => exact calls_bind_quiet fun _ => quiet_pure _
  | query request => rfl
  | scan request => rfl

end CountQuery

namespace Query

/-- The call that asks for the items. -/
def itemCall (q : Query α) : StoreCall α :=
  match q.request with
  | .load request => .load q.schema request
  | .query request => .query q.schema request
  | .scan request => .scan q.schema request

/-- What the store answers to it. -/
def answer (q : Query α) : Except StoreError (Results α) :=
  match q.request with
  | .load request => (q.store.load q.schema request).map .ofOption
  | .query request => q.store.query q.schema request
  | .scan request => q.store.scan q.schema request

theorem answers_itemCall (q : Query α) : q.store.answers q.itemCall = q.answer.isOk := by
  unfold itemCall answer
  cases q.request with
  | load request =>
    change (q.store.load q.schema request).isOk = _
    dsimp only
    cases q.store.load q.schema request <;> rfl
  | query request => rfl
  | scan request => rfl

theorem calls_ask (q : Query α) : q.ask.calls = [q.itemCall] := by
  unfold ask itemCall
  cases q.request with
  | load request => exact calls_bind_quiet fun _ => quiet_pure _
  | query request => rfl
  | scan request => rfl

theorem outcome_ask (q : Query α) : q.ask.outcome = q.answer.mapError .store := by
  unfold ask answer
  cases q.request with
  | load request =>
    dsimp only
    rw [outcome_bind]
    unfold Store.askLoad
    rw [Store.outcome_calling]
    cases q.store.load q.schema request <;> rfl
  | query request => exact Store.outcome_calling _ _
  | scan request => exact Store.outcome_calling _ _

theorem calls_execute (q : Query α) : q.execute.calls = [q.itemCall] :=
  (calls_bind_quiet fun _ => (quiet_log _ _).bind fun _ => quiet_pure _).trans q.calls_ask

theorem outcome_execute (q : Query α) :
    q.execute.outcome = (q.answer.mapError .store).map fun results => ⟨results, q.shape⟩ := by
  unfold execute
  rw [outcome_bind, outcome_ask]
  cases q.answer <;> rfl

/-- Nothing is asked for after the items if nothing is asked for while they are reduced. -/
theorem calls_execute_bind {β : Type} {f : ShapedResults α → Traced α QueryError β} (q : Query α)
    (hf : ∀ s, (f s).Quiet) : (q.execute >>= f).calls = [q.itemCall] :=
  (calls_bind_quiet hf).trans q.calls_execute

theorem calls_singleResult (q : Query α) : q.singleResult.calls = [q.itemCall] :=
  q.calls_execute_bind ShapedResults.quiet_singleResult

theorem calls_resultList (q : Query α) : q.resultList.calls = [q.itemCall] :=
  q.calls_execute_bind ShapedResults.quiet_resultList

theorem calls_exists? (q : Query α) : q.exists?.calls = [q.itemCall] :=
  q.calls_execute_bind ShapedResults.quiet_exists?

/-! ### Pages -/

/-- The calls that a page is due to make. A count that may not serve a page is not asked, and then
neither are the items. -/
def pageCalls (q : Query α) (n : CountQuery α) (pageable : Pageable) : List (StoreCall α) :=
  if pageable.isPaged && !n.servesPages then []
  else if pageable.isPaged && q.store.answers q.itemCall then [q.itemCall, n.call]
  else [q.itemCall]

/-- The count is asked for a page only, if it may serve one, and once the items have arrived. -/
theorem pageCalls_cases (q : Query α) (n : CountQuery α) (pageable : Pageable) :
    q.pageCalls n pageable = [] ∨ q.pageCalls n pageable = [q.itemCall] ∨
      (pageable.isPaged = true ∧ n.servesPages = true ∧ q.store.answers q.itemCall = true ∧
        q.pageCalls n pageable = [q.itemCall, n.call]) := by
  unfold pageCalls
  split
  · exact Or.inl rfl
  · rename_i hserves
    split
    · rename_i hasked
      rw [Bool.and_eq_true] at hasked
      refine Or.inr (Or.inr ⟨hasked.1, ?_, hasked.2, rfl⟩)
      simpa [hasked.1] using hserves
    · exact Or.inr (Or.inl rfl)

theorem calls_page (q : Query α) (n : CountQuery α) (pageable : Pageable) :
    (q.page n pageable).calls = q.pageCalls n pageable := by
  unfold page pageCalls
  split
  · rfl
  · rw [calls_bind, calls_execute, outcome_execute, answers_itemCall]
    cases q.answer with
    | error e => simp [Except.isOk, Except.toBool, Except.mapError, Except.map]
    | ok results =>
      change [q.itemCall] ++ (ShapedResults.page _ _ _).calls = _
      rw [ShapedResults.calls_page, n.calls_count]
      cases pageable <;> rfl

/-! ### Deletions -/

/-- The calls that a deletion is due to make once the items were asked for: a single item that is no
failure is deleted. -/
def deletions (q : Query α) : List (StoreCall α) :=
  match q.answer with
  | .ok ⟨[.ok entity], _⟩ => [.delete q.schema entity]
  | _ => []

theorem deletions_of_single {q : Query α} {entity : α} {fetched : Bool}
    (h : q.answer = .ok ⟨[.ok entity], fetched⟩) : q.deletions = [.delete q.schema entity] := by
  unfold deletions
  rw [h]

theorem deletions_of_not_single {q : Query α}
    (h : ∀ entity fetched, q.answer ≠ .ok ⟨[.ok entity], fetched⟩) : q.deletions = [] := by
  unfold deletions
  split
  · rename_i hsingle
    exact absurd hsingle (h _ _)
  · rfl

/-- A deletion follows only where the items have arrived. -/
theorem deletions_cases (q : Query α) : q.deletions = [] ∨ (q.store.answers q.itemCall = true ∧
    ∃ entity, q.deletions = [.delete q.schema entity]) := by
  by_cases hsingle : ∃ entity fetched, q.answer = .ok ⟨[.ok entity], fetched⟩
  · obtain ⟨entity, fetched, hanswer⟩ := hsingle
    refine Or.inr ⟨?_, entity, deletions_of_single hanswer⟩
    rw [answers_itemCall, hanswer]
    rfl
  · exact Or.inl (deletions_of_not_single fun entity fetched h => hsingle ⟨entity, fetched, h⟩)

/-- There is a single entity if and only if the store answers with one item that is no failure. -/
theorem singleResult_eq_some_iff {q : Query α} {entity : α} :
    q.singleResult.outcome = .ok (some entity) ↔
      ∃ fetched, q.answer = .ok ⟨[.ok entity], fetched⟩ := by
  unfold singleResult
  rw [outcome_bind, outcome_execute]
  cases q.answer with
  | error e =>
    constructor
    · intro h; cases h
    · rintro ⟨_, h⟩; cases h
  | ok results =>
    change (ShapedResults.singleResult _).outcome = _ ↔ _
    rw [ShapedResults.singleResult_eq_ok_iff, Option.toList_some, List.map_singleton]
    constructor
    · intro h
      exact ⟨results.fetched, by rw [← h]⟩
    · rintro ⟨_, h⟩
      cases h
      rfl

theorem calls_delete (q : Query α) : q.delete.calls = q.itemCall :: q.deletions := by
  unfold delete
  rw [calls_bind, calls_singleResult]
  have hnone : ∀ found, q.singleResult.outcome = found →
      (∀ entity, found ≠ .ok (some entity)) → q.deletions = [] := by
    rintro found rfl hfound
    refine deletions_of_not_single fun entity fetched h => ?_
    exact hfound entity (singleResult_eq_some_iff.2 ⟨fetched, h⟩)
  cases hfound : q.singleResult.outcome with
  | error e =>
    rw [hnone _ hfound (by simp)]
    rfl
  | ok found =>
    cases found with
    | none =>
      rw [hnone _ hfound (by simp)]
      rfl
    | some entity =>
      obtain ⟨fetched, h⟩ := singleResult_eq_some_iff.1 hfound
      rw [deletions_of_single h]
      change [q.itemCall] ++ Traced.calls (_ >>= _) = _
      rw [calls_bind_quiet fun _ => quiet_pure _]
      rfl

end Query

end KeyAccess
