-- Where requests come from. A request of a built query or of a built count is made from the path
-- that was chosen, so what holds of every chosen path can be said of every request.
import Mathlib
import KeyAccess.Query
import KeyAccess.Proofs.AccessPath.Chosen

namespace KeyAccess

namespace Criteria

variable {α : Type} {c : Criteria} {store : Store α}

/-- The criteria build a query or a count with a request. -/
def Emits (c : Criteria) (store : Store α) (request : StoreRequest) : Prop :=
  (∃ q, (c.buildQuery store).outcome = .ok q ∧ q.request = request) ∨
    ∃ paged q, (c.buildCountQuery store paged).outcome = .ok q ∧ q.request = request

/-- The table that the request of a path names if it names one. -/
def tableOf (c : Criteria) (store : Store α) : AccessPath → String
  | .indexQuery _ _ _ _ => store.tableName c.schema c.schema.tableName
  | .directLoad _ _ | .primaryQuery _ _ _ | .scan _ => c.schema.tableName

/-- Assembling a request never fails. -/
theorem requestFor_outcome (c : Criteria) (store : Store α) (path : AccessPath)
    (mode : RequestMode) : (c.requestFor store path mode).outcome =
      .ok (StoreRequest.ofPath c path mode (c.tableOf store path)) := by
  cases path <;> rfl

theorem buildQuery_outcome (c : Criteria) (store : Store α) :
    (c.buildQuery store).outcome = AccessPath.select c.schema c >>= fun path =>
      .ok ⟨store, c.schema, path,
        StoreRequest.ofPath c path .items (c.tableOf store path), c.shape⟩ := by
  unfold buildQuery
  simp only [Traced.outcome_bind, AccessPath.accessPath_outcome, requestFor_outcome]
  rfl

/-- Whether the count of a page may read all items of a path. -/
def countsPages (c : Criteria) (path : AccessPath) : Bool :=
  !path.isScan || c.config.scan.countEnabled

theorem buildCountQuery_outcome (c : Criteria) (store : Store α) (paged : Bool) :
    (c.buildCountQuery store paged).outcome = AccessPath.select c.schema c >>= fun path =>
      if paged && !c.countsPages path then
        .error (.unsupportedOperation (.scanCountDisabled c.schema.entity))
      else .ok ⟨store, c.schema, StoreRequest.ofPath c path .count (c.tableOf store path),
        c.countsPages path⟩ := by
  unfold buildCountQuery
  rw [Traced.outcome_bind, AccessPath.accessPath_outcome]
  congr 1
  funext path
  have hlast : ∀ servesPages, (do
        let request ← c.requestFor store path .count
        return ⟨store, c.schema, request, servesPages⟩ :
          Traced α QueryError (CountQuery α)).outcome =
      .ok ⟨store, c.schema, StoreRequest.ofPath c path .count (c.tableOf store path),
        servesPages⟩ := by
    intro servesPages
    rw [Traced.outcome_bind, requestFor_outcome]
    rfl
  unfold countsPages
  dsimp only
  split
  · split
    · rfl
    · rw [Traced.outcome_bind]
      exact hlast _
  · rename_i hscan
    rw [if_neg (by simp [hscan])]
    exact hlast _

/-- The query that is built, field by field. -/
theorem buildQuery_made {q : Query α} (h : (c.buildQuery store).outcome = .ok q) :
    ∃ path, AccessPath.select c.schema c = .ok path ∧
      q = ⟨store, c.schema, path,
        StoreRequest.ofPath c path .items (c.tableOf store path), c.shape⟩ := by
  rw [buildQuery_outcome, bind_eq_ok_iff] at h
  obtain ⟨path, hpath, h⟩ := h
  cases h
  exact ⟨path, hpath, rfl⟩

theorem buildQuery_ok {q : Query α} (h : (c.buildQuery store).outcome = .ok q) :
    AccessPath.select c.schema c = .ok q.path ∧
      ∃ table, q.request = StoreRequest.ofPath c q.path .items table := by
  obtain ⟨path, hpath, rfl⟩ := buildQuery_made h
  exact ⟨hpath, _, rfl⟩

/-- The count that is built, field by field. -/
theorem buildCountQuery_made {paged : Bool} {q : CountQuery α}
    (h : (c.buildCountQuery store paged).outcome = .ok q) :
    ∃ path, AccessPath.select c.schema c = .ok path ∧
      q = ⟨store, c.schema, StoreRequest.ofPath c path .count (c.tableOf store path),
        c.countsPages path⟩ := by
  rw [buildCountQuery_outcome, bind_eq_ok_iff] at h
  obtain ⟨path, hpath, h⟩ := h
  split at h
  · cases h
  · cases h
    exact ⟨path, hpath, rfl⟩

theorem buildCountQuery_ok {paged : Bool} {q : CountQuery α}
    (h : (c.buildCountQuery store paged).outcome = .ok q) :
    ∃ path table, AccessPath.select c.schema c = .ok path ∧
      q.request = StoreRequest.ofPath c path .count table := by
  obtain ⟨path, hpath, rfl⟩ := buildCountQuery_made h
  exact ⟨path, _, hpath, rfl⟩

theorem Emits.of_path {request : StoreRequest} (h : c.Emits store request) :
    ∃ path mode table, AccessPath.select c.schema c = .ok path ∧
      request = StoreRequest.ofPath c path mode table := by
  rcases h with ⟨q, hq, rfl⟩ | ⟨paged, q, hq, rfl⟩
  · obtain ⟨hpath, table, hrequest⟩ := buildQuery_ok hq
    exact ⟨q.path, .items, table, hpath, hrequest⟩
  · obtain ⟨path, table, hpath, hrequest⟩ := buildCountQuery_ok hq
    exact ⟨path, .count, table, hpath, hrequest⟩

end Criteria

/-- A request is a load, or it is made from all conditions of its path. -/
theorem StoreRequest.ofPath_cases (c : Criteria) (path : AccessPath) (mode : RequestMode)
    (table : String) :
    (∃ l, ofPath c path mode table = .load l) ∨
      (∃ index order, ofPath c path mode table =
        .query (queryRequest c mode (path.conditions c.schema) index order)) ∨
      ofPath c path mode table = .scan (scanRequest c mode (path.conditions c.schema)) := by
  cases path with
  | directLoad partition sort =>
    unfold ofPath
    dsimp only
    split
    · exact Or.inl ⟨_, rfl⟩
    · exact Or.inr (Or.inl ⟨none, none, rfl⟩)
  | primaryQuery partition sort order => exact Or.inr (Or.inl ⟨none, order, rfl⟩)
  | indexQuery index partition sort order =>
    exact Or.inr (Or.inl ⟨some (table, index), order, rfl⟩)
  | scan filters => exact Or.inr (Or.inr rfl)

/-- Only a scan is turned into a scan. -/
theorem StoreRequest.scan_of_path {c : Criteria} {path : AccessPath} {mode : RequestMode}
    {table : String} {r : ScanRequest} (h : StoreRequest.ofPath c path mode table = .scan r) :
    ∃ filters, path = .scan filters := by
  cases path with
  | directLoad partition sort =>
    unfold ofPath at h
    dsimp only at h
    split at h <;> cases h
  | primaryQuery partition sort order => cases h
  | indexQuery index partition sort order => cases h
  | scan filters => exact ⟨filters, rfl⟩

/-- A store without items. -/
def emptyStore : Store Unit :=
  { load := fun _ _ => .ok none
    query := fun _ _ => .ok .empty
    scan := fun _ _ => .ok .empty
    count := fun _ _ => .ok 0
    delete := fun _ _ => .ok () }

end KeyAccess
