-- Sessions: what a caller does with the library, one operation after another. A session holds what
-- its operations have made so far, and an operation can use only what is there. Whatever a run of
-- operations makes, its criteria come from a built schema, and its queries and counts were built by
-- operations of the run.
import Mathlib
import KeyAccess.Proofs.Query.Calls
import KeyAccess.Proofs.Request.Emitted

namespace KeyAccess

/-! ## Operations -/

/-- A query with the criteria that built it, as they were then. -/
structure BuiltQuery (α : Type) where
  criteria : Criteria
  query : Query α

/-- A count with the criteria that built it, as they were then. -/
structure BuiltCount (α : Type) where
  criteria : Criteria
  count : CountQuery α

/-- What is read of the items of a query. -/
inductive Reading
  | results
  | singleResult
  | resultList
  | existence

/-- One thing that a caller does. -/
inductive Operation (α : Type)
  | buildSchema (draft : SchemaDraft)
  | beginCriteria (entity : EntityDefinition)
  | addToCriteria (criteria : Criteria) (call : Call)
  | buildQuery (criteria : Criteria) (store : Store α)
  | buildCount (criteria : Criteria) (store : Store α) (paged : Bool)
  | read (built : BuiltQuery α) (reading : Reading)
  | page (built : BuiltQuery α) (count : BuiltCount α) (pageable : Pageable)
  | delete (built : BuiltQuery α)
  | count (count : BuiltCount α)

namespace Operation

variable {α : Type}

/-- The calls that an operation makes. -/
def calls : Operation α → List (StoreCall α)
  -- these operations are given no store
  | buildSchema _ | beginCriteria _ | addToCriteria _ _ => []
  | buildQuery c store => (c.buildQuery store).calls
  | buildCount c store paged => (c.buildCountQuery store paged).calls
  | read b .results => b.query.execute.calls
  | read b .singleResult => b.query.singleResult.calls
  | read b .resultList => b.query.resultList.calls
  | read b .existence => b.query.exists?.calls
  | page b n pageable => (b.query.page n.count pageable).calls
  | delete b => b.query.delete.calls
  | count n => n.count.count.calls

/-- The query that an operation uses. -/
def query? : Operation α → Option (BuiltQuery α)
  | read b _ | page b _ _ | delete b => some b
  | buildSchema _ | beginCriteria _ | addToCriteria _ _ | buildQuery _ _ | buildCount _ _ _
  | count _ => none

/-- The count that an operation uses. -/
def count? : Operation α → Option (BuiltCount α)
  | page _ n _ | count n => some n
  | buildSchema _ | beginCriteria _ | addToCriteria _ _ | buildQuery _ _ | buildCount _ _ _
  | read _ _ | delete _ => none

end Operation

/-! ## Sessions -/

/-- What a caller has at hand, and the calls that were made so far. -/
structure Session (α : Type) where
  schemas : List KeySchema := []
  criteria : List Criteria := []
  queries : List (BuiltQuery α) := []
  counts : List (BuiltCount α) := []
  log : List (StoreCall α) := []

namespace Session

variable {α : Type}

/-- The query is at hand. The answers of its store may be others by now. -/
def HasQuery (s : Session α) (b : BuiltQuery α) : Prop :=
  ∃ store, { b with query := { b.query with store } } ∈ s.queries

/-- The count is at hand. The answers of its store may be others by now. -/
def HasCount (s : Session α) (n : BuiltCount α) : Prop :=
  ∃ store, { n with count := { n.count with store } } ∈ s.counts

/-- All that an operation uses is at hand. -/
def Allows (s : Session α) : Operation α → Prop
  | .buildSchema _ => True
  | .beginCriteria entity => entity.schema ∈ s.schemas
  | .addToCriteria c _ | .buildQuery c _ | .buildCount c _ _ => c ∈ s.criteria
  | .read b _ | .delete b => s.HasQuery b
  | .page b n _ => s.HasQuery b ∧ s.HasCount n
  | .count n => s.HasCount n

/-- The session after an operation. What the operation made, if it did not fail, is at hand. -/
def after (s : Session α) (op : Operation α) : Session α :=
  let s := { s with log := s.log ++ op.calls }
  match op with
  | .buildSchema draft => { s with schemas := draft.build.toOption.toList ++ s.schemas }
  | .beginCriteria entity => { s with criteria := .ofEntity entity :: s.criteria }
  | .addToCriteria c call => { s with criteria := (c.apply call).toOption.toList ++ s.criteria }
  | .buildQuery c store =>
    { s with queries := (c.buildQuery store).outcome.toOption.toList.map (⟨c, ·⟩) ++ s.queries }
  | .buildCount c store paged =>
    { s with
      counts := (c.buildCountQuery store paged).outcome.toOption.toList.map (⟨c, ·⟩) ++ s.counts }
  | .read _ _ | .page _ _ _ | .delete _ | .count _ => s

end Session

open Session

/-- Operations that are done one after the other, from the first of a session on. -/
inductive Run {α : Type} : List (Operation α) → Session α → Prop
  | start : Run [] {}
  | snoc {ops : List (Operation α)} {s : Session α} (h : Run ops s) (op : Operation α) :
      s.Allows op → Run (ops ++ [op]) (s.after op)

/-! ## What is at hand -/

section Sound

variable {α : Type} {ops : List (Operation α)} {s : Session α} {op : Operation α}

/-- Calls on criteria over a built schema have led to these criteria. -/
def Criteria.Grounded (c : Criteria) : Prop :=
  ∃ schema : KeySchema, schema.Built ∧ Reachable schema c

/-- One of the operations built the query, for a store that then answered in some way. -/
def BuiltQuery.MadeIn (b : BuiltQuery α) (ops : List (Operation α)) : Prop :=
  ∃ store, .buildQuery b.criteria store ∈ ops ∧
    (b.criteria.buildQuery store).outcome = .ok { b.query with store }

/-- One of the operations built the count, for a store that then answered in some way. -/
def BuiltCount.MadeIn (n : BuiltCount α) (ops : List (Operation α)) : Prop :=
  ∃ store paged, .buildCount n.criteria store paged ∈ ops ∧
    (n.criteria.buildCountQuery store paged).outcome = .ok { n.count with store }

theorem BuiltQuery.MadeIn.mono {b : BuiltQuery α} (h : b.MadeIn ops) (op : Operation α) :
    b.MadeIn (ops ++ [op]) := by
  obtain ⟨store, hmem, hbuilt⟩ := h
  exact ⟨store, List.mem_append_left _ hmem, hbuilt⟩

theorem BuiltCount.MadeIn.mono {n : BuiltCount α} (h : n.MadeIn ops) (op : Operation α) :
    n.MadeIn (ops ++ [op]) := by
  obtain ⟨store, paged, hmem, hbuilt⟩ := h
  exact ⟨store, paged, List.mem_append_left _ hmem, hbuilt⟩

/-- Everything in a session was made by its operations. -/
structure Session.Sound (ops : List (Operation α)) (s : Session α) : Prop where
  schemas : ∀ schema ∈ s.schemas, schema.Built
  criteria : ∀ c ∈ s.criteria, c.Grounded
  queries : ∀ b ∈ s.queries, b.MadeIn ops ∧ b.criteria.Grounded
  counts : ∀ n ∈ s.counts, n.MadeIn ops ∧ n.criteria.Grounded

theorem Criteria.Grounded.apply {c c' : Criteria} {call : Call} (h : c.Grounded)
    (happly : c.apply call = .ok c') : c'.Grounded := by
  obtain ⟨schema, hbuilt, config, calls, hrun⟩ := h
  refine ⟨schema, hbuilt, config, calls ++ [call], ?_⟩
  unfold Criteria.run at *
  rw [List.foldlM_append, hrun, ok_bind, List.foldlM_cons, happly]
  rfl

/-- What an operation may have made is at hand if the operation succeeded. -/
theorem mem_made_append {ε β : Type} {outcome : Except ε β} {x : β} {l : List β} :
    x ∈ outcome.toOption.toList ++ l ↔ outcome = .ok x ∨ x ∈ l := by
  cases outcome with
  | error e => simp [Except.toOption]
  | ok y => simp [Except.toOption, eq_comm]

theorem mem_map_made_append {ε β γ : Type} {outcome : Except ε β} {f : β → γ} {y : γ}
    {l : List γ} :
    y ∈ outcome.toOption.toList.map f ++ l ↔ (∃ x, outcome = .ok x ∧ f x = y) ∨ y ∈ l := by
  cases outcome with
  | error e => simp [Except.toOption]
  | ok x => simp [Except.toOption, eq_comm]

theorem Session.Sound.mono (h : s.Sound ops) (op : Operation α) : s.Sound (ops ++ [op]) :=
  ⟨h.schemas, h.criteria, fun b hb => ⟨(h.queries b hb).1.mono op, (h.queries b hb).2⟩,
    fun n hn => ⟨(h.counts n hn).1.mono op, (h.counts n hn).2⟩⟩

/-- What is at hand after an operation was made by it, or was at hand before. -/
theorem Session.Sound.after (h : s.Sound ops) (hop : s.Allows op) :
    (s.after op).Sound (ops ++ [op]) := by
  have hkeep := h.mono op
  have hlast : op ∈ ops ++ [op] := by simp
  -- an operation adds to one of the four lists at most, and the other three are kept
  cases op with
  | buildSchema draft =>
    refine ⟨?_, hkeep.criteria, hkeep.queries, hkeep.counts⟩
    intro schema hmem
    rcases mem_made_append.1 hmem with hbuild | hmem
    · exact ⟨draft, hbuild⟩
    · exact h.schemas schema hmem
  | beginCriteria entity =>
    refine ⟨hkeep.schemas, ?_, hkeep.queries, hkeep.counts⟩
    intro c hmem
    rcases List.mem_cons.1 hmem with rfl | hmem
    · exact ⟨entity.schema, h.schemas _ hop, entity.config, [], rfl⟩
    · exact h.criteria c hmem
  | addToCriteria c call =>
    refine ⟨hkeep.schemas, ?_, hkeep.queries, hkeep.counts⟩
    intro c' hmem
    rcases mem_made_append.1 hmem with happly | hmem
    · exact (h.criteria c hop).apply happly
    · exact h.criteria c' hmem
  | buildQuery c store =>
    refine ⟨hkeep.schemas, hkeep.criteria, ?_, hkeep.counts⟩
    intro b hmem
    rcases mem_map_made_append.1 hmem with ⟨q, hq, rfl⟩ | hmem
    · refine ⟨⟨store, hlast, ?_⟩, h.criteria c hop⟩
      obtain ⟨path, -, rfl⟩ := Criteria.buildQuery_made hq
      exact hq
    · exact hkeep.queries b hmem
  | buildCount c store paged =>
    refine ⟨hkeep.schemas, hkeep.criteria, hkeep.queries, ?_⟩
    intro n hmem
    rcases mem_map_made_append.1 hmem with ⟨q, hq, rfl⟩ | hmem
    · refine ⟨⟨store, paged, hlast, ?_⟩, h.criteria c hop⟩
      obtain ⟨path, -, rfl⟩ := Criteria.buildCountQuery_made hq
      exact hq
    · exact hkeep.counts n hmem
  | read _ _ | page _ _ _ | delete _ | count _ =>
    exact ⟨hkeep.schemas, hkeep.criteria, hkeep.queries, hkeep.counts⟩

theorem Run.sound (h : Run ops s) : s.Sound ops := by
  induction h with
  | start => exact ⟨by simp, by simp, by simp, by simp⟩
  | snoc _ op hop ih => exact ih.after hop

theorem Session.Sound.query {b : BuiltQuery α} (h : s.Sound ops) (hb : s.HasQuery b) :
    b.MadeIn ops ∧ b.criteria.Grounded := by
  obtain ⟨store, hmem⟩ := hb
  exact h.queries { b with query := { b.query with store } } hmem

theorem Session.Sound.count {n : BuiltCount α} (h : s.Sound ops) (hn : s.HasCount n) :
    n.MadeIn ops ∧ n.criteria.Grounded := by
  obtain ⟨store, hmem⟩ := hn
  exact h.counts { n with count := { n.count with store } } hmem

theorem Session.Allows.query {b : BuiltQuery α} (h : s.Allows op)
    (hb : op.query? = some b) : s.HasQuery b := by
  cases op with
  | buildSchema _ | beginCriteria _ | addToCriteria _ _ | buildQuery _ _ | buildCount _ _ _
  | count _ => cases hb
  | read _ _ | delete _ =>
    cases hb
    exact h
  | page _ _ _ =>
    cases hb
    exact h.1

theorem Session.Allows.count {n : BuiltCount α} (h : s.Allows op)
    (hn : op.count? = some n) : s.HasCount n := by
  cases op with
  | buildSchema _ | beginCriteria _ | addToCriteria _ _ | buildQuery _ _ | buildCount _ _ _
  | read _ _ | delete _ => cases hn
  | count _ =>
    cases hn
    exact h
  | page _ _ _ =>
    cases hn
    exact h.2

end Sound

/-! ## One session -/

/-- Criteria for all notes. -/
def allNotes (config : QueryConfig) : Criteria := .ofEntity ⟨noteSchema, config⟩

/-- All notes under the default policy, which allows scans. -/
def scannedNotes (store : Store Unit) : BuiltQuery Unit :=
  ⟨allNotes {}, store, noteSchema, .scan [], .scan (scanRequest (allNotes {}) .items []), .list⟩

/-- The number of all notes under a policy that allows scans for pages as well. -/
def countedNotes (store : Store Unit) : BuiltCount Unit :=
  ⟨allNotes { scan := .permissive }, store, noteSchema,
    .scan (scanRequest (allNotes { scan := .permissive }) .count []), true⟩

/-- All notes are queried under one policy and counted for a page under another one. -/
def noteOperations : List (Operation Unit) :=
  [.buildSchema noteDraft, .beginCriteria ⟨noteSchema, {}⟩,
    .beginCriteria ⟨noteSchema, { scan := .permissive }⟩, .buildQuery (allNotes {}) emptyStore,
    .buildCount (allNotes { scan := .permissive }) emptyStore true]

theorem noteOperations_run : ∃ s, Run noteOperations s ∧
    (∀ store, s.HasQuery (scannedNotes store)) ∧ ∀ store, s.HasCount (countedNotes store) := by
  have hschema : noteDraft.build = .ok noteSchema := by decide
  have hquery : ((allNotes {}).buildQuery emptyStore).outcome =
      .ok (scannedNotes emptyStore).query := rfl
  have hcount : ((allNotes { scan := .permissive }).buildCountQuery emptyStore true).outcome =
      .ok (countedNotes emptyStore).count := rfl
  have h₁ := (Run.start (α := Unit)).snoc (.buildSchema noteDraft) trivial
  have h₂ := h₁.snoc (.beginCriteria ⟨noteSchema, {}⟩) (mem_made_append.2 (Or.inl hschema))
  have h₃ := h₂.snoc (.beginCriteria ⟨noteSchema, { scan := .permissive }⟩)
    (mem_made_append.2 (Or.inl hschema))
  have h₄ := h₃.snoc (.buildQuery (allNotes {}) emptyStore)
    (List.mem_cons_of_mem _ List.mem_cons_self)
  have h₅ := h₄.snoc (.buildCount (allNotes { scan := .permissive }) emptyStore true)
    List.mem_cons_self
  refine ⟨_, h₅, fun _ => ⟨emptyStore, ?_⟩, fun _ => ⟨emptyStore, ?_⟩⟩
  · exact mem_map_made_append.2 (Or.inl ⟨_, hquery, rfl⟩)
  · exact mem_map_made_append.2 (Or.inl ⟨_, hcount, rfl⟩)

end KeyAccess
