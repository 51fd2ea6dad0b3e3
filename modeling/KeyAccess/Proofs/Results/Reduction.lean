-- The law of single results. A list is reduced to the one entity that it holds. Several entities
-- are too many only if all of them could be fetched: a failure that stands anywhere in the list
-- comes before the wrong size.
import Mathlib
import KeyAccess.Proofs.Results.Tiling

namespace KeyAccess

open Traced

theorem ResultShape.isSingleEntity_iff {shape : ResultShape} :
    shape.isSingleEntity = true ↔ shape = .single ∨ shape = .delete := by
  cases shape <;> simp [isSingleEntity]

/-! ## Passes one after the other -/

namespace Results

variable {α : Type} {elements : List (Except StoreError α)} {failure : StoreError}

theorem FirstFailure.unique {other : StoreError} (h : FirstFailure elements failure)
    (h' : FirstFailure elements other) : failure = other := by
  rw [← gathered_eq_error_iff] at h h'
  rw [h] at h'
  cases h'
  rfl

theorem FirstFailure.not_clean (h : FirstFailure elements failure) : ¬ Clean elements := by
  intro hclean
  obtain ⟨entities, hentities⟩ := clean_iff.1 hclean
  rw [← gathered_eq_ok_iff, gathered_eq_error_iff.2 h] at hentities
  cases hentities

theorem outcome_drain (r : Results α) (l : List (Except StoreError α)) :
    (r.drain l).outcome = gathered l := by
  rw [drain_eq_take, outcome_take, List.take_length]

/-- Some passes one after the other, each of which collects what it can. A pass that fails does not
keep the next one from beginning. -/
def collectEach (r : Results α) : Nat → Traced α StoreError (List (Except StoreError (List α)))
  | 0 => return []
  | passes + 1 => do
    let first ← ⟨r.collect.effects, .ok r.collect.outcome⟩
    let others ← r.collectEach passes
    return first :: others

/-- However many passes are made over a list, each of them ends in one way. -/
def EveryPass (r : Results α) (outcome : Except StoreError (List α)) : Prop :=
  ∀ passes, (r.collectEach passes).outcome = .ok (List.replicate passes outcome)

theorem everyPass_collect (r : Results α) : r.EveryPass r.collect.outcome := by
  intro passes
  induction passes with
  | zero => rfl
  | succ passes ih =>
    change Traced.outcome (_ >>= _) = _
    rw [outcome_bind, ok_bind, outcome_bind, ih]
    rfl

theorem everyPass_ofOption (entity : Option α) :
    (Results.ofOption entity).EveryPass (.ok entity.toList) := by
  have hcollect : (Results.ofOption entity).collect.outcome = .ok entity.toList := by
    rw [outcome_collect, gathered_eq_ok_iff]
    rfl
  rw [← hcollect]
  apply everyPass_collect

end Results

/-! ## One entity of several -/

namespace ShapedResults

open Results

variable {α : Type}

/-- The single one of some entities, if there are not too many. -/
def single : List α → Except QueryError (Option α)
  | [] => .ok none
  | [entity] => .ok (some entity)
  | entities => .error (.incorrectResultSize 1 entities.length)

/-- All entities are gathered before their number counts. -/
theorem outcome_singleResult (s : ShapedResults α) :
    s.singleResult.outcome = ((gathered s.results.elements).mapError .store >>= single) := by
  unfold singleResult
  rw [outcome_bind, outcome_start, ok_bind]
  cases s.results.elements with
  | nil => rfl
  | cons first rest =>
    rw [outcome_bind, outcome_pull, ok_bind, outcome_bind, outcome_mapFailure]
    cases first with
    | error failure => rfl
    | ok entity =>
      cases rest with
      | nil => rfl
      | cons second rest =>
        change Traced.outcome (_ >>= _) = _
        rw [outcome_bind, outcome_mapFailure, outcome_drain, gathered]
        cases hrest : gathered (second :: rest) with
        | error failure => rfl
        | ok others =>
          cases others with
          | nil => simp [gathered_eq_ok_iff] at hrest
          | cons other others =>
            change Except.error _ = Except.error _
            rw [List.length_cons (a := entity), Nat.add_comm]

theorem single_eq_ok_iff {entities : List α} {entity : Option α} :
    single entities = .ok entity ↔ entities = entity.toList := by
  match entities with
  | [] => cases entity <;> simp [single]
  | [_] => cases entity <;> simp [single]
  | _ :: _ :: _ => cases entity <;> simp [single]

theorem single_eq_error_iff {entities : List α} {e : QueryError} :
    single entities = .error e ↔
      2 ≤ entities.length ∧ e = .incorrectResultSize 1 entities.length := by
  match entities with
  | [] => simp [single]
  | [_] => simp [single]
  | _ :: _ :: _ => simp [single, eq_comm]

variable {s : ShapedResults α}

theorem singleResult_eq_ok_iff {entity : Option α} :
    s.singleResult.outcome = .ok entity ↔ s.results.elements = entity.toList.map .ok := by
  rw [outcome_singleResult, ← gathered_eq_ok_iff]
  cases gathered s.results.elements with
  | error failure => simp [Except.mapError, bind, Except.bind]
  | ok entities => simp [Except.mapError, ok_bind, single_eq_ok_iff]

theorem singleResult_eq_error_iff {e : QueryError} :
    s.singleResult.outcome = .error e ↔
      (∃ failure, FirstFailure s.results.elements failure ∧ e = .store failure) ∨
      (Clean s.results.elements ∧ 2 ≤ s.results.elements.length ∧
        e = .incorrectResultSize 1 s.results.elements.length) := by
  rw [outcome_singleResult]
  cases hall : gathered s.results.elements with
  | error failure =>
    have hdirty := (gathered_eq_error_iff.1 hall).not_clean
    simp only [← gathered_eq_error_iff, hall, hdirty, false_and, or_false]
    simp [Except.mapError, bind, Except.bind, eq_comm]
  | ok entities =>
    have hclean := gathered_eq_ok_iff.1 hall
    simp only [← gathered_eq_error_iff, hall, reduceCtorEq, false_and, exists_false, false_or]
    change single entities = _ ↔ _
    rw [single_eq_error_iff, hclean, List.length_map]
    exact (and_iff_right (clean_iff.2 ⟨entities, rfl⟩)).symm

/-! ## Lists of results -/

theorem outcome_resultList_of_single (h : s.shape.isSingleEntity = true) :
    s.resultList.outcome = (s.singleResult.outcome >>= fun entity => .ok (.ofOption entity)) := by
  unfold resultList
  rw [if_pos h, outcome_bind]
  rfl

/-- A list of any other shape is handed on. -/
theorem resultList_eq (hsingle : s.shape ≠ .single) (hdelete : s.shape ≠ .delete) :
    s.resultList = .ok s.results := by
  have hnot : ¬ s.shape.isSingleEntity = true := by
    rw [ResultShape.isSingleEntity_iff]
    exact not_or.2 ⟨hsingle, hdelete⟩
  unfold resultList
  rw [if_neg hnot]
  rfl

/-! ## The law -/

/-- What is expected of the reduction of some elements to a single entity. -/
structure Reduced (elements : List (Except StoreError α))
    (outcome : Except QueryError (Option α)) : Prop where
  none : outcome = .ok none ↔ elements = []
  one : ∀ entity, outcome = .ok (some entity) ↔ elements = [.ok entity]
  several : ∀ expected actual, outcome = .error (.incorrectResultSize expected actual) ↔
    expected = 1 ∧ actual = elements.length ∧ 2 ≤ elements.length ∧ Clean elements
  otherwise : elements ≠ [] → (∀ entity, elements ≠ [.ok entity]) →
    ¬ (2 ≤ elements.length ∧ Clean elements) →
    ∃ failure, FirstFailure elements failure ∧ outcome = .error (.store failure)

theorem reduced_singleResult (s : ShapedResults α) :
    Reduced s.results.elements s.singleResult.outcome := by
  refine ⟨singleResult_eq_ok_iff, fun entity => singleResult_eq_ok_iff, ?_, ?_⟩
  · intro expected actual
    rw [singleResult_eq_error_iff]
    constructor
    · rintro (⟨failure, -, heq⟩ | ⟨hclean, hlength, heq⟩)
      · cases heq
      · cases heq
        exact ⟨rfl, rfl, hlength, hclean⟩
    · rintro ⟨rfl, rfl, hlength, hclean⟩
      exact Or.inr ⟨hclean, hlength, rfl⟩
  · intro hnone hone hseveral
    cases houtcome : s.singleResult.outcome with
    | ok entity =>
      rw [singleResult_eq_ok_iff] at houtcome
      cases entity with
      | none => exact absurd houtcome hnone
      | some entity => exact absurd houtcome (hone entity)
    | error e =>
      rcases singleResult_eq_error_iff.1 houtcome with ⟨failure, hfirst, rfl⟩ | ⟨hclean, hlength, -⟩
      · exact ⟨failure, hfirst, rfl⟩
      · exact absurd ⟨hlength, hclean⟩ hseveral

/-- A list is reduced to nothing only if it is empty, to an entity only if that is all it holds, and
is too long only if it holds no failure; else the first failure is reported. A list of a single
shape fails as this reduction does or has what it yields on every pass, and any other list is the
one that was given. -/
theorem a_single_result_is_exact (s : ShapedResults α) :
    Reduced s.results.elements s.singleResult.outcome ∧
    (s.shape = .single ∨ s.shape = .delete →
      (∀ e, s.singleResult.outcome = .error e → s.resultList.outcome = .error e) ∧
      ∀ entity, s.singleResult.outcome = .ok entity →
        ∃ list, s.resultList.outcome = .ok list ∧ list.EveryPass (.ok entity.toList)) ∧
    (s.shape ≠ .single → s.shape ≠ .delete →
      ∃ list, s.resultList.outcome = .ok list ∧ list.EveryPass s.results.collect.outcome) := by
  refine ⟨s.reduced_singleResult, ?_, ?_⟩
  · intro hshape
    rw [outcome_resultList_of_single (ResultShape.isSingleEntity_iff.2 hshape)]
    constructor
    · intro e he
      rw [he]
      rfl
    · intro entity hentity
      rw [hentity]
      exact ⟨_, rfl, everyPass_ofOption entity⟩
  · intro hsingle hdelete
    rw [resultList_eq hsingle hdelete]
    exact ⟨s.results, rfl, s.results.everyPass_collect⟩

/-- Two notes where one is to be deleted, and a third that a store cannot fetch. -/
def tornDelete : ShapedResults String :=
  ⟨.ofStore [.ok "a", .ok "b", .error { message := "lost" }], .delete⟩

/-- The failure is reported and not that there are two notes. -/
theorem a_late_failure_comes_before_the_wrong_size :
    tornDelete.shape = .delete ∧
      tornDelete.singleResult.outcome = .error (.store { message := "lost" }) ∧
      tornDelete.resultList.outcome = .error (.store { message := "lost" }) := by
  obtain ⟨hreduced, hlist, -⟩ := a_single_result_is_exact tornDelete
  have hfirst : FirstFailure tornDelete.results.elements { message := "lost" } :=
    ⟨["a", "b"], [], rfl⟩
  obtain ⟨failure, hfailure, houtcome⟩ := hreduced.otherwise (by simp [tornDelete, ofStore])
    (by simp [tornDelete, ofStore]) (fun h => hfirst.not_clean h.2)
  rw [hfailure.unique hfirst] at houtcome
  exact ⟨rfl, houtcome, (hlist (Or.inr rfl)).1 _ houtcome⟩

end ShapedResults

end KeyAccess
