-- The law of store calls: a store is called as it is asked to be, and no more often. What is built
-- asks for no item, what is used asks for its items once, and the count of a page or a deletion
-- follows only where the items have arrived.
import Mathlib
import KeyAccess.Proofs.Session.Run

namespace KeyAccess

/-! ## The calls that are due -/

namespace Operation

variable {α : Type}

/-- The calls that an operation is due to make. -/
def due : Operation α → List (StoreCall α)
  | buildSchema _ | beginCriteria _ | addToCriteria _ _ => []
  | buildQuery c _ | buildCount c _ _ => c.tableCalls
  | read b _ => [b.query.itemCall]
  | page b n pageable => b.query.pageCalls n.count pageable
  | delete b => b.query.itemCall :: b.query.deletions
  | count n => [n.count.call]

theorem calls_eq_due (op : Operation α) : op.calls = op.due := by
  cases op with
  | buildSchema _ | beginCriteria _ | addToCriteria _ _ => rfl
  | buildQuery c store => exact c.calls_buildQuery store
  | buildCount c store paged => exact c.calls_buildCountQuery store paged
  | read b reading =>
    cases reading with
    | results => exact b.query.calls_execute
    | singleResult => exact b.query.calls_singleResult
    | resultList => exact b.query.calls_resultList
    | existence => exact b.query.calls_exists?
  | page b n pageable => exact b.query.calls_page n.count pageable
  | delete b => exact b.query.calls_delete
  | count n => exact n.count.calls_count

/-- The store that an operation calls first. -/
def store? : Operation α → Option (Store α)
  | buildSchema _ | beginCriteria _ | addToCriteria _ _ => none
  | buildQuery _ store | buildCount _ store _ => some store
  | read b _ | page b _ _ | delete b => some b.query.store
  | count n => some n.count.store

/-- No call is made after one that failed. -/
def EndsAtFailure (op : Operation α) : Prop :=
  ∀ before call next after, op.calls = before ++ call :: next :: after →
    ∃ store, op.store? = some store ∧ store.answers call = true

/-- At most two calls are due, and of two the first is answered. -/
theorem due_cases (op : Operation α) : op.due = [] ∨ (∃ call, op.due = [call]) ∨
    ∃ first second store, op.due = [first, second] ∧ op.store? = some store ∧
      store.answers first = true := by
  cases op with
  | buildSchema _ | beginCriteria _ | addToCriteria _ _ => exact Or.inl rfl
  | buildQuery c _ | buildCount c _ _ =>
    rcases c.tableCalls_cases with hnone | htable
    · exact Or.inl hnone
    · exact Or.inr (Or.inl ⟨_, htable⟩)
  | read b _ => exact Or.inr (Or.inl ⟨_, rfl⟩)
  | page b n pageable =>
    rcases b.query.pageCalls_cases n.count pageable with hnone | hitem | ⟨-, -, hanswered, hboth⟩
    · exact Or.inl hnone
    · exact Or.inr (Or.inl ⟨_, hitem⟩)
    · exact Or.inr (Or.inr ⟨_, _, _, hboth, rfl, hanswered⟩)
  | delete b =>
    rcases b.query.deletions_cases with hnone | ⟨hanswered, entity, hdelete⟩
    · exact Or.inr (Or.inl ⟨_, congrArg _ hnone⟩)
    · exact Or.inr (Or.inr ⟨_, _, _, congrArg _ hdelete, rfl, hanswered⟩)
  | count n => exact Or.inr (Or.inl ⟨_, rfl⟩)

theorem endsAtFailure (op : Operation α) : op.EndsAtFailure := by
  intro before call next after hcalls
  rw [calls_eq_due] at hcalls
  rcases op.due_cases with hnone | ⟨first, hone⟩ | ⟨first, second, store, htwo, hstore, hanswered⟩
  · rw [hnone] at hcalls
    simp at hcalls
  · rw [hone] at hcalls
    have hlength := congrArg List.length hcalls
    simp at hlength
    omega
  · rw [htwo] at hcalls
    cases before with
    | nil =>
      cases hcalls
      exact ⟨store, hstore, hanswered⟩
    | cons _ before =>
      have hlength := congrArg List.length hcalls
      simp at hlength
      omega

end Operation

/-! ## The law -/

variable {α : Type} {ops : List (Operation α)} {s : Session α}

theorem Session.log_after (s : Session α) (op : Operation α) :
    (s.after op).log = s.log ++ op.calls := by
  cases op <;> rfl

/-- The calls of a run are those that its operations are due to make, in their order, whatever the
stores answer. No operation makes a call after one that failed. -/
theorem stores_are_called_as_asked (h : Run ops s) :
    s.log = ops.flatMap Operation.due ∧
      ∀ op ∈ ops, op.calls = op.due ∧ op.EndsAtFailure := by
  refine ⟨?_, fun op _ => ⟨op.calls_eq_due, op.endsAtFailure⟩⟩
  induction h with
  | start => rfl
  | @snoc ops s _ op _ ih =>
    rw [s.log_after, ih, op.calls_eq_due, List.flatMap_append, List.flatMap_singleton]

/-- A store in which a scan finds these results. -/
def storeOf (elements : List (Except StoreError Unit)) : Store Unit :=
  { emptyStore with scan := fun _ _ => .ok (.ofStore elements) }

/-- The only note is deleted; of a note and a failure, none is. -/
theorem a_single_note_is_deleted :
    ∃ s scan, Run (noteOperations ++ [.delete (scannedNotes (storeOf [.ok ()]))] ++
        [.delete (scannedNotes (storeOf [.ok (), .error { message := "gone" }]))]) s ∧
      s.log = [.scan noteSchema scan, .delete noteSchema (), .scan noteSchema scan] := by
  obtain ⟨s, hrun, hquery, -⟩ := noteOperations_run
  have hrun := (hrun.snoc (.delete _) (hquery (storeOf [.ok ()]))).snoc (.delete _)
    (hquery (storeOf [.ok (), .error { message := "gone" }]))
  exact ⟨_, scanRequest (allNotes {}) .items [], hrun, (stores_are_called_as_asked hrun).1⟩

end KeyAccess
