-- The law of pulls. What is pulled from a list of a store has to be fetched, so it matters how far
-- a pass goes. Each use of a list makes one pass at most, and the pass goes no further than the end
-- of what was asked for or the first failure in it.
import Mathlib
import KeyAccess.Proofs.Results.Reduction

namespace KeyAccess

open Traced

/-! ## How far a pass goes -/

namespace Results

variable {α : Type}

/-- How many elements a pass pulls that ends with the first failure. -/
inductive EndsAfter : List (Except StoreError α) → Nat → Prop
  | all (entities : List α) : EndsAfter (entities.map .ok) entities.length
  | failure (before : List α) (failure : StoreError) (after : List (Except StoreError α)) :
      EndsAfter (before.map .ok ++ .error failure :: after) (before.length + 1)

/-- The number of elements up to the first failure, that one included. -/
def reach : List (Except StoreError α) → Nat
  | [] => 0
  | .error _ :: _ => 1
  | .ok _ :: rest => reach rest + 1

theorem endsAfter_reach (l : List (Except StoreError α)) : EndsAfter l (reach l) := by
  induction l with
  | nil => exact .all []
  | cons element rest ih =>
    cases element with
    | error failure => exact .failure [] failure rest
    | ok entity =>
      rw [reach]
      generalize reach rest = pulled at ih ⊢
      cases ih with
      | all entities => exact .all (entity :: entities)
      | failure before failure after => exact .failure (entity :: before) failure after

theorem reach_le_length (l : List (Except StoreError α)) : reach l ≤ l.length := by
  induction l with
  | nil => exact Nat.le_refl 0
  | cons element rest ih =>
    cases element with
    | error failure => simp [reach]
    | ok entity => simpa [reach] using ih

theorem reach_of_clean {l : List (Except StoreError α)} (h : Clean l) : reach l = l.length := by
  obtain ⟨entities, rfl⟩ := clean_iff.1 h
  induction entities with
  | nil => rfl
  | cons entity entities ih =>
    rw [List.map_cons, reach, ih (clean_iff.2 ⟨entities, rfl⟩)]
    rfl

/-- The effects of one pass that pulls so many elements. -/
def onePass (pulled : Nat) : List (Effect α) := .passStarted :: List.replicate pulled .pulled

section Fetched

variable {r : Results α} (hfetched : r.fetched = true)

include hfetched

theorem effects_start {ε : Type} : (r.start : Traced α ε _).effects = [.passStarted] := by
  unfold start emitIf
  rw [hfetched]
  rfl

theorem effects_pull {ε : Type} : (r.pull : Traced α ε Unit).effects = [.pulled] := by
  unfold pull emitIf
  rw [hfetched]
  rfl

theorem effects_skip (count : Nat) (l : List (Except StoreError α)) :
    (r.skip count l).effects = List.replicate (min count l.length) .pulled := by
  induction count generalizing l with
  | zero => rw [Nat.zero_min]; rfl
  | succ count ih =>
    cases l with
    | nil => rfl
    | cons element rest =>
      change Traced.effects (_ >>= _) = _
      rw [effects_bind_of_ok r.outcome_pull, effects_pull hfetched, ih, List.length_cons,
        Nat.succ_min_succ]
      rfl

theorem effects_take (count : Nat) (l : List (Except StoreError α)) :
    (r.take count l).effects = List.replicate (reach (l.take count)) .pulled := by
  induction count generalizing l with
  | zero => rfl
  | succ count ih =>
    cases l with
    | nil => rfl
    | cons element rest =>
      change Traced.effects (_ >>= _) = _
      rw [effects_bind_of_ok r.outcome_pull, effects_pull hfetched, List.take_succ_cons]
      cases element with
      | error failure => rfl
      | ok entity =>
        change [Effect.pulled] ++ ([] ++ Traced.effects (_ >>= _)) = _
        rw [effects_bind_pure, ih, reach]
        rfl

theorem effects_drain (l : List (Except StoreError α)) :
    (r.drain l).effects = List.replicate (reach l) .pulled := by
  rw [drain_eq_take, effects_take hfetched, List.take_length]

theorem effects_collect : r.collect.effects = onePass (reach r.elements) := by
  unfold collect
  rw [effects_bind_of_ok r.outcome_start, effects_start hfetched, effects_drain hfetched]
  rfl

theorem effects_isEmpty : r.isEmpty.effects = onePass (min 1 r.elements.length) := by
  unfold isEmpty
  rw [effects_bind_of_ok r.outcome_start, effects_start hfetched]
  cases r.elements with
  | nil => rfl
  | cons element rest =>
    dsimp only
    rw [effects_bind_of_ok r.outcome_pull, effects_pull hfetched, List.length_cons,
      Nat.min_eq_left (Nat.le_add_left 1 _)]
    cases element <;> rfl

end Fetched

end Results

/-! ## Each use of a list -/

namespace ShapedResults

open Results

variable {α : Type} {s : ShapedResults α}

theorem effects_exists? (hfetched : s.results.fetched = true) :
    s.exists?.effects = onePass (min 1 s.results.elements.length) := by
  unfold exists?
  rw [effects_bind_pure, effects_mapFailure, effects_isEmpty hfetched]

theorem effects_singleResult (hfetched : s.results.fetched = true) :
    s.singleResult.effects = onePass (reach s.results.elements) := by
  unfold singleResult
  rw [effects_bind_of_ok s.results.outcome_start, effects_start hfetched]
  cases s.results.elements with
  | nil => rfl
  | cons first rest =>
    dsimp only
    rw [effects_bind_of_ok s.results.outcome_pull, effects_pull hfetched]
    cases first with
    | error failure => rfl
    | ok entity =>
      cases rest with
      | nil => rfl
      | cons second rest =>
        change _ ++ (_ ++ ([] ++ Traced.effects (_ >>= _))) = _
        rw [effects_bind, effects_mapFailure, effects_drain hfetched, reach]
        cases Traced.outcome _ <;> simp [onePass, Traced.fail, List.replicate_succ]

theorem effects_resultList_of_single (hfetched : s.results.fetched = true)
    (h : s.shape.isSingleEntity = true) :
    s.resultList.effects = onePass (reach s.results.elements) := by
  unfold resultList
  rw [if_pos h, effects_bind_pure, effects_singleResult hfetched]

theorem effects_unpaged (hfetched : s.results.fetched = true)
    (count : Traced α QueryError UInt64) :
    (s.page .unpaged count).effects = onePass (reach s.results.elements) := by
  unfold page
  dsimp only
  rw [effects_bind_pure, effects_mapFailure, effects_collect hfetched]

theorem effects_page_of_error {count : Traced α QueryError UInt64} {e : QueryError}
    (hcount : count.outcome = .error e) (number size : UInt32) :
    (s.page (.paged number size) count).effects = count.effects := by
  unfold page
  dsimp only
  rw [effects_bind_of_error hcount]

/-- A page pulls what stands before it and then its slice. -/
theorem effects_page (hfetched : s.results.fetched = true)
    {count : Traced α QueryError UInt64} {total : UInt64} (hcount : count.outcome = .ok total)
    (number size : UInt32) :
    (s.page (.paged number size) count).effects = count.effects ++
      onePass (min (number.toNat * size.toNat) s.results.elements.length +
        reach (s.slice number size)) := by
  unfold page
  dsimp only
  have hskip : Traced.outcome (mapFailure QueryError.store (s.results.skip
      (Pageable.paged number size).offset.toNat s.results.elements)) =
      .ok (s.results.elements.drop (number.toNat * size.toNat)) := by
    rw [outcome_mapFailure, outcome_skip, Pageable.offset_toNat]
    rfl
  rw [effects_bind_of_ok hcount, effects_bind_of_ok s.results.outcome_start, effects_start hfetched,
    effects_bind_of_ok hskip, effects_mapFailure, effects_skip hfetched, Pageable.offset_toNat,
    effects_bind_pure, effects_mapFailure, effects_take hfetched, List.replicate_append_replicate]
  rfl

/-- The elements up to the end of a page are those before it and its slice. -/
theorem length_slice (s : ShapedResults α) (number size : UInt32) :
    min (number.toNat * size.toNat) s.results.elements.length + (s.slice number size).length =
      min s.results.elements.length (number.toNat * size.toNat + size.toNat) := by
  have hlength := congrArg List.length (s.take_eq_append_slice number size)
  rw [List.length_append, List.length_take, List.length_take] at hlength
  rw [← hlength, Nat.min_comm]

/-! ## The law -/

/-- Each use of a list from a store makes one pass at most. Whether there is a result takes one
element, a page takes what stands before it and its slice, and all results or a single one take the
list up to its first failure. A page whose count fails and a list that is handed on begin no
pass. -/
theorem no_more_is_pulled_than_needed (hfetched : s.results.fetched = true)
    (count : Traced α QueryError UInt64) :
    s.exists?.effects = onePass (min 1 s.results.elements.length) ∧
    (∀ (number size : UInt32) (pageable : Pageable), Pageable.of number size = .ok pageable →
      (∀ e, count.outcome = .error e → (s.page pageable count).effects = count.effects) ∧
      ∀ total, count.outcome = .ok total →
        ∃ pulled, (s.page pageable count).effects = count.effects ++ onePass pulled ∧
          pulled ≤ min s.results.elements.length (number.toNat * size.toNat + size.toNat) ∧
          (Clean (s.results.elements.take (number.toNat * size.toNat + size.toNat)) →
            pulled = min s.results.elements.length (number.toNat * size.toNat + size.toNat))) ∧
    (s.shape ≠ .single → s.shape ≠ .delete → s.resultList.effects = []) ∧
    ∃ pulled, EndsAfter s.results.elements pulled ∧
      (s.page .unpaged count).effects = onePass pulled ∧
      s.singleResult.effects = onePass pulled ∧
      (s.shape = .single ∨ s.shape = .delete → s.resultList.effects = onePass pulled) := by
  refine ⟨effects_exists? hfetched, ?_, ?_, ?_⟩
  · intro number size pageable hpage
    obtain ⟨-, rfl⟩ := Pageable.of_eq_ok_iff.1 hpage
    constructor
    · intro e hcount
      exact effects_page_of_error hcount number size
    · intro total hcount
      refine ⟨_, effects_page hfetched hcount number size, ?_, ?_⟩
      · rw [← s.length_slice]
        exact Nat.add_le_add_left (reach_le_length _) _
      · intro hclean
        rw [s.take_eq_append_slice] at hclean
        rw [← s.length_slice, reach_of_clean fun x hx => hclean x (List.mem_append_right _ hx)]
  · intro hsingle hdelete
    rw [resultList_eq hsingle hdelete]
    rfl
  · refine ⟨_, endsAfter_reach _, effects_unpaged hfetched count, effects_singleResult hfetched, ?_⟩
    intro hshape
    exact effects_resultList_of_single hfetched (ResultShape.isSingleEntity_iff.2 hshape)

/-- Four notes, of which a store cannot fetch the third. -/
def thirdLost : ShapedResults String :=
  ⟨.ofStore [.ok "a", .ok "b", .error { message := "lost" }, .ok "d"], .page⟩

/-- A page that ends before the failure does not come to it. -/
theorem a_page_pulls_nothing_after_it :
    thirdLost.results.fetched = true ∧ Pageable.of 1 1 = .ok (.paged 1 1) ∧
      (thirdLost.page (.paged 1 1) (.ok 4)).effects = [.passStarted, .pulled, .pulled] := by
  have hfetched : thirdLost.results.fetched = true := rfl
  have hpage : Pageable.of 1 1 = .ok (.paged 1 1) := by decide
  obtain ⟨-, hpaged, -⟩ := no_more_is_pulled_than_needed hfetched (.ok 4)
  obtain ⟨pulled, heffects, -, hexact⟩ := (hpaged 1 1 _ hpage).2 4 rfl
  have hclean : Clean (thirdLost.results.elements.take 2) := clean_iff.2 ⟨["a", "b"], rfl⟩
  rw [heffects, hexact hclean]
  exact ⟨hfetched, hpage, rfl⟩

end ShapedResults

end KeyAccess
