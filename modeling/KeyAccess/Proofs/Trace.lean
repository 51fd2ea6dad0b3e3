-- The calls of a store among the effects of an operation. A chain of operations makes the calls of
-- each in turn, up to the first that fails. Passing over results makes no call: whatever is pulled
-- comes from the one answer that the store gave.
import Mathlib
import KeyAccess.Results.Shaped
import KeyAccess.Proofs.Outcome

namespace KeyAccess

/-- The call that an effect is. -/
def Effect.call? {α : Type} : Effect α → Option (StoreCall α)
  | .call made => some made
  | .event _ | .passStarted | .pulled => none

namespace Traced

variable {α ε ε' β γ : Type}

/-- The calls that an operation makes, in their order. -/
def calls (m : Traced α ε β) : List (StoreCall α) := m.effects.filterMap Effect.call?

theorem effects_bind (m : Traced α ε β) (f : β → Traced α ε γ) :
    (m >>= f).effects = m.effects ++ match m.outcome with
      | .ok x => (f x).effects
      | .error _ => [] := by
  change (m.andThen f).effects = _
  unfold andThen
  cases m.outcome with
  | error e => simp
  | ok x => rfl

theorem effects_bind_of_ok {m : Traced α ε β} {f : β → Traced α ε γ} {x : β}
    (h : m.outcome = .ok x) : (m >>= f).effects = m.effects ++ (f x).effects := by
  rw [effects_bind, h]

theorem effects_bind_of_error {m : Traced α ε β} {f : β → Traced α ε γ} {e : ε}
    (h : m.outcome = .error e) : (m >>= f).effects = m.effects := by
  rw [effects_bind, h, List.append_nil]

/-- What comes last without an effect does not show. -/
theorem effects_bind_pure {m : Traced α ε β} {f : β → γ} :
    (m >>= fun x => pure (f x)).effects = m.effects := by
  cases h : m.outcome with
  | error e => rw [effects_bind_of_error h]
  | ok x =>
    rw [effects_bind_of_ok h]
    exact List.append_nil _

theorem calls_bind (m : Traced α ε β) (f : β → Traced α ε γ) :
    (m >>= f).calls = m.calls ++ match m.outcome with
      | .ok x => (f x).calls
      | .error _ => [] := by
  unfold calls
  rw [effects_bind, List.filterMap_append]
  cases m.outcome <;> rfl

@[simp]
theorem outcome_mapFailure (f : ε → ε') (m : Traced α ε β) :
    (m.mapFailure f).outcome = m.outcome.mapError f := by
  unfold mapFailure
  cases m.outcome <;> rfl

@[simp]
theorem effects_mapFailure (f : ε → ε') (m : Traced α ε β) :
    (m.mapFailure f).effects = m.effects := rfl

/-! ## Operations without calls -/

/-- The operation asks no store. -/
def Quiet (m : Traced α ε β) : Prop := m.calls = []

theorem Quiet.bind {m : Traced α ε β} {f : β → Traced α ε γ} (hm : m.Quiet)
    (hf : ∀ x, (f x).Quiet) : (m >>= f).Quiet := by
  unfold Quiet at *
  rw [calls_bind, hm, List.nil_append]
  cases m.outcome with
  | error e => rfl
  | ok x => exact hf x

theorem quiet_pure (x : β) : (pure x : Traced α ε β).Quiet := rfl

theorem quiet_ofExcept (x : Except ε β) : (ofExcept x : Traced α ε β).Quiet := rfl

theorem quiet_log (event : Event) (fields : List (String × String)) :
    (log event fields : Traced α ε Unit).Quiet := rfl

theorem Quiet.mapFailure {m : Traced α ε β} (f : ε → ε') (h : m.Quiet) :
    (m.mapFailure f).Quiet := h

/-- The calls of an operation that starts quietly are those of its rest. -/
theorem calls_bind_of_quiet {m : Traced α ε β} {f : β → Traced α ε γ} (hm : m.Quiet) :
    (m >>= f).calls = match m.outcome with
      | .ok x => (f x).calls
      | .error _ => [] := by
  rw [calls_bind, hm, List.nil_append]

/-- The calls of an operation that ends quietly are those of its start. -/
theorem calls_bind_quiet {m : Traced α ε β} {f : β → Traced α ε γ} (hf : ∀ x, (f x).Quiet) :
    (m >>= f).calls = m.calls := by
  rw [calls_bind]
  cases m.outcome with
  | error e => exact List.append_nil _
  | ok x => simp [show (f x).calls = [] from hf x]

end Traced

open Traced

/-! ## Passes -/

namespace Results

variable {α ε : Type}

theorem quiet_emitIf {fetched : Bool} {effect : Effect α} (h : effect.call? = none) :
    (emitIf fetched effect : Traced α ε Unit).Quiet := by
  unfold emitIf
  cases fetched with
  | false => rfl
  | true => simp [Quiet, calls, emit, h]

theorem quiet_start (r : Results α) : (r.start : Traced α ε _).Quiet :=
  (quiet_emitIf rfl).bind fun _ => quiet_pure _

theorem quiet_pull (r : Results α) : (r.pull : Traced α ε Unit).Quiet := quiet_emitIf rfl

theorem outcome_start (r : Results α) : (r.start : Traced α ε _).outcome = .ok r.elements := by
  unfold start emitIf
  cases r.fetched <;> rfl

theorem outcome_pull (r : Results α) : (r.pull : Traced α ε Unit).outcome = .ok () := by
  unfold pull emitIf
  cases r.fetched <;> rfl

theorem quiet_drain (r : Results α) (l : List (Except StoreError α)) : (r.drain l).Quiet := by
  induction l with
  | nil => rfl
  | cons element rest ih =>
    apply r.quiet_pull.bind
    intro _
    apply (quiet_ofExcept element).bind
    intro _
    exact ih.bind fun _ => quiet_pure _

theorem quiet_skip (r : Results α) (count : Nat) (l : List (Except StoreError α)) :
    (r.skip count l).Quiet := by
  induction count generalizing l with
  | zero => rfl
  | succ count ih =>
    cases l with
    | nil => rfl
    | cons element rest => exact r.quiet_pull.bind fun _ => ih rest

theorem quiet_take (r : Results α) (count : Nat) (l : List (Except StoreError α)) :
    (r.take count l).Quiet := by
  induction count generalizing l with
  | zero => rfl
  | succ count ih =>
    cases l with
    | nil => rfl
    | cons element rest =>
      apply r.quiet_pull.bind
      intro _
      apply (quiet_ofExcept element).bind
      intro _
      exact (ih rest).bind fun _ => quiet_pure _

theorem quiet_collect (r : Results α) : r.collect.Quiet :=
  r.quiet_start.bind fun _ => r.quiet_drain _

theorem quiet_isEmpty (r : Results α) : r.isEmpty.Quiet := by
  apply r.quiet_start.bind
  intro elements
  cases elements with
  | nil => rfl
  | cons element rest =>
    apply r.quiet_pull.bind
    intro _
    exact (quiet_ofExcept element).bind fun _ => quiet_pure _

end Results

/-! ## Reductions -/

namespace ShapedResults

variable {α : Type}

theorem quiet_singleResult (s : ShapedResults α) : s.singleResult.Quiet := by
  apply s.results.quiet_start.bind
  intro elements
  cases elements with
  | nil => rfl
  | cons first rest =>
    apply s.results.quiet_pull.bind
    intro _
    apply ((quiet_ofExcept first).mapFailure _).bind
    intro entity
    cases rest with
    | nil => rfl
    | cons second rest =>
      exact ((s.results.quiet_drain _).mapFailure _).bind fun _ => rfl

theorem quiet_resultList (s : ShapedResults α) : s.resultList.Quiet := by
  unfold resultList
  split
  · exact s.quiet_singleResult.bind fun _ => quiet_pure _
  · rfl

theorem quiet_exists? (s : ShapedResults α) : s.exists?.Quiet :=
  (s.results.quiet_isEmpty.mapFailure _).bind fun _ => quiet_pure _

/-- Slicing makes the calls of the count, and only if a page is asked for. -/
theorem calls_page (s : ShapedResults α) (pageable : Pageable)
    (count : Traced α QueryError UInt64) :
    (s.page pageable count).calls = if pageable.isPaged then count.calls else [] := by
  cases pageable with
  | unpaged => exact (s.results.quiet_collect.mapFailure _).bind fun _ => quiet_pure _
  | paged page size =>
    apply calls_bind_quiet
    intro total
    apply s.results.quiet_start.bind
    intro elements
    apply ((s.results.quiet_skip _ _).mapFailure _).bind
    intro rest
    exact ((s.results.quiet_take _ _).mapFailure _).bind fun _ => quiet_pure _

end ShapedResults

end KeyAccess
