-- The law of slices: a page is the slice of the results that it names. It fails with the first
-- failure of its slice, and only with that one: the elements before the slice are pulled without a
-- look at them, so a failure among them does not show.
import Mathlib
import KeyAccess.Proofs.Trace

namespace KeyAccess

open Traced

/-! ## Passes up to the first failure -/

namespace Results

variable {α : Type}

/-- No element is a failure. -/
def Clean (elements : List (Except StoreError α)) : Prop := ∀ x ∈ elements, ∃ a, x = .ok a

/-- The failure that a pass over elements comes to first. -/
def FirstFailure (elements : List (Except StoreError α)) (failure : StoreError) : Prop :=
  ∃ (before : List α) (after : List (Except StoreError α)),
    elements = before.map .ok ++ .error failure :: after

/-- The entities of some elements, or the failure that comes first. -/
def gathered : List (Except StoreError α) → Except StoreError (List α)
  | [] => .ok []
  | .error failure :: _ => .error failure
  | .ok a :: rest => (gathered rest).map (a :: ·)

theorem clean_iff {elements : List (Except StoreError α)} :
    Clean elements ↔ ∃ entities : List α, elements = entities.map .ok := by
  constructor
  · intro h
    induction elements with
    | nil => exact ⟨[], rfl⟩
    | cons x rest ih =>
      obtain ⟨⟨a, rfl⟩, hrest⟩ := List.forall_mem_cons.1 h
      obtain ⟨entities, rfl⟩ := ih hrest
      exact ⟨a :: entities, rfl⟩
  · rintro ⟨entities, rfl⟩ x hx
    obtain ⟨a, -, rfl⟩ := List.mem_map.1 hx
    exact ⟨a, rfl⟩

theorem gathered_eq_ok_iff {elements : List (Except StoreError α)} {entities : List α} :
    gathered elements = .ok entities ↔ elements = entities.map .ok := by
  induction elements generalizing entities with
  | nil => cases entities <;> simp [gathered]
  | cons x rest ih =>
    cases x with
    | error failure => cases entities <;> simp [gathered]
    | ok a =>
      cases entities with
      | nil => cases h : gathered rest <;> simp [gathered, h, Except.map]
      | cons b entities =>
        rw [List.map_cons, List.cons.injEq, ← ih]
        cases h : gathered rest <;> simp [gathered, h, Except.map]

/-- Entities before some elements do not change which failure comes first. -/
theorem firstFailure_append {entities : List α} {elements : List (Except StoreError α)}
    {failure : StoreError} :
    FirstFailure (entities.map .ok ++ elements) failure ↔ FirstFailure elements failure := by
  induction entities with
  | nil => rfl
  | cons a entities ih =>
    rw [← ih]
    constructor
    · rintro ⟨before, after, h⟩
      cases before with
      | nil => simp at h
      | cons b before => exact ⟨before, after, by simpa using (List.cons.inj h).2⟩
    · rintro ⟨before, after, h⟩
      exact ⟨a :: before, after, by rw [List.map_cons, List.cons_append, h]; rfl⟩

theorem gathered_eq_error_iff {elements : List (Except StoreError α)} {failure : StoreError} :
    gathered elements = .error failure ↔ FirstFailure elements failure := by
  induction elements with
  | nil => simp [gathered, FirstFailure]
  | cons x rest ih =>
    cases x with
    | error other =>
      constructor
      · intro h
        cases h
        exact ⟨[], rest, rfl⟩
      · rintro ⟨before, after, h⟩
        cases before with
        | nil => simp_all [gathered]
        | cons b before => simp at h
    | ok a =>
      have hsplit : FirstFailure (.ok a :: rest) failure ↔ FirstFailure rest failure :=
        @firstFailure_append α [a] rest failure
      rw [hsplit, ← ih]
      cases h : gathered rest <;> simp [gathered, h, Except.map]

/-! ## What a pass yields -/

theorem outcome_skip (r : Results α) (count : Nat) (l : List (Except StoreError α)) :
    (r.skip count l).outcome = .ok (l.drop count) := by
  induction count generalizing l with
  | zero => rfl
  | succ count ih =>
    cases l with
    | nil => rfl
    | cons element rest =>
      change Traced.outcome (_ >>= _) = _
      rw [outcome_bind, outcome_pull, ok_bind, ih, List.drop_succ_cons]

theorem outcome_take (r : Results α) (count : Nat) (l : List (Except StoreError α)) :
    (r.take count l).outcome = gathered (l.take count) := by
  induction count generalizing l with
  | zero => rfl
  | succ count ih =>
    cases l with
    | nil => rfl
    | cons element rest =>
      change Traced.outcome (_ >>= _) = _
      rw [outcome_bind, outcome_pull, ok_bind, outcome_bind, List.take_succ_cons]
      cases element with
      | error failure => rfl
      | ok a =>
        change Traced.outcome (_ >>= _) = _
        rw [outcome_bind, ih, gathered]
        cases gathered (rest.take count) <;> rfl

end Results

/-! ## Pages -/

theorem Pageable.of_eq_ok_iff {number size : UInt32} {pageable : Pageable} :
    Pageable.of number size = .ok pageable ↔ size ≠ 0 ∧ pageable = .paged number size := by
  unfold Pageable.of
  split
  · simp_all
  · simp_all [eq_comm]

/-- The number of elements before a page does not overflow. -/
theorem Pageable.offset_toNat (number size : UInt32) :
    (Pageable.paged number size).offset.toNat = number.toNat * size.toNat := by
  have hnumber := number.toNat_lt
  have hsize := size.toNat_lt
  unfold Pageable.offset
  rw [UInt64.toNat_mul, UInt32.toNat_toUInt64, UInt32.toNat_toUInt64, Nat.mod_eq_of_lt]
  calc number.toNat * size.toNat ≤ 2 ^ 32 * size.toNat := Nat.mul_le_mul_right _ hnumber.le
    _ < 2 ^ 32 * 2 ^ 32 := Nat.mul_lt_mul_of_pos_left hsize (by decide)
    _ = 2 ^ 64 := by decide

namespace ShapedResults

open Results

variable {α : Type}

/-- The elements of a page: as many as its size, after those of the pages before it. -/
def slice (s : ShapedResults α) (number size : UInt32) : List (Except StoreError α) :=
  (s.results.elements.drop (number.toNat * size.toNat)).take size.toNat

theorem outcome_page (s : ShapedResults α) (number size : UInt32)
    {count : Traced α QueryError UInt64} {total : UInt64} (hcount : count.outcome = .ok total) :
    (s.page (.paged number size) count).outcome =
      ((gathered (s.slice number size)).mapError .store >>= fun content =>
        .ok ⟨content, .paged number size, total⟩) := by
  change Traced.outcome (_ >>= _) = _
  rw [outcome_bind, hcount, ok_bind, outcome_bind, outcome_start, ok_bind, outcome_bind,
    outcome_mapFailure, outcome_skip, Pageable.offset_toNat]
  change Traced.outcome (_ >>= _) = _
  rw [outcome_bind, outcome_mapFailure, outcome_take]
  rfl

variable {s : ShapedResults α} {number size : UInt32} {count : Traced α QueryError UInt64}
  {total : UInt64}

theorem page_eq_ok_iff (hcount : count.outcome = .ok total) {page : Page α} :
    (s.page (.paged number size) count).outcome = .ok page ↔
      s.slice number size = page.content.map .ok ∧ page.pageable = .paged number size ∧
        page.totalElements = total := by
  obtain ⟨content, pageable, elements⟩ := page
  rw [outcome_page s number size hcount, ← gathered_eq_ok_iff]
  cases h : gathered (s.slice number size) with
  | error failure => simp [Except.mapError, bind, Except.bind]
  | ok xs =>
    simp only [Except.mapError, ok_bind, Except.ok.injEq, Page.mk.injEq]
    rw [eq_comm (a := pageable), eq_comm (a := elements)]

theorem page_eq_error_iff (hcount : count.outcome = .ok total) {e : QueryError} :
    (s.page (.paged number size) count).outcome = .error e ↔
      ∃ failure, e = .store failure ∧ FirstFailure (s.slice number size) failure := by
  simp only [outcome_page s number size hcount, ← gathered_eq_error_iff]
  cases h : gathered (s.slice number size) with
  | error failure => simp [Except.mapError, bind, Except.bind, eq_comm]
  | ok xs => simp [Except.mapError, ok_bind]

/-- The elements up to the end of a page are those that are skipped and then the slice. -/
theorem take_eq_append_slice (s : ShapedResults α) (number size : UInt32) :
    s.results.elements.take (number.toNat * size.toNat + size.toNat) =
      s.results.elements.take (number.toNat * size.toNat) ++ s.slice number size :=
  List.take_add

/-! ## The law -/

/-- A page whose count succeeds holds the elements of its slice, or fails with the first failure of
its slice. If no failure stands before the slice, it is the first failure of all elements up to the
end of the page. -/
theorem a_page_fails_as_its_slice_does {pageable : Pageable}
    (hpage : Pageable.of number size = .ok pageable) (hcount : count.outcome = .ok total) :
    (∀ page, (s.page pageable count).outcome = .ok page ↔
      s.slice number size = page.content.map .ok ∧ page.pageable = pageable ∧
        page.totalElements = total) ∧
    (∀ e, (s.page pageable count).outcome = .error e ↔
      ∃ failure, e = .store failure ∧ FirstFailure (s.slice number size) failure) ∧
    (Clean (s.results.elements.take (number.toNat * size.toNat)) →
      ((∃ page, (s.page pageable count).outcome = .ok page) ↔
        Clean (s.results.elements.take (number.toNat * size.toNat + size.toNat))) ∧
      ∀ e, (s.page pageable count).outcome = .error e ↔ ∃ failure, e = .store failure ∧
        FirstFailure (s.results.elements.take (number.toNat * size.toNat + size.toNat))
          failure) := by
  obtain ⟨-, rfl⟩ := Pageable.of_eq_ok_iff.1 hpage
  refine ⟨fun page => page_eq_ok_iff hcount, fun e => page_eq_error_iff hcount, fun hskipped => ?_⟩
  obtain ⟨skipped, hskipped⟩ := clean_iff.1 hskipped
  rw [take_eq_append_slice, hskipped]
  refine ⟨⟨?_, ?_⟩, fun e => ?_⟩
  · rintro ⟨page, h⟩
    rw [((page_eq_ok_iff hcount).1 h).1, ← List.map_append]
    exact clean_iff.2 ⟨_, rfl⟩
  · intro hclean
    obtain ⟨content, hcontent⟩ := clean_iff.1 fun x hx => hclean x (List.mem_append_right _ hx)
    exact ⟨⟨content, .paged number size, total⟩, (page_eq_ok_iff hcount).2 ⟨hcontent, rfl, rfl⟩⟩
  · rw [page_eq_error_iff hcount]
    simp only [firstFailure_append]

/-- Three notes, of which a store cannot fetch the second. -/
def torn : ShapedResults String :=
  ⟨.ofStore [.ok "a", .error { message := "lost" }, .ok "c"], .page⟩

/-- The page with the note that cannot be fetched fails. -/
theorem the_torn_page_fails :
    Pageable.of 1 1 = .ok (.paged 1 1) ∧
      (Traced.ok 3 : Traced String QueryError UInt64).outcome = .ok 3 ∧
      Clean (torn.results.elements.take 1) ∧
      (torn.page (.paged 1 1) (.ok 3)).outcome = .error (.store { message := "lost" }) := by
  have hpage : Pageable.of 1 1 = .ok (.paged 1 1) := by decide
  have hcount : (Traced.ok 3 : Traced String QueryError UInt64).outcome = .ok 3 := rfl
  have hskipped : Clean (torn.results.elements.take 1) := clean_iff.2 ⟨["a"], rfl⟩
  obtain ⟨-, -, hclean⟩ := a_page_fails_as_its_slice_does (s := torn) hpage hcount
  refine ⟨hpage, hcount, hskipped, ((hclean hskipped).2 _).2 ⟨_, rfl, ["a"], [], rfl⟩⟩

/-- The page after the note that cannot be fetched does not fail, though the note stands before its
end. -/
theorem a_failure_before_a_page_is_hidden :
    Pageable.of 2 1 = .ok (.paged 2 1) ∧
      (torn.page (.paged 2 1) (.ok 3)).outcome = .ok ⟨["c"], .paged 2 1, 3⟩ ∧
      ¬ ((∃ page, (torn.page (.paged 2 1) (.ok 3)).outcome = .ok page) ↔
        Clean (torn.results.elements.take (2 * 1 + 1))) := by
  have hok : (torn.page (.paged 2 1) (.ok 3)).outcome = .ok ⟨["c"], .paged 2 1, 3⟩ := by
    decide +kernel
  refine ⟨by decide, hok, fun hiff => ?_⟩
  obtain ⟨a, ha⟩ := hiff.1 ⟨_, hok⟩ (.error { message := "lost" }) (by simp [torn, ofStore])
  cases ha

end ShapedResults

end KeyAccess
