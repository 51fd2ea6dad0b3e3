-- The law of tiling. The pages of one size, put one after the other, are the results: none is lost
-- and none comes twice. What a page tells of the pages around it agrees with what they hold.
import Mathlib
import KeyAccess.Proofs.Results.Slice

namespace KeyAccess

open Traced

namespace Results

variable {α : Type}

theorem drain_eq_take (r : Results α) (l : List (Except StoreError α)) :
    r.drain l = r.take l.length l := by
  induction l with
  | nil => rfl
  | cons element rest ih => rw [List.length_cons, drain, take, ih]

theorem outcome_collect (r : Results α) : r.collect.outcome = gathered r.elements := by
  change Traced.outcome (_ >>= _) = _
  rw [outcome_bind, outcome_start, ok_bind, drain_eq_take, outcome_take, List.take_length]

end Results

/-! ## What a page tells -/

namespace Page

variable {α : Type} {page : Page α} {number size : UInt32}

/-- A page shows some entities: it holds those at its place, and what it tells of the number of
pages and of the pages around it is so. -/
structure Shows (page : Page α) (entities : List α) (number size : UInt32) : Prop where
  content : page.content = (entities.drop (number.toNat * size.toNat)).take size.toNat
  total : page.totalElements.toNat = entities.length
  pages : IsLeast {k : Nat | entities.length ≤ k * size.toNat} page.totalPages.toNat
  next : page.hasNext = true ↔ (number.toNat + 1) * size.toNat < entities.length
  previous : page.hasPrevious = true ↔ 0 < number.toNat

theorem number_of_paged (h : page.pageable = .paged number size) : page.number = number := by
  unfold Page.number
  rw [h]

/-- The number of pages is the quotient that is rounded up. -/
theorem totalPages_toNat (h : page.pageable = .paged number size) (hsize : 0 < size.toNat)
    (hroom : page.totalElements.toNat + size.toNat - 1 < 2 ^ 64) :
    page.totalPages.toNat = page.totalElements.toNat ⌈/⌉ size.toNat := by
  unfold Page.totalPages
  rw [h]
  dsimp only
  rw [UInt64.toNat_div, UInt32.toNat_toUInt64, Nat.ceilDiv_eq_add_pred_div]
  -- A sum of 2 ^ 64 is taken as zero, and one less than it is again what it should be.
  congr 1
  have hsub : (page.totalElements + size.toUInt64 - 1).toNat =
      (2 ^ 64 - 1 + (page.totalElements.toNat + size.toNat) % 2 ^ 64) % 2 ^ 64 := by
    rw [UInt64.toNat_sub, UInt64.toNat_add, UInt32.toNat_toUInt64]
    rfl
  omega

theorem totalPages_le_iff (h : page.pageable = .paged number size) (hsize : 0 < size.toNat)
    (hroom : page.totalElements.toNat + size.toNat - 1 < 2 ^ 64) {k : Nat} :
    page.totalPages.toNat ≤ k ↔ page.totalElements.toNat ≤ k * size.toNat := by
  rw [totalPages_toNat h hsize hroom, ceilDiv_le_iff_le_mul hsize, Nat.mul_comm]

/-- There is a next page exactly if elements are left behind this one. -/
theorem hasNext_iff (h : page.pageable = .paged number size) (hsize : 0 < size.toNat)
    (hroom : page.totalElements.toNat + size.toNat - 1 < 2 ^ 64) :
    page.hasNext = true ↔ (number.toNat + 1) * size.toNat < page.totalElements.toNat := by
  have hnumber := number.toNat_lt
  have hnext : (number.toUInt64 + 1).toNat = number.toNat + 1 := by
    rw [UInt64.toNat_add, UInt32.toNat_toUInt64]
    exact Nat.mod_eq_of_lt (by change number.toNat + 1 < 2 ^ 64; omega)
  unfold Page.hasNext
  rw [number_of_paged h, decide_eq_true_iff, UInt64.lt_iff_toNat_lt, hnext, ← not_le, ← not_le,
    totalPages_le_iff h hsize hroom]

/-- A page with the right entities and the right total shows them. -/
theorem shows_of_paged {entities : List α} (h : page.pageable = .paged number size)
    (hsize : 0 < size.toNat) (hroom : entities.length + size.toNat - 1 < 2 ^ 64)
    (hcontent : page.content = (entities.drop (number.toNat * size.toNat)).take size.toNat)
    (htotal : page.totalElements.toNat = entities.length) : page.Shows entities number size := by
  rw [← htotal] at hroom
  have hpages : ∀ k, page.totalPages.toNat ≤ k ↔ entities.length ≤ k * size.toNat := by
    intro k
    rw [← htotal, totalPages_le_iff h hsize hroom]
  refine ⟨hcontent, htotal, ⟨(hpages _).1 le_rfl, fun k hk => (hpages k).2 hk⟩, ?_, ?_⟩
  · rw [← htotal, hasNext_iff h hsize hroom]
  · unfold hasPrevious
    rw [number_of_paged h, decide_eq_true_iff, UInt32.lt_iff_toNat_lt]
    rfl

/-- A page that shows entities has a next page exactly if what comes after it is not empty. -/
theorem Shows.hasNext_iff_ne_nil {entities : List α} {next : Page α} {following : UInt32}
    (h : page.Shows entities number size) (hnext : next.Shows entities following size)
    (hsize : 0 < size.toNat) (hfollowing : following.toNat = number.toNat + 1) :
    page.hasNext = true ↔ next.content ≠ [] := by
  rw [h.next, hnext.content, hfollowing, ← List.length_pos_iff, List.length_take, List.length_drop]
  omega

end Page

/-! ## Pages one after the other -/

namespace ShapedResults

open Results

variable {α : Type}

/-- The page with a number, if it is asked for as such. -/
def pageAt (s : ShapedResults α) (number size : UInt32) (count : Traced α QueryError UInt64) :
    Except QueryError (Page α) := do
  let pageable ← Pageable.of number size
  (s.page pageable count).outcome

/-- The first `k` pages of a size. -/
def firstPages (s : ShapedResults α) (size : UInt32) (count : Traced α QueryError UInt64)
    (k : Nat) : Except QueryError (List (Page α)) :=
  (List.range k).mapM fun number => s.pageAt (.ofNat number) size count

variable {s : ShapedResults α} {entities : List α} {number size : UInt32}
  {count : Traced α QueryError UInt64} {total : UInt64}

/-- Results without a failure have every page, with the entities of its slice. -/
theorem pageAt_eq_ok (hclean : s.results.elements = entities.map .ok) (hsize : size ≠ 0)
    (hcount : count.outcome = .ok total) :
    s.pageAt number size count = .ok ⟨(entities.drop (number.toNat * size.toNat)).take size.toNat,
      .paged number size, total⟩ := by
  unfold pageAt
  rw [Pageable.of_eq_ok_iff.2 ⟨hsize, rfl⟩, ok_bind]
  refine (page_eq_ok_iff hcount).2 ⟨?_, rfl, rfl⟩
  unfold slice
  rw [hclean, ← List.map_drop, ← List.map_take]

theorem firstPages_succ (k : Nat) : s.firstPages size count (k + 1) =
    s.firstPages size count k >>= fun pages =>
      (s.pageAt (.ofNat k) size count).map fun page => pages ++ [page] := by
  unfold firstPages
  rw [List.range_succ, List.mapM_append, List.mapM_cons, List.mapM_nil]
  cases s.pageAt (.ofNat k) size count <;> rfl

/-- The first pages hold the first entities, in their order. -/
theorem firstPages_eq_ok (hclean : s.results.elements = entities.map .ok) (hsize : size ≠ 0)
    (hcount : count.outcome = .ok total) {k : Nat} (hk : k ≤ 2 ^ 32) :
    ∃ pages, s.firstPages size count k = .ok pages ∧
      (pages.map Page.content).flatten = entities.take (k * size.toNat) := by
  induction k with
  | zero => exact ⟨[], rfl, by rw [Nat.zero_mul, List.take_zero]; rfl⟩
  | succ k ih =>
    obtain ⟨pages, hpages, hcontents⟩ := ih (by omega)
    have hnumber : (UInt32.ofNat k).toNat = k := UInt32.toNat_ofNat_of_lt' hk
    rw [firstPages_succ, hpages, ok_bind, pageAt_eq_ok hclean hsize hcount, hnumber]
    refine ⟨_, rfl, ?_⟩
    rw [List.map_append, List.flatten_append, hcontents, Nat.succ_mul, List.take_add]
    exact congrArg _ (List.append_nil _)

/-- Without paging everything is in the page. -/
theorem unpaged_eq_ok (hclean : s.results.elements = entities.map .ok) :
    (s.page .unpaged count).outcome = .ok ⟨entities, .unpaged, .ofNat entities.length⟩ := by
  change Traced.outcome (_ >>= _) = _
  rw [outcome_bind, outcome_mapFailure, outcome_collect, gathered_eq_ok_iff.2 hclean]
  rfl

/-! ## The law -/

/-- For results without a failure and a count that gives their number, the first pages of a size
hold the first entities in their order, and all pages hold them all. Each page tells how many pages
there are and whether the page after it holds something, and without paging there is one page with
everything. No offset overflows. Where the number of results and the size make `2 ^ 64`, at the end
of the bound, the number of pages is right because the addition wraps around; a build that checks
for overflow panics there. -/
theorem pages_tile_the_results (hclean : s.results.elements = entities.map .ok) (hsize : size ≠ 0)
    (hroom : entities.length + size.toNat - 1 < 2 ^ 64) (hcount : count.outcome = .ok total)
    (htotal : total.toNat = entities.length) :
    (∀ n m : UInt32, (Pageable.paged n m).offset.toNat = n.toNat * m.toNat) ∧
    (∀ k ≤ 2 ^ 32, ∃ pages, s.firstPages size count k = .ok pages ∧
      (pages.map Page.content).flatten = entities.take (k * size.toNat)) ∧
    (∀ number, ∃ page, s.pageAt number size count = .ok page ∧
      page.Shows entities number size ∧
      (∀ following : UInt32, following.toNat = number.toNat + 1 →
        ∃ next, s.pageAt following size count = .ok next ∧
          (page.hasNext = true ↔ next.content ≠ [])) ∧
      (page.totalPages.toNat ≤ 2 ^ 32 →
        ∃ pages, s.firstPages size count page.totalPages.toNat = .ok pages ∧
          (pages.map Page.content).flatten = entities)) ∧
    ∃ page, (s.page .unpaged count).outcome = .ok page ∧ page.content = entities ∧
      page.totalElements.toNat = entities.length ∧ page.totalPages = 1 ∧
      page.hasNext = false := by
  have hpos : 0 < size.toNat := by
    rw [Nat.pos_iff_ne_zero]
    exact fun hzero => hsize (UInt32.toNat_inj.1 hzero)
  have hpage : ∀ number, ∃ page, s.pageAt number size count = .ok page ∧
      page.Shows entities number size := fun number =>
    ⟨_, pageAt_eq_ok hclean hsize hcount, Page.shows_of_paged rfl hpos hroom rfl htotal⟩
  have hfirst := fun k hk => firstPages_eq_ok (k := k) hclean hsize hcount hk
  refine ⟨Pageable.offset_toNat, hfirst, fun number => ?_, ?_⟩
  · obtain ⟨page, hok, hshows⟩ := hpage number
    refine ⟨page, hok, hshows, fun following hfollowing => ?_, fun hfit => ?_⟩
    · obtain ⟨next, hnext, hshown⟩ := hpage following
      exact ⟨next, hnext, hshows.hasNext_iff_ne_nil hshown hpos hfollowing⟩
    · obtain ⟨pages, hpages, hcontents⟩ := hfirst _ hfit
      refine ⟨pages, hpages, ?_⟩
      rw [hcontents, List.take_of_length_le hshows.pages.1]
  · refine ⟨_, unpaged_eq_ok hclean, rfl, ?_, rfl, rfl⟩
    exact UInt64.toNat_ofNat_of_lt' (by change entities.length < 2 ^ 64; omega)

/-- Five notes at hand. -/
def fiveNotes : ShapedResults String := ⟨.ofList ["a", "b", "c", "d", "e"], .page⟩

/-- The last of the three pages of two notes holds one note, and no page comes after it. -/
theorem three_pages_tile_five_notes :
    fiveNotes.results.elements = ["a", "b", "c", "d", "e"].map .ok ∧ (2 : UInt32) ≠ 0 ∧
      5 + (2 : UInt32).toNat - 1 < 2 ^ 64 ∧
      (Traced.ok 5 : Traced String QueryError UInt64).outcome = .ok 5 ∧
      (5 : UInt64).toNat = 5 ∧
      ∃ page, fiveNotes.pageAt 2 2 (.ok 5) = .ok page ∧ page.content = ["e"] ∧
        page.totalPages.toNat = 3 ∧ page.hasNext = false := by
  have hclean : fiveNotes.results.elements = ["a", "b", "c", "d", "e"].map .ok := rfl
  have hcount : (Traced.ok 5 : Traced String QueryError UInt64).outcome = .ok 5 := rfl
  have hsize : (2 : UInt32) ≠ 0 := by decide
  have hroom : 5 + (2 : UInt32).toNat - 1 < 2 ^ 64 := by decide
  refine ⟨hclean, hsize, hroom, hcount, rfl, ?_⟩
  obtain ⟨-, -, hpages, -⟩ := pages_tile_the_results hclean hsize hroom hcount rfl
  obtain ⟨page, hok, hshows, -⟩ := hpages 2
  refine ⟨page, hok, hshows.content, ?_, ?_⟩
  · refine hshows.pages.unique ⟨by decide, fun k hk => ?_⟩
    have hk : 5 ≤ k * 2 := hk
    omega
  · rw [← Bool.not_eq_true, hshows.next]
    decide

end ShapedResults

end KeyAccess
