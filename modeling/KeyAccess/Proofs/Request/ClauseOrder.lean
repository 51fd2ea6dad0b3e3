-- The law of clause order: clauses in another order are accepted as well and lead to the same path,
-- or to the same failure, where a scan may list its filters in another order. If the clauses keep
-- their order on each property even the requests are the same.
import Mathlib
import KeyAccess.Proofs.AccessPath.SameAsked
import KeyAccess.Proofs.Request.Emitted

namespace KeyAccess

namespace Criteria

variable {c c' : Criteria}

/-! ## Clauses in another order -/

theorem run_clauses (c : Criteria) (clauses : List Clause) :
    c.run (clauses.map Call.clause) = c.withClauses clauses := by
  unfold run withClauses
  rw [List.foldlM_map]
  rfl

theorem sound_withClauses {clauses : List Clause} (h : c.Sound)
    (hw : c.withClauses clauses = .ok c') : c'.Sound := by
  rw [← run_clauses] at hw
  exact sound_run h hw

theorem sameAsked_of_perm {clauses others : List Clause} {c₁ c₂ : Criteria}
    (hperm : clauses.Perm others) (h₁ : c.withClauses clauses = .ok c₁)
    (h₂ : c.withClauses others = .ok c₂) : SameAsked c₁ c₂ := by
  obtain ⟨asked, hasked, hperm₁⟩ := withClauses_perm h₁
  obtain ⟨asked', hasked', hperm₂⟩ := withClauses_perm h₂
  obtain ⟨asked'', hasked'', hsame⟩ := asked_perm hperm hasked
  rw [hasked'] at hasked''
  cases hasked''
  refine ⟨(withClauses_frame h₁).symm.trans (withClauses_frame h₂), ?_⟩
  exact hperm₁.trans ((hsame.symm.append_right _).trans hperm₂.symm)

/-! ## The law -/

/-- Clauses in another order are accepted if and only if the clauses are. The path that is chosen is
the same then but for the order of the filters of a scan, and so is the reason if there is none. If
the order on each property is the same, the same query and the same count are built. -/
theorem the_order_of_clauses_does_not_matter {α : Type} {schema : KeySchema}
    {clauses others : List Clause} (store : Store α) (hbuilt : schema.Built)
    (hreach : Reachable schema c) (hperm : clauses.Perm others) :
    ((∃ c₁, c.withClauses clauses = .ok c₁) ↔ ∃ c₂, c.withClauses others = .ok c₂) ∧
    ∀ c₁ c₂, c.withClauses clauses = .ok c₁ → c.withClauses others = .ok c₂ →
      Agree AccessPath.Alike (c₁.accessPath : Traced α QueryError AccessPath).outcome
        (c₂.accessPath : Traced α QueryError AccessPath).outcome ∧
      ((∀ property, clauses.filter (fun clause => clause.property == property) =
          others.filter (fun clause => clause.property == property)) →
        c₁.buildQuery store = c₂.buildQuery store ∧
        ∀ paged, c₁.buildCountQuery store paged = c₂.buildCountQuery store paged) := by
  refine ⟨⟨?_, ?_⟩, fun c₁ c₂ h₁ h₂ => ⟨?_, fun hsame => ?_⟩⟩
  · rintro ⟨c₁, h₁⟩
    exact withClauses_ok_of_perm hperm h₁
  · rintro ⟨c₂, h₂⟩
    exact withClauses_ok_of_perm hperm.symm h₂
  · have hs : c₁.schema.Sound := by
      rw [(withClauses_frame h₁).schema]
      exact hreach.schema_sound hbuilt
    rw [AccessPath.accessPath_outcome, AccessPath.accessPath_outcome]
    exact (sameAsked_of_perm hperm h₁ h₂).select_agree (sound_withClauses hreach.sound h₁)
      (sound_withClauses hreach.sound h₂) hs
  · obtain rfl := withClauses_same_order hsame h₁ h₂
    exact ⟨rfl, fun _ => rfl⟩

/-- The notes of an author between two days, with a day before the author and one after. -/
def daysOfAuthor : List Clause :=
  [.single "day" .ge (.string "a"), .equals "author" (.string "x"),
    .single "day" .lt (.string "c")]

theorem the_sort_slot_does_not_show :
    daysOfAuthor.Perm daysOfAuthor.reverse ∧ ∃ c₁ c₂ path₁ path₂,
      (ofEntity ⟨noteSchema, {}⟩).withClauses daysOfAuthor = .ok c₁ ∧
      (ofEntity ⟨noteSchema, {}⟩).withClauses daysOfAuthor.reverse = .ok c₂ ∧
      c₁.sortCondition = some ⟨"day", "d", ⟨.ge, [.string "a"]⟩⟩ ∧
      c₂.sortCondition = some ⟨"day", "d", ⟨.lt, [.string "c"]⟩⟩ ∧
      (c₁.accessPath : Traced Unit QueryError AccessPath).outcome = .ok path₁ ∧
      (c₂.accessPath : Traced Unit QueryError AccessPath).outcome = .ok path₂ ∧
      path₁.kind = .scan ∧ path₁.Alike path₂ := by
  have hok : ((ofEntity ⟨noteSchema, {}⟩).withClauses daysOfAuthor >>= fun c₁ =>
      (ofEntity ⟨noteSchema, {}⟩).withClauses daysOfAuthor.reverse >>= fun c₂ =>
        (c₁.accessPath : Traced Unit QueryError AccessPath).outcome >>= fun path₁ =>
          Except.ok (c₁.sortCondition, c₂.sortCondition, path₁.kind)) =
      .ok (some ⟨"day", "d", ⟨.ge, [.string "a"]⟩⟩, some ⟨"day", "d", ⟨.lt, [.string "c"]⟩⟩,
        .scan) := by
    decide +kernel
  obtain ⟨c₁, h₁, hok⟩ := bind_eq_ok_iff.1 hok
  obtain ⟨c₂, h₂, hok⟩ := bind_eq_ok_iff.1 hok
  obtain ⟨path₁, hpath₁, hok⟩ := bind_eq_ok_iff.1 hok
  simp only [Except.ok.injEq, Prod.mk.injEq] at hok
  have hperm : daysOfAuthor.Perm daysOfAuthor.reverse := daysOfAuthor.reverse_perm.symm
  have hagree := ((the_order_of_clauses_does_not_matter emptyStore noteSchema_built
    ⟨{}, [], rfl⟩ hperm).2 c₁ c₂ h₁ h₂).1
  rw [hpath₁] at hagree
  generalize hout : (c₂.accessPath : Traced Unit QueryError AccessPath).outcome = out at hagree
  cases hagree with
  | ok halike =>
    exact ⟨hperm, c₁, c₂, path₁, _, h₁, h₂, hok.1, hok.2.1, hpath₁, hout, hok.2.2, halike⟩

end Criteria

end KeyAccess
