-- The conditions that clauses ask for. Every clause asks for one condition on the attribute of its
-- property, and a run of calls keeps what its clauses asked for, once each, and nothing else.
import Mathlib
import KeyAccess.Proofs.Criteria.Placement

namespace KeyAccess

/-! ## What is asked -/

/-- The condition that a clause asks for, on the attribute of its property. -/
def EncodingContext.askedBy (ctx : EncodingContext) (clause : Clause) :
    Except QueryError AttributeCondition := do
  return ctx.schema.conditionOn clause.property (← ctx.conditionOf clause)

/-- The conditions that the clauses of some calls ask for, one for each clause and in their order.
Converters count for the clauses after them. -/
def EncodingContext.askedByAll (ctx : EncodingContext) :
    List Call → Except QueryError (List AttributeCondition)
  | [] => .ok []
  | call :: rest => do
    let here ← call.clauses.mapM ctx.askedBy
    let later ← askedByAll ⟨ctx.schema, Criteria.convertersAfter ctx.converters call⟩ rest
    return here ++ later

namespace Criteria

theorem withClauses_perm {clauses : List Clause} {c c' : Criteria}
    (h : c.withClauses clauses = .ok c') :
    ∃ asked, clauses.mapM c.context.askedBy = .ok asked ∧
      c'.allConditions.Perm (asked ++ c.allConditions) := by
  induction clauses generalizing c with
  | nil =>
    cases h
    exact ⟨[], rfl, List.Perm.refl _⟩
  | cons clause rest ih =>
    unfold withClauses at h
    rw [List.foldlM_cons] at h
    obtain ⟨c₁, hclause, hrest⟩ := bind_eq_ok_iff.1 h
    obtain ⟨condition, hcond, hplace⟩ := withClause_eq_ok_iff.1 hclause
    obtain ⟨asked, hasked, hperm⟩ := ih hrest
    rw [(place_frame hplace).context] at hasked
    refine ⟨c.schema.conditionOn clause.property condition :: asked, ?_, ?_⟩
    · rw [List.mapM_cons, bind_eq_ok_iff]
      refine ⟨_, bind_eq_ok_iff.2 ⟨condition, hcond, rfl⟩, ?_⟩
      exact bind_eq_ok_iff.2 ⟨asked, hasked, rfl⟩
    · exact hperm.trans (((place_perm hplace).append_left asked).trans List.perm_middle)

/-- Every run keeps the conditions of its clauses, and adds no others. -/
theorem run_perm {calls : List Call} {c c' : Criteria} (h : c.run calls = .ok c') :
    ∃ asked, c.context.askedByAll calls = .ok asked ∧
      c'.allConditions.Perm (asked ++ c.allConditions) := by
  induction calls generalizing c with
  | nil =>
    cases h
    exact ⟨[], rfl, List.Perm.refl _⟩
  | cons call rest ih =>
    obtain ⟨c₁, happly, hrest⟩ := run_cons.1 h
    obtain ⟨c₂, hadd, hkeep, hconv, -⟩ := apply_cases happly
    obtain ⟨here, hhere, hperm⟩ := withClauses_perm hadd
    obtain ⟨later, hlater, hperm'⟩ := ih hrest
    have hcontext : c₁.context = ⟨c.schema, convertersAfter c.converters call⟩ := by
      simp [context, hconv, hkeep.schema, (withClauses_frame hadd).schema]
    rw [hcontext] at hlater
    refine ⟨here ++ later, ?_, ?_⟩
    · exact bind_eq_ok_iff.2 ⟨here, hhere, bind_eq_ok_iff.2 ⟨later, hlater, rfl⟩⟩
    · rw [hkeep.allConditions] at hperm'
      calc List.Perm c'.allConditions (later ++ c₂.allConditions) := hperm'
        List.Perm _ (later ++ (here ++ c.allConditions)) := hperm.append_left later
        List.Perm _ (here ++ (later ++ c.allConditions)) := List.perm_append_comm_assoc _ _ _
        List.Perm _ (here ++ later ++ c.allConditions) := by rw [List.append_assoc]

end Criteria

end KeyAccess
