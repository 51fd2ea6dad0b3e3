-- Clauses become conditions that fit: each condition has as many values as its operator compares
-- with, however many values and nested collections the clause had.
import Mathlib
import KeyAccess.Clause.Conditions
import KeyAccess.Proofs.Outcome

namespace KeyAccess

/-- How many values an operator compares with. -/
def ComparisonOperator.arity : ComparisonOperator → Arity
  | eq | ne | le | lt | ge | gt | contains | notContains | beginsWith => .one
  | between => .two
  | isIn => .atLeastOne
  | null | notNull => .none

namespace Condition

/-- The condition has as many values as its operator compares with. -/
def Fits (c : Condition) : Prop := c.operator.arity.allows c.values.length = true

instance (c : Condition) : Decidable c.Fits := inferInstanceAs (Decidable (_ = true))

/-- An equality that fits is an equality with one value. -/
theorem Fits.eq_of_isEquality {c : Condition} (h : c.Fits) (he : c.isEquality = true) :
    ∃ value, c = ⟨.eq, [value]⟩ := by
  obtain ⟨operator, values⟩ := c
  have hop : operator = .eq := by simpa [isEquality] using he
  subst hop
  have hlen : values.length = 1 := by
    simpa [Fits, ComparisonOperator.arity, Arity.allows] using h
  obtain ⟨value, rfl⟩ := List.length_eq_one_iff.1 hlen
  exact ⟨value, rfl⟩

end Condition

namespace EncodingContext

variable {ctx : EncodingContext} {property : String} {type : Option AttributeType}
  {condition : Condition}

theorem equality_fits {value : ClauseValue}
    (h : ctx.equality property value type = .ok condition) : condition.Fits := by
  obtain ⟨encoded, -, h⟩ := bind_eq_ok_iff.1 h
  cases h
  rfl

theorem comparison_fits {operator : ComparisonOperator} {value : ClauseValue}
    (h : ctx.comparison property operator value type = .ok condition) : condition.Fits := by
  unfold comparison at h
  cases operator
  case between | isIn | null | notNull => cases h
  all_goals
    obtain ⟨encoded, -, h⟩ := bind_eq_ok_iff.1 h
    cases h
    rfl

theorem between_fits {low high : ClauseValue}
    (h : ctx.between property low high type = .ok condition) : condition.Fits := by
  obtain ⟨_, -, h⟩ := bind_eq_ok_iff.1 h
  obtain ⟨_, -, h⟩ := bind_eq_ok_iff.1 h
  cases h
  rfl

theorem membership_fits {values : List ClauseValue}
    (h : ctx.membership property values type = .ok condition) : condition.Fits := by
  obtain ⟨encoded, -, h⟩ := bind_eq_ok_iff.1 h
  dsimp only at h
  split at h
  · cases h
  · rename_i hne
    cases h
    have hpos : 1 ≤ encoded.length := by
      rw [Nat.succ_le_iff, List.length_pos_iff]
      simpa using hne
    simpa [Condition.Fits, ComparisonOperator.arity, Arity.allows] using hpos

theorem containment_fits {value : ClauseValue} {negated : Bool}
    (h : ctx.containment property value negated type = .ok condition) : condition.Fits := by
  unfold containment at h
  dsimp only at h
  generalize hop : (if negated = true then ComparisonOperator.notContains else .contains) = op at h
  have hone : op.arity = .one := by
    subst hop
    cases negated <;> rfl
  split at h
  · obtain ⟨_, -, h⟩ := bind_eq_ok_iff.1 h
    cases h
    simp [Condition.Fits, hone, Arity.allows]
  · cases h
  · obtain ⟨_, -, h⟩ := bind_eq_ok_iff.1 h
    cases h
    simp [Condition.Fits, hone, Arity.allows]

theorem nullCheck_fits (expectNull : Bool) : (nullCheck expectNull).Fits := by
  cases expectNull <;> rfl

theorem conditionOf_fits {clause : Clause} (h : ctx.conditionOf clause = .ok condition) :
    condition.Fits := by
  unfold conditionOf at h
  split at h
  case h_1 | h_14 | h_15 => exact equality_fits h
  case h_2 | h_3 | h_4 | h_5 | h_6 | h_7 => exact comparison_fits h
  case h_8 => exact between_fits h
  case h_9 => exact membership_fits h
  case h_10 | h_11 => exact containment_fits h
  case h_12 | h_13 =>
    cases h
    exact nullCheck_fits _
  case h_16 => cases h

end EncodingContext

end KeyAccess
