-- The order in which indexes are declared. The checks stop at the first fault, but whether there is
-- one does not depend on the order, and the schemas that are built of two orders differ in nothing
-- but the lists of their indexes.
import Mathlib
import KeyAccess.Proofs.Schema.Built

namespace KeyAccess

/-- The schema with other indexes. -/
def KeySchema.withIndexes (s : KeySchema) (indexes : List IndexDefinition) : KeySchema :=
  { s with indexes, memberships := SchemaDraft.membershipsOf indexes }

namespace SchemaDraft

theorem build_indexes {d : SchemaDraft} {s : KeySchema} (h : d.build = .ok s) :
    s.indexes = d.indexes := by
  rw [(build_eq_ok_iff.1 h).2.1]
  rfl

/-- With its indexes in another order a draft passes its checks as well. -/
theorem build_perm {d : SchemaDraft} {indexes : List IndexDefinition} {s : KeySchema}
    (hperm : d.indexes.Perm indexes) (h : d.build = .ok s) :
    ({ d with indexes } : SchemaDraft).build = .ok (s.withIndexes indexes) := by
  obtain ⟨hshape, hs, hnodup, hsound, hinj⟩ := build_eq_ok_iff.1 h
  have hknown : ∀ p, ({ d with indexes } : SchemaDraft).Knows p ↔ d.Knows p := by
    intro p
    simp only [Knows, hperm.mem_iff]
  refine build_eq_ok_iff.2 ⟨hshape, ?_, (hperm.map _).nodup_iff.1 hnodup, ?_, ?_⟩
  · rw [hs]
    rfl
  · exact fun i hi => hsound i (hperm.mem_iff.2 hi)
  · simp only [hknown]
    exact hinj

end SchemaDraft

end KeyAccess
