-- What loads add to a registry. A load that succeeds adds one definition, of an entity that had
-- none, a load that fails adds nothing, and nothing that is registered is ever replaced.
import Mathlib
import KeyAccess.Registry
import KeyAccess.Proofs.Outcome
import KeyAccess.Proofs.SortedMap

namespace KeyAccess

namespace Registry

variable {r r₁ r' : Registry} {d : EntityDefinition} {added more : List EntityDefinition}

/-! ## Additions -/

/-- A registry with definitions that were added to another one, each of an entity of its own that
had none. -/
structure Added (r : Registry) (added : List EntityDefinition) (r' : Registry) : Prop where
  fresh : ∀ d ∈ added, r.get? d.schema.entity = none
  distinct : (added.map fun d => d.schema.entity).Nodup
  get? : ∀ entity, r'.get? entity =
    (added.find? fun d => d.schema.entity == entity).or (r.get? entity)
  size : r'.size = r.size + added.length

theorem Added.nothing (r : Registry) : Added r [] r :=
  ⟨by simp, by simp, fun entity => by simp, by simp⟩

theorem Added.eq_of_nothing (h : Added r [] r') : r' = r := by
  have hget : ∀ entity, r'.get? entity = r.get? entity := by simpa using h.get?
  exact congrArg Registry.mk (SortedMap.ext_get? hget)

theorem Added.eq_nothing_iff (h : Added r added r') : r' = r ↔ added = [] := by
  constructor
  · rintro rfl
    have := h.size
    exact List.length_eq_zero_iff.1 (by omega)
  · rintro rfl
    exact h.eq_of_nothing

/-- What is registered stays as it is. -/
theorem Added.kept (h : Added r added r') {entity : String} (hget : r.get? entity = some d) :
    r'.get? entity = some d := by
  have hnone : added.find? (fun d => d.schema.entity == entity) = none := by
    rw [List.find?_eq_none]
    intro other hother heq
    rw [beq_iff_eq] at heq
    have hfresh := h.fresh other hother
    rw [heq, hget] at hfresh
    cases hfresh
  rw [h.get?, hnone, hget, Option.none_or]

/-- Each added definition is found under its entity. -/
theorem Added.holds (h : Added r added r') (hd : d ∈ added) :
    r'.get? d.schema.entity = some d := by
  have hfind : added.find? (fun e => e.schema.entity == d.schema.entity) = some d := by
    cases hf : added.find? (fun e => e.schema.entity == d.schema.entity) with
    | none => exact absurd (List.find?_eq_none.1 hf d hd) (by simp)
    | some e =>
      have hentity : e.schema.entity = d.schema.entity := by simpa using List.find?_some hf
      rw [List.inj_on_of_nodup_map h.distinct (List.mem_of_find?_eq_some hf) hd hentity]
  rw [h.get?, hfind, Option.some_or]

theorem Added.append (h : Added r added r₁) (h' : Added r₁ more r') :
    Added r (added ++ more) r' := by
  have hfresh : ∀ d ∈ more, r.get? d.schema.entity = none := by
    intro d hd
    rw [Option.eq_none_iff_forall_ne_some]
    intro e he
    have := h'.fresh d hd
    rw [h.kept he] at this
    cases this
  refine ⟨fun d hd => ?_, ?_, fun entity => ?_, ?_⟩
  · rcases List.mem_append.1 hd with hd | hd
    · exact h.fresh d hd
    · exact hfresh d hd
  · rw [List.map_append, List.nodup_append]
    refine ⟨h.distinct, h'.distinct, ?_⟩
    intro entity hentity other hother heq
    obtain ⟨d, hd, rfl⟩ := List.mem_map.1 hentity
    obtain ⟨e, he, rfl⟩ := List.mem_map.1 hother
    have hnone := h'.fresh e he
    rw [← heq, h.holds hd] at hnone
    cases hnone
  · rw [h'.get?, h.get?, List.find?_append]
    -- what is found among the later ones is not found among the earlier ones
    cases hf : more.find? (fun d => d.schema.entity == entity) with
    | none => simp
    | some e =>
      have hentity : e.schema.entity = entity := by simpa using List.find?_some hf
      have hnone := h'.fresh e (List.mem_of_find?_eq_some hf)
      rw [hentity, h.get?, Option.or_eq_none_iff] at hnone
      simp [hnone.1]
  · rw [h'.size, h.size, List.length_append, Nat.add_assoc]

/-! ## Single loads -/

theorem register_eq_ok_iff : r.register d = .ok r' ↔
    r.get? d.schema.entity = none ∧ r' = ⟨r.definitions.insert d.schema.entity d⟩ := by
  unfold register
  by_cases h : r.get? d.schema.entity = none
  · have hnot : r.definitions.contains d.schema.entity ≠ true := by
      rw [Ne, SortedMap.contains_iff]
      exact (SortedMap.get?_eq_none_iff _ _).1 h
    rw [if_neg hnot]
    simp [h, eq_comm]
  · have hheld : r.definitions.contains d.schema.entity = true := by
      rw [SortedMap.contains_iff]
      exact not_not.1 fun hn => h ((SortedMap.get?_eq_none_iff _ _).2 hn)
    rw [if_pos hheld]
    simp [h]

/-- A definition is refused exactly if its entity has one. -/
theorem register_eq_error_iff {e : SchemaError} : r.register d = .error e ↔
    (∃ held, r.get? d.schema.entity = some held) ∧ e = .duplicateEntity d.schema.entity := by
  change _ ↔ (∃ held, r.definitions.get? d.schema.entity = some held) ∧ _
  rw [← SortedMap.mem_keys_iff, ← SortedMap.contains_iff]
  unfold register
  split
  · rename_i hheld
    simp [hheld, eq_comm]
  · rename_i hnot
    simp [hnot]

theorem added_register (h : r.register d = .ok r') : Added r [d] r' := by
  obtain ⟨hfresh, rfl⟩ := register_eq_ok_iff.1 h
  refine ⟨by simpa using hfresh, by simp, fun entity => ?_, SortedMap.size_insert hfresh d⟩
  change (r.definitions.insert d.schema.entity d).get? entity = _
  rw [SortedMap.get?_insert]
  by_cases he : entity = d.schema.entity
  · simp [he]
  · have hne : (d.schema.entity == entity) = false := by simpa using Ne.symm he
    simp only [if_neg he, List.find?_cons, hne, List.find?_nil, Option.none_or]
    rfl

/-- A text whose definition is registered adds it. Any other text adds nothing: it has no
definition, or its definition is refused. -/
theorem loadText_cases (r : Registry) (source text : String) :
    (∃ d r', definitionOf source text = .ok d ∧ r.register d = .ok r' ∧
      r.loadText source text =
        ⟨r', [⟨.schemaLoaded, [("entity", d.schema.entity), ("source", source)]⟩],
          .ok d.schema.entity⟩) ∨
    ∃ e, (definitionOf source text = .error e ∨
        ∃ d, definitionOf source text = .ok d ∧ r.register d = .error e) ∧
      r.loadText source text = ⟨r, [], .error e⟩ := by
  unfold loadText
  cases hd : definitionOf source text with
  | error e => exact Or.inr ⟨e, Or.inl rfl, rfl⟩
  | ok d =>
    cases hr : r.register d with
    | error e => exact Or.inr ⟨e, Or.inr ⟨d, rfl, hr⟩, by simp [hr]⟩
    | ok r' => exact Or.inl ⟨d, r', rfl, hr, by simp [hr]⟩

/-- A file that is found is loaded as the text that it holds. -/
theorem loadFile_of_lookup {tree : FileTree} {path text : String} {place : List String}
    (h : tree.lookup path = .ok (place, .file text.toUTF8)) (r : Registry) :
    r.loadFile tree path = r.loadText path text := by
  have hvalid : text.toUTF8.IsValidUTF8 := text.isValidUTF8
  have htext : String.fromUTF8? text.toUTF8 = some text := by
    unfold String.fromUTF8?
    rw [dif_pos hvalid]
    rfl
  have hread : tree.readText path = .ok text := by
    unfold FileTree.readText
    rw [h, ok_bind]
    simp only [htext]
    rfl
  unfold loadFile
  rw [hread]

/-- A file that is loaded adds one definition, and any other file adds nothing. -/
theorem loadFile_cases (r : Registry) (tree : FileTree) (path : String) :
    (∃ d, Added r [d] (r.loadFile tree path).registry ∧
      (r.loadFile tree path).outcome = .ok d.schema.entity) ∨
    (r.loadFile tree path).registry = r ∧ ∃ e, (r.loadFile tree path).outcome = .error e := by
  unfold loadFile
  cases tree.readText path with
  | error fault => exact Or.inr ⟨rfl, _, rfl⟩
  | ok text =>
    dsimp only
    rcases r.loadText_cases path text with ⟨d, r', -, hregister, hload⟩ | ⟨e, -, hload⟩
    · rw [hload]
      exact Or.inl ⟨d, added_register hregister, rfl⟩
    · rw [hload]
      exact Or.inr ⟨rfl, e, rfl⟩

end Registry

end KeyAccess
