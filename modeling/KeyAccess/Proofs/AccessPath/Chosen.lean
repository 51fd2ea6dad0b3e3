-- The path that is chosen. It is of one of four kinds, each with a reason that it could be chosen,
-- and read back as conditions it asks exactly what the clauses asked: none is lost, none is added
-- and none is changed.
import Mathlib
import KeyAccess.Query
import KeyAccess.Proofs.AccessPath.Candidates
import KeyAccess.Proofs.Criteria.Asked

namespace KeyAccess

namespace AccessPath

variable {c : Criteria}

/-! ## The kinds of chosen paths -/

/-- A path that may be chosen for criteria, and why. -/
inductive Chosen (c : Criteria) : AccessPath → Prop
  | load {v : AttributeValue} {w : Option AttributeValue} : c.FullyPinned →
      c.allConditions = loadConditions c.schema v w → Chosen c (.directLoad v w)
  | primary {sort : String} {v : AttributeValue} : c.schema.sortKey = some sort →
      c.ServedBy c.schema.partitionKey (some sort) →
      c.allConditions = pinned c.schema c.schema.partitionKey v :: c.sortCondition.toList →
      (∀ d, c.sort.head? = some d → d.property = sort) →
      Chosen c (.primaryQuery v c.sortCondition c.sort.head?)
  | index {i : IndexDefinition} {a : AttributeCondition} : i ∈ c.schema.indexes →
      c.ServedBy i.partition i.sort → c.OrderedBy i.sort → c.conditionsOn i.partition = [a] →
      Chosen c (.indexQuery i.name a (c.rangeOn i.sort) c.sort.head?)
  | scan : c.sort.head? = none → c.config.scan.enabled = true → Chosen c (.scan c.allConditions)

theorem primaryQuery?_chosen (h : c.Sound) (hs : c.schema.Sound) {path : AccessPath}
    (hq : primaryQuery? c.schema c = .ok (some path)) : Chosen c path := by
  by_cases hserved : ∃ sort, c.schema.sortKey = some sort ∧
      c.ServedBy c.schema.partitionKey (some sort)
  · obtain ⟨sort, hsort, hserved⟩ := hserved
    obtain ⟨v, hall, heq⟩ := primaryQuery?_of_served h hs hsort hserved
    rw [heq] at hq
    have hpath : path = .primaryQuery v c.sortCondition c.sort.head? ∧
        ∀ d, c.sort.head? = some d → d.property = sort := by
      cases hd : c.sort.head? with
      | none =>
        rw [hd] at hq
        cases hq
        refine ⟨rfl, fun d' hd' => ?_⟩
        cases hd'
      | some d =>
        rw [hd] at hq
        dsimp only at hq
        split at hq
        · rename_i hproperty
          cases hq
          refine ⟨rfl, fun d' hd' => ?_⟩
          cases hd'
          exact hproperty
        · cases hq
    obtain ⟨rfl, hord⟩ := hpath
    exact .primary hsort hserved hall hord
  · rw [primaryQuery?_of_not_served h hs (fun s hs hserved' => hserved ⟨s, hs, hserved'⟩)] at hq
    cases hq

theorem indexQuery?_chosen (hs : c.schema.Sound) {path : AccessPath}
    (hq : indexQuery? c.schema c = .ok (some path)) : Chosen c path := by
  obtain ⟨l, hl, hq⟩ := bind_eq_ok_iff.1 hq
  have hmem := fun i hi => ((mem_indexCandidates hl i).1 hi).1
  have hne : ∀ i ∈ l, i.sort ≠ some i.partition := fun i hi => hs.members_differ i (hmem i hi)
  rcases firstIndexQuery_cases hne none with
    ⟨pre, i, post, a, rfl, -, hserved, hord, ha, hfound⟩ | ⟨-, -, fault, hfault⟩ | ⟨-, -, hnone⟩
  · rw [hfound] at hq
    cases hq
    exact .index (hmem i (by simp)) hserved hord ha
  · rw [hfault] at hq
    cases hq
  · rw [hnone] at hq
    cases hq

theorem scanOf_chosen {path : AccessPath} (hq : scanOf c.schema c = .ok path) : Chosen c path := by
  unfold scanOf at hq
  split at hq
  · cases hq
  · rename_i hnone
    split at hq
    · cases hq
    · rename_i henabled
      cases hq
      exact .scan hnone (by simpa using henabled)

/-- The steps of a choice. -/
theorem select_ok {schema : KeySchema} {path : AccessPath} (hq : select schema c = .ok path) :
    c.sort.length ≤ 1 ∧ (directLoad? schema c = some path ∨ (directLoad? schema c = none ∧
      (primaryQuery? schema c = .ok (some path) ∨ (primaryQuery? schema c = .ok none ∧
        (indexQuery? schema c = .ok (some path) ∨
          (indexQuery? schema c = .ok none ∧ scanOf schema c = .ok path)))))) := by
  unfold select at hq
  dsimp only at hq
  split at hq
  · cases hq
  · rename_i hlen
    refine ⟨Nat.not_lt.1 hlen, ?_⟩
    split at hq
    · rename_i hload
      cases hq
      exact Or.inl hload
    · rename_i hload
      obtain ⟨primary?, hprimary, hq⟩ := bind_eq_ok_iff.1 hq
      refine Or.inr ⟨hload, ?_⟩
      split at hq
      · cases hq
        exact Or.inl hprimary
      · obtain ⟨index?, hindex, hq⟩ := bind_eq_ok_iff.1 hq
        refine Or.inr ⟨hprimary, ?_⟩
        split at hq
        · cases hq
          exact Or.inl hindex
        · exact Or.inr ⟨hindex, hq⟩

theorem select_chosen (h : c.Sound) (hs : c.schema.Sound) {path : AccessPath}
    (hq : select c.schema c = .ok path) : Chosen c path := by
  obtain ⟨-, hload | ⟨-, hprimary | ⟨-, hindex | ⟨-, hscan⟩⟩⟩⟩ := select_ok hq
  · by_cases hpin : c.FullyPinned
    · obtain ⟨v, w, hsome, hall⟩ := directLoad?_of_fullyPinned h hs hpin
      rw [hsome] at hload
      cases hload
      exact .load hpin hall
    · rw [directLoad?_eq_none h hs hpin] at hload
      cases hload
  · exact primaryQuery?_chosen h hs hprimary
  · exact indexQuery?_chosen hs hindex
  · exact scanOf_chosen hscan

theorem accessPath_outcome {α : Type} (c : Criteria) :
    (c.accessPath : Traced α QueryError AccessPath).outcome = select c.schema c := by
  unfold Criteria.accessPath Criteria.accessPathIn
  cases select c.schema c <;> rfl

/-! ## The conditions of a path -/

/-- A path read back as conditions. -/
def conditions (schema : KeySchema) : AccessPath → List AttributeCondition
  | directLoad partition sort => loadConditions schema partition sort
  | primaryQuery partition sort _ => pinned schema schema.partitionKey partition :: sort.toList
  | indexQuery _ partition sort _ => partition :: sort.toList
  | scan filters => filters

/-- A key that serves all conditions uses each of them. -/
theorem perm_of_served {partition : String} {sort : Option String} {a : AttributeCondition}
    (hne : sort ≠ some partition) (hserved : c.ServedBy partition sort)
    (ha : c.conditionsOn partition = [a]) :
    (a :: (c.rangeOn sort).toList).Perm c.allConditions := by
  have hsplit := List.filter_append_perm (fun b => b.property == partition) c.allConditions
  have hpart : c.allConditions.filter (fun b => b.property == partition) = [a] := ha
  rw [hpart] at hsplit
  refine List.Perm.trans (List.Perm.cons a ?_) hsplit
  cases hsort : sort with
  | none =>
    have hnil : c.allConditions.filter (fun b => !(b.property == partition)) = [] := by
      rw [List.filter_eq_nil_iff]
      intro b hb
      have := hserved.nothing_else b hb
      rw [hsort] at this
      simpa using this
    rw [hnil]
    rfl
  | some s =>
    have hs : c.allConditions.filter (fun b => !(b.property == partition)) =
        c.conditionsOn s := by
      refine List.filter_congr (fun b hb => ?_)
      have hin := hserved.nothing_else b hb
      rw [hsort] at hin hne
      have hsp : s ≠ partition := fun he => hne (by rw [he])
      rcases List.mem_pair.1 hin with hp | hp
      · simp [hp, Ne.symm hsp]
      · simp [hp, hsp]
    rw [hs]
    rcases hserved.ranged s hsort with hnil | ⟨b, hb, -⟩
    · simp [Criteria.rangeOn, hnil]
    · simp [Criteria.rangeOn, hb]

theorem Chosen.conditions_perm (hs : c.schema.Sound) {path : AccessPath} (h : Chosen c path) :
    (path.conditions c.schema).Perm c.allConditions := by
  cases h with
  | load _ hall =>
    rw [hall]
    exact List.Perm.refl _
  | primary _ _ hall _ =>
    rw [hall]
    exact List.Perm.refl _
  | index hi hserved _ ha => exact perm_of_served (hs.members_differ _ hi) hserved ha
  | scan _ _ => exact List.Perm.refl _

end AccessPath

namespace Criteria

theorem Reachable.schema_sound {schema : KeySchema} {c : Criteria} (h : Reachable schema c)
    (hbuilt : schema.Built) : c.schema.Sound := by
  rw [h.schema_eq]
  exact hbuilt.sound

/-! ## The law -/

/-- A path that is chosen, read back as conditions, asks exactly what the clauses of the calls
asked, each of them once. -/
theorem a_path_keeps_every_condition {α : Type} {schema : KeySchema} {config : QueryConfig}
    {calls : List Call} {c : Criteria} {path : AccessPath} (hbuilt : schema.Built)
    (hrun : (ofEntity ⟨schema, config⟩).run calls = .ok c)
    (hpath : (c.accessPath : Traced α QueryError AccessPath).outcome = .ok path) :
    ∃ asked, (EncodingContext.mk schema {}).askedByAll calls = .ok asked ∧
      (path.conditions schema).Perm asked := by
  obtain ⟨asked, hasked, hperm⟩ := run_perm hrun
  refine ⟨asked, hasked, ?_⟩
  have hempty : (ofEntity ⟨schema, config⟩).allConditions = [] := rfl
  have hreach : Reachable schema c := ⟨config, calls, hrun⟩
  have hs := hreach.schema_sound hbuilt
  rw [AccessPath.accessPath_outcome] at hpath
  have hchosen := AccessPath.select_chosen hreach.sound hs hpath
  rw [hempty, List.append_nil] at hperm
  rw [← hreach.schema_eq]
  exact (hchosen.conditions_perm hs).trans hperm

/-- The titled notes of an author between two days, asked for with two conditions on the day. -/
def titledNotes : List Call :=
  [.range "day" .ge (.string "a"), .nullCheck "title" false, .equality "author" (.string "x"),
    .range "day" .lt (.string "c")]

def titledNotesPath : AccessPath :=
  .scan [⟨"author", "author", ⟨.eq, [.string "x"]⟩⟩, ⟨"day", "d", ⟨.ge, [.string "a"]⟩⟩,
    ⟨"day", "d", ⟨.lt, [.string "c"]⟩⟩, ⟨"title", "title", ⟨.notNull, []⟩⟩]

theorem a_scan_keeps_a_second_sort_condition :
    ((ofEntity ⟨noteSchema, {}⟩).run titledNotes >>= fun c =>
        (c.accessPath : Traced Unit QueryError AccessPath).outcome) = .ok titledNotesPath ∧
      ∃ asked, (EncodingContext.mk noteSchema {}).askedByAll titledNotes = .ok asked ∧
        (titledNotesPath.conditions noteSchema).Perm asked := by
  have hok : ((ofEntity ⟨noteSchema, {}⟩).run titledNotes >>= fun c =>
      (c.accessPath : Traced Unit QueryError AccessPath).outcome) = .ok titledNotesPath := by
    decide +kernel
  obtain ⟨c, hrun, hpath⟩ := bind_eq_ok_iff.1 hok
  exact ⟨hok, a_path_keeps_every_condition noteSchema_built hrun hpath⟩

end Criteria

end KeyAccess
