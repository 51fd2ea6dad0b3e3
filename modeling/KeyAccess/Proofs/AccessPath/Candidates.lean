-- The candidates among the indexes and the first of them that serves. Candidates stand in one
-- order, an index with no other member first and the others by name, so the first one that serves
-- is the best one that serves.
import Mathlib
import KeyAccess.Proofs.AccessPath.Choice

namespace KeyAccess

namespace Criteria

/-- The members of an index are exactly the properties that carry conditions. -/
def MatchedBy (c : Criteria) (i : IndexDefinition) : Prop :=
  ∀ p, p ∈ i.members ↔ ∃ a ∈ c.allConditions, a.property = p

/-- One index stands before another: it has no other member, or neither is so and it has the
smaller name. -/
def Prefers (c : Criteria) (i j : IndexDefinition) : Prop :=
  c.MatchedBy i ∨ (¬ c.MatchedBy j ∧ i.name ≤ j.name)

end Criteria

/-! ## Candidates -/

namespace IndexDefinition

theorem covers_iff {i : IndexDefinition} {properties : List String} :
    i.covers properties = true ↔ ∀ p ∈ properties, p ∈ i.members := by
  unfold covers
  simp [List.all_eq_true]

/-- Of distinct properties, the ones that an index covers are its members if there are as many. -/
theorem matchesExactly_iff {i : IndexDefinition} {properties : List String}
    (hnodup : properties.Nodup) :
    i.matchesExactly properties = true ↔ ∀ p, p ∈ i.members ↔ p ∈ properties := by
  have hmembers := nodup_sortedDistinct i.members
  unfold matchesExactly
  rw [Bool.and_eq_true, covers_iff, beq_iff_eq]
  constructor
  · rintro ⟨hcover, hlen⟩ p
    have hsub : properties ⊆ sortedDistinct i.members :=
      fun q hq => (mem_sortedDistinct _ _).2 (hcover q hq)
    have hperm := (List.subperm_of_subset hnodup hsub).perm_of_length_le hlen.le
    rw [← mem_sortedDistinct i.members p]
    exact hperm.symm.mem_iff
  · intro hmem
    refine ⟨fun p hp => (hmem p).2 hp, ?_⟩
    refine ((List.perm_ext_iff_of_nodup hmembers hnodup).2 fun p => ?_).length_eq
    rw [mem_sortedDistinct]
    exact hmem p

end IndexDefinition

namespace Criteria

variable {c : Criteria}

theorem matchesExactly_keys_iff {i : IndexDefinition} :
    i.matchesExactly c.conditionsByProperty.keys = true ↔ c.MatchedBy i := by
  rw [IndexDefinition.matchesExactly_iff c.conditionsByProperty.keys_nodup]
  unfold MatchedBy
  simp only [mem_keys_conditionsByProperty]

theorem covers_keys_iff {i : IndexDefinition} :
    i.covers c.conditionsByProperty.keys = true ↔
      ∀ a ∈ c.allConditions, a.property ∈ i.members := by
  rw [IndexDefinition.covers_iff]
  simp only [mem_keys_conditionsByProperty]
  constructor
  · intro h a ha
    exact h a.property ⟨a, ha, rfl⟩
  · rintro h p ⟨a, ha, rfl⟩
    exact h a ha

theorem keys_isEmpty_iff :
    c.conditionsByProperty.keys.isEmpty = true ↔ c.allConditions = [] := by
  rw [List.isEmpty_iff, List.eq_nil_iff_forall_not_mem, List.eq_nil_iff_forall_not_mem]
  simp only [mem_keys_conditionsByProperty]
  constructor
  · intro h a ha
    exact h a.property ⟨a, ha, rfl⟩
  · rintro h p ⟨a, ha, -⟩
    exact h a ha

theorem MatchedBy.covers {i : IndexDefinition} (h : c.MatchedBy i) :
    ∀ a ∈ c.allConditions, a.property ∈ i.members := fun a ha => (h _).2 ⟨a, ha, rfl⟩

end Criteria

theorem mem_sortByName {indexes : List IndexDefinition} {i : IndexDefinition} :
    i ∈ sortByName indexes ↔ i ∈ indexes := List.mem_mergeSort

theorem pairwise_sortByName (indexes : List IndexDefinition) :
    (sortByName indexes).Pairwise (fun i j => i.name ≤ j.name) := by
  have h : (sortByName indexes).Pairwise (fun i j => decide (i.name ≤ j.name) = true) := by
    refine List.pairwise_mergeSort (fun i j k hij hjk => ?_) (fun i j => ?_) indexes
    · rw [decide_eq_true_eq] at hij hjk ⊢
      exact String.le_trans hij hjk
    · rw [Bool.or_eq_true, decide_eq_true_eq, decide_eq_true_eq]
      exact String.le_total _ _
  exact h.imp (fun hij => by simpa using hij)

/-- Indexes with names of their own are sorted in one way only. -/
theorem sortByName_perm {indexes others : List IndexDefinition}
    (hnames : (indexes.map IndexDefinition.name).Nodup) (hperm : indexes.Perm others) :
    sortByName indexes = sortByName others := by
  have hsorted : (sortByName indexes).Perm (sortByName others) :=
    (List.mergeSort_perm indexes _).trans (hperm.trans (List.mergeSort_perm others _).symm)
  refine List.Perm.eq_of_pairwise ?_ (pairwise_sortByName _) (pairwise_sortByName _) hsorted
  intro i j hi hj hij hji
  have hj' : j ∈ indexes := hperm.mem_iff.2 (mem_sortByName.1 hj)
  exact List.inj_on_of_nodup_map hnames (mem_sortByName.1 hi) hj' (String.le_antisymm hij hji)

/-- At most one element has one order only. -/
theorem eq_of_perm_of_length_le_one {α : Type} {l l' : List α} (hperm : l.Perm l')
    (hone : l'.length ≤ 1) : l = l' := by
  match l', hone with
  | [], _ => exact hperm.eq_nil
  | [_], _ => exact List.perm_singleton.1 hperm

/-- The order of the declarations plays no part in the candidates, nor in the failure. -/
theorem indexCandidates_perm {indexes others : List IndexDefinition} {properties : List String}
    (hnames : (indexes.map IndexDefinition.name).Nodup) (hperm : indexes.Perm others) :
    indexCandidates indexes properties = indexCandidates others properties := by
  unfold indexCandidates
  split
  · rfl
  · have hcovering := hperm.filter (fun i => i.covers properties)
    have hexact := hcovering.filter (fun i => i.matchesExactly properties)
    have hpartly := hcovering.filter (fun i => !i.matchesExactly properties)
    have hnames' : ∀ p q : IndexDefinition → Bool,
        (((indexes.filter p).filter q).map IndexDefinition.name).Nodup := fun p q =>
      hnames.sublist ((List.filter_sublist.trans List.filter_sublist).map _)
    dsimp only
    rw [sortByName_perm (hnames' _ _) hexact, sortByName_perm (hnames' _ _) hpartly,
      hexact.length_eq]
    split
    · rfl
    · rename_i hone
      rw [eq_of_perm_of_length_le_one hexact (Nat.not_lt.1 hone)]

namespace AccessPath

variable {c : Criteria}

theorem mem_indexCandidates {indexes l : List IndexDefinition}
    (h : indexCandidates indexes c.conditionsByProperty.keys = .ok l) (i : IndexDefinition) :
    i ∈ l ↔ i ∈ indexes ∧ c.allConditions ≠ [] ∧
      ∀ a ∈ c.allConditions, a.property ∈ i.members := by
  unfold indexCandidates at h
  rw [← Criteria.covers_keys_iff]
  split at h
  · rename_i hempty
    cases h
    rw [Criteria.keys_isEmpty_iff] at hempty
    simp [hempty]
  · rename_i hempty
    rw [Criteria.keys_isEmpty_iff] at hempty
    dsimp only at h
    split at h
    · cases h
    · cases h
      simp only [List.mem_append, List.mem_filter, mem_sortByName, Bool.not_eq_true']
      cases i.matchesExactly c.conditionsByProperty.keys <;> simp [hempty]

theorem pairwise_indexCandidates {indexes l : List IndexDefinition}
    (h : indexCandidates indexes c.conditionsByProperty.keys = .ok l) :
    l.Pairwise c.Prefers := by
  unfold indexCandidates at h
  split at h
  · cases h
    exact List.Pairwise.nil
  · dsimp only at h
    split at h
    · cases h
    · cases h
      rw [List.pairwise_append]
      refine ⟨?_, ?_, ?_⟩
      · refine List.pairwise_of_forall_mem_list (fun i hi j _ => Or.inl ?_)
        exact Criteria.matchesExactly_keys_iff.1 (List.mem_filter.1 hi).2
      · refine (pairwise_sortByName _).imp_of_mem (fun _ hj hij => Or.inr ⟨?_, hij⟩)
        rw [← Criteria.matchesExactly_keys_iff]
        simpa using (List.mem_filter.1 (mem_sortByName.1 hj)).2
      · intro i hi j _
        exact Or.inl (Criteria.matchesExactly_keys_iff.1 (List.mem_filter.1 hi).2)

/-- There are candidates unless two indexes have exactly the conditioned properties as members. -/
theorem indexCandidates_isOk {indexes : List IndexDefinition} (hnodup : indexes.Nodup)
    (huniq : ∀ i ∈ indexes, ∀ j ∈ indexes, c.MatchedBy i → c.MatchedBy j → i = j) :
    ∃ l, indexCandidates indexes c.conditionsByProperty.keys = .ok l := by
  unfold indexCandidates
  split
  · exact ⟨_, rfl⟩
  · dsimp only
    split
    · rename_i hlen
      exfalso
      generalize hexact : (indexes.filter
        (fun i => i.covers c.conditionsByProperty.keys)).filter
          (fun i => i.matchesExactly c.conditionsByProperty.keys) = exact at hlen
      have hsub : exact.Nodup := by
        rw [← hexact]
        exact (hnodup.filter _).filter _
      have hmem : ∀ i ∈ exact, i ∈ indexes ∧ c.MatchedBy i := by
        intro i hi
        rw [← hexact, List.mem_filter, List.mem_filter] at hi
        exact ⟨hi.1.1, Criteria.matchesExactly_keys_iff.1 hi.2⟩
      match exact, hlen, hsub, hmem with
      | i :: j :: _, _, hsub, hmem =>
        obtain ⟨hi, him⟩ := hmem i (by simp)
        obtain ⟨hj, hjm⟩ := hmem j (by simp)
        have hij := huniq i hi j hj him hjm
        subst hij
        simp at hsub
    · exact ⟨_, rfl⟩

theorem indexCandidates_ambiguous {indexes : List IndexDefinition} {i j : IndexDefinition}
    (hi : i ∈ indexes) (hj : j ∈ indexes) (hne : i ≠ j) (him : c.MatchedBy i)
    (hjm : c.MatchedBy j) : ∃ names properties,
      indexCandidates indexes c.conditionsByProperty.keys =
        .error (.ambiguousIndex names properties) := by
  have hexact : ∀ k ∈ indexes, c.MatchedBy k →
      k ∈ (indexes.filter (fun i => i.covers c.conditionsByProperty.keys)).filter
        (fun i => i.matchesExactly c.conditionsByProperty.keys) := by
    intro k hk hkm
    rw [List.mem_filter, List.mem_filter, Criteria.covers_keys_iff,
      Criteria.matchesExactly_keys_iff]
    exact ⟨⟨hk, hkm.covers⟩, hkm⟩
  unfold indexCandidates
  split
  · rename_i hempty
    rw [Criteria.keys_isEmpty_iff] at hempty
    obtain ⟨a, ha, -⟩ := (him i.partition).1 (by simp [IndexDefinition.members])
    rw [hempty] at ha
    cases ha
  · dsimp only
    split
    · exact ⟨_, _, rfl⟩
    · rename_i hlen
      exfalso
      have htwo := (List.subperm_of_subset (by simp [hne])
        (List.cons_subset.2 ⟨hexact i hi him,
          List.cons_subset.2 ⟨hexact j hj hjm, List.nil_subset _⟩⟩)).length_le
      simp only [List.length_cons, List.length_nil] at htwo
      omega

/-! ## The first that serves -/

theorem firstIndexQuery_skip {i : IndexDefinition} {rest : List IndexDefinition}
    (hne : i.sort ≠ some i.partition) (hnot : ¬ c.ServedBy i.partition i.sort)
    (fault? : Option OperationFault) :
    firstIndexQuery c.sort c.conditionsByProperty fault? (i :: rest) =
      firstIndexQuery c.sort c.conditionsByProperty fault? rest := by
  have hkey := keyConditions?_eq_none hne hnot
  cases fault? <;> simp [firstIndexQuery, hkey]

theorem firstIndexQuery_reject {i : IndexDefinition} (rest : List IndexDefinition)
    (hne : i.sort ≠ some i.partition) (hserved : c.ServedBy i.partition i.sort)
    (hnot : ¬ c.OrderedBy i.sort) (fault? : Option OperationFault) :
    ∃ fault, firstIndexQuery c.sort c.conditionsByProperty fault? (i :: rest) =
      firstIndexQuery c.sort c.conditionsByProperty (some fault) rest := by
  obtain ⟨a, -, hkey⟩ := keyConditions?_of_served hne hserved
  rcases indexOrder_of_served hserved with ⟨hord, -⟩ | ⟨-, fault, hfault⟩
  · exact absurd hord hnot
  · cases fault? with
    | none => exact ⟨fault, by simp [firstIndexQuery, hkey, hfault]⟩
    | some first => exact ⟨first, by simp [firstIndexQuery, hkey, hfault]⟩

theorem firstIndexQuery_accept {i : IndexDefinition} (rest : List IndexDefinition)
    (hne : i.sort ≠ some i.partition) (hserved : c.ServedBy i.partition i.sort)
    (hord : c.OrderedBy i.sort) (fault? : Option OperationFault) :
    ∃ a, c.conditionsOn i.partition = [a] ∧
      firstIndexQuery c.sort c.conditionsByProperty fault? (i :: rest) =
        .ok (some (.indexQuery i.name a (c.rangeOn i.sort) c.sort.head?)) := by
  obtain ⟨a, ha, hkey⟩ := keyConditions?_of_served hne hserved
  refine ⟨a, ha, ?_⟩
  rcases indexOrder_of_served hserved with ⟨-, hok⟩ | ⟨hnot, -⟩
  · cases fault? <;> simp [firstIndexQuery, hkey, hok]
  · exact absurd hord hnot

/-- Walking the candidates finds the first one that serves conditions and order; it fails if some
serve the conditions but none the order, and passes if none serves the conditions. -/
theorem firstIndexQuery_cases {l : List IndexDefinition}
    (hne : ∀ i ∈ l, i.sort ≠ some i.partition) (fault? : Option OperationFault) :
    (∃ pre i post a, l = pre ++ i :: post ∧
      (∀ j ∈ pre, ¬ (c.ServedBy j.partition j.sort ∧ c.OrderedBy j.sort)) ∧
      c.ServedBy i.partition i.sort ∧ c.OrderedBy i.sort ∧ c.conditionsOn i.partition = [a] ∧
      firstIndexQuery c.sort c.conditionsByProperty fault? l =
        .ok (some (.indexQuery i.name a (c.rangeOn i.sort) c.sort.head?))) ∨
    ((∀ j ∈ l, ¬ (c.ServedBy j.partition j.sort ∧ c.OrderedBy j.sort)) ∧
      ((fault?.isSome = true ∨ ∃ j ∈ l, c.ServedBy j.partition j.sort) ∧
        ∃ fault, firstIndexQuery c.sort c.conditionsByProperty fault? l =
          .error (.unsupportedOperation fault)) ∨
    ((∀ j ∈ l, ¬ c.ServedBy j.partition j.sort) ∧ fault? = none ∧
      firstIndexQuery c.sort c.conditionsByProperty fault? l = .ok none)) := by
  induction l generalizing fault? with
  | nil =>
    cases fault? with
    | none => exact Or.inr (Or.inr ⟨by simp, rfl, rfl⟩)
    | some fault => exact Or.inr (Or.inl ⟨by simp, Or.inl rfl, fault, rfl⟩)
  | cons i rest ih =>
    have hi := hne i List.mem_cons_self
    have hrest := fun j hj => hne j (List.mem_cons_of_mem i hj)
    by_cases hserved : c.ServedBy i.partition i.sort
    · by_cases hord : c.OrderedBy i.sort
      · obtain ⟨a, ha, haccept⟩ := firstIndexQuery_accept rest hi hserved hord fault?
        exact Or.inl ⟨[], i, rest, a, rfl, by simp, hserved, hord, ha, haccept⟩
      · obtain ⟨fault, hstep⟩ := firstIndexQuery_reject rest hi hserved hord fault?
        rw [hstep]
        rcases ih hrest (some fault) with ⟨pre, j, post, a, rfl, hpre, hj⟩ | ⟨hnone, -, herr⟩ | h
        · refine Or.inl ⟨i :: pre, j, post, a, rfl, ?_, hj⟩
          exact List.forall_mem_cons.2 ⟨fun h => hord h.2, hpre⟩
        · refine Or.inr (Or.inl ⟨?_, Or.inr ⟨i, List.mem_cons_self, hserved⟩, herr⟩)
          exact List.forall_mem_cons.2 ⟨fun h => hord h.2, hnone⟩
        · cases h.2.1
    · rw [firstIndexQuery_skip hi hserved]
      rcases ih hrest fault? with ⟨pre, j, post, a, rfl, hpre, hj⟩ | ⟨hnone, hsome, herr⟩ |
        ⟨hnone, hfault, hok⟩
      · refine Or.inl ⟨i :: pre, j, post, a, rfl, ?_, hj⟩
        exact List.forall_mem_cons.2 ⟨fun h => hserved h.1, hpre⟩
      · refine Or.inr (Or.inl ⟨List.forall_mem_cons.2 ⟨fun h => hserved h.1, hnone⟩, ?_, herr⟩)
        rcases hsome with hsome | ⟨j, hj, hjs⟩
        · exact Or.inl hsome
        · exact Or.inr ⟨j, List.mem_cons_of_mem _ hj, hjs⟩
      · exact Or.inr (Or.inr ⟨List.forall_mem_cons.2 ⟨hserved, hnone⟩, hfault, hok⟩)

end AccessPath

end KeyAccess
