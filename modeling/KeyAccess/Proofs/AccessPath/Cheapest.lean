-- The law of the choice: the cheapest path that serves the criteria is chosen, and only where none
-- serves them is there an error. A load comes before a query on the primary key, that one before a
-- query on an index, and a scan is the last resort. Among indexes the best one that serves is
-- taken.
import Mathlib
import KeyAccess.Proofs.AccessPath.Chosen

namespace KeyAccess

namespace Criteria

variable {c : Criteria}

/-! ## What is expected -/

/-- The primary key has a sort key and serves all conditions. -/
def PrimaryServed (c : Criteria) : Prop :=
  ∃ s, c.schema.sortKey = some s ∧ c.ServedBy c.schema.partitionKey (some s)

/-- A declared index serves all conditions. -/
def LegalIndex (c : Criteria) (i : IndexDefinition) : Prop :=
  i ∈ c.schema.indexes ∧ c.ServedBy i.partition i.sort

/-- A declared index serves all conditions and the order, and stands before each other one that
does. -/
structure BestIndex (c : Criteria) (i : IndexDefinition) : Prop where
  legal : c.LegalIndex i
  ordered : c.OrderedBy i.sort
  first : ∀ j, c.LegalIndex j → c.OrderedBy j.sort → c.Prefers i j

/-- At most one index has exactly the conditioned properties as its members. -/
def Unambiguous (c : Criteria) : Prop :=
  ∀ i ∈ c.schema.indexes, ∀ j ∈ c.schema.indexes, c.MatchedBy i → c.MatchedBy j → i = j

/-- What is expected where the primary key does not serve: a query on the best index, else a scan if
scans are allowed and there is no order. -/
structure IndexOrScan (c : Criteria) (outcome : Except QueryError AccessPath) : Prop where
  ambiguous : ¬ c.Unambiguous → ∃ names properties,
    outcome = .error (.ambiguousIndex names properties)
  best : c.Unambiguous → (∃ i, c.LegalIndex i ∧ c.OrderedBy i.sort) → ∃ i a, c.BestIndex i ∧
    outcome = .ok (.indexQuery i.name a (c.rangeOn i.sort) c.sort.head?)
  unordered : c.Unambiguous → (∃ i, c.LegalIndex i) →
    (∀ i, c.LegalIndex i → ¬ c.OrderedBy i.sort) →
    ∃ fault, outcome = .error (.unsupportedOperation fault)
  scan : c.Unambiguous → (∀ i, ¬ c.LegalIndex i) → c.sort = [] → c.config.scan.enabled = true →
    outcome = .ok (.scan c.allConditions)
  no_scan : c.Unambiguous → (∀ i, ¬ c.LegalIndex i) →
    ¬ (c.sort = [] ∧ c.config.scan.enabled = true) →
    ∃ fault, outcome = .error (.unsupportedOperation fault)

/-- What is expected of the choice. -/
structure CheapestFirst (c : Criteria) (outcome : Except QueryError AccessPath) : Prop where
  load : (∃ v w, outcome = .ok (.directLoad v w)) ↔ c.FullyPinned
  primary : ¬ c.FullyPinned → c.PrimaryServed →
    (∀ d ∈ c.sort, c.schema.sortKey = some d.property) →
    ∃ v range, outcome = .ok (.primaryQuery v range c.sort.head?)
  unordered_primary : ¬ c.FullyPinned → c.PrimaryServed →
    (∃ d ∈ c.sort, c.schema.sortKey ≠ some d.property) →
    ∃ fault, outcome = .error (.unsupportedOperation fault)
  otherwise : ¬ c.FullyPinned → ¬ c.PrimaryServed → c.IndexOrScan outcome

/-! ## Candidates -/

theorem PinnedOn.ne_nil {p : String} (h : c.PinnedOn p) : c.allConditions ≠ [] := by
  obtain ⟨a, ha, -⟩ := h
  have hmem : a ∈ c.conditionsOn p := by simp [ha]
  exact List.ne_nil_of_mem (mem_conditionsOn.1 hmem).1

theorem mem_candidates_of_legal {l : List IndexDefinition} {i : IndexDefinition}
    (hl : indexCandidates c.schema.indexes c.conditionsByProperty.keys = .ok l)
    (hi : c.LegalIndex i) : i ∈ l := by
  obtain ⟨hdecl, hserved⟩ := hi
  exact (AccessPath.mem_indexCandidates hl i).2 ⟨hdecl, hserved.pinned.ne_nil, hserved.nothing_else⟩

theorem legal_of_mem_candidates {l : List IndexDefinition} {i : IndexDefinition}
    (hl : indexCandidates c.schema.indexes c.conditionsByProperty.keys = .ok l) (hi : i ∈ l)
    (hserved : c.ServedBy i.partition i.sort) : c.LegalIndex i :=
  ⟨((AccessPath.mem_indexCandidates hl i).1 hi).1, hserved⟩

/-- The first candidate that serves is the best index: all before it do not serve, and it stands
before all after it. -/
theorem best_of_first {pre post : List IndexDefinition} {i : IndexDefinition}
    (hl : indexCandidates c.schema.indexes c.conditionsByProperty.keys = .ok (pre ++ i :: post))
    (hpre : ∀ j ∈ pre, ¬ (c.ServedBy j.partition j.sort ∧ c.OrderedBy j.sort))
    (hserved : c.ServedBy i.partition i.sort) (hord : c.OrderedBy i.sort) : c.BestIndex i := by
  refine ⟨legal_of_mem_candidates hl (by simp) hserved, hord, fun j hj hjord => ?_⟩
  have hpair := AccessPath.pairwise_indexCandidates hl
  rw [List.pairwise_append, List.pairwise_cons] at hpair
  rcases List.mem_append.1 (mem_candidates_of_legal hl hj) with hin | hin
  · exact absurd ⟨hj.2, hjord⟩ (hpre j hin)
  · rcases List.mem_cons.1 hin with rfl | hin
    · by_cases hm : c.MatchedBy j
      · exact Or.inl hm
      · exact Or.inr ⟨hm, String.le_refl _⟩
    · exact hpair.2.1.1 j hin

end Criteria

namespace AccessPath

variable {c : Criteria}

/-! ## Step by step -/

theorem select_of_fullyPinned (h : c.Sound) (hs : c.schema.Sound) (hone : c.sort.length ≤ 1)
    (hpin : c.FullyPinned) : ∃ v w, select c.schema c = .ok (.directLoad v w) := by
  obtain ⟨v, w, hload, -⟩ := directLoad?_of_fullyPinned h hs hpin
  refine ⟨v, w, ?_⟩
  unfold select
  rw [if_neg (Nat.not_lt.2 hone), hload]
  rfl

theorem select_of_primaryQuery? (hone : c.sort.length ≤ 1) (hload : directLoad? c.schema c = none)
    {r : Except QueryError AccessPath} (hprimary : primaryQuery? c.schema c = r.map some) :
    select c.schema c = r := by
  unfold select
  rw [if_neg (Nat.not_lt.2 hone), hload, hprimary]
  cases r <;> rfl

theorem select_of_indexQuery? (hone : c.sort.length ≤ 1) (hload : directLoad? c.schema c = none)
    (hprimary : primaryQuery? c.schema c = .ok none) {r : Except QueryError AccessPath}
    (hindex : indexQuery? c.schema c = r.map some) : select c.schema c = r := by
  unfold select
  rw [if_neg (Nat.not_lt.2 hone), hload, hprimary]
  dsimp only [bind, Except.bind]
  rw [hindex]
  cases r <;> rfl

theorem select_of_scanOf (hone : c.sort.length ≤ 1) (hload : directLoad? c.schema c = none)
    (hprimary : primaryQuery? c.schema c = .ok none)
    (hindex : indexQuery? c.schema c = .ok none) : select c.schema c = scanOf c.schema c := by
  unfold select
  rw [if_neg (Nat.not_lt.2 hone), hload, hprimary]
  dsimp only [bind, Except.bind]
  rw [hindex]

/-- A list of at most one directive is given by its head. -/
theorem eq_of_mem_sort (hone : c.sort.length ≤ 1) {d : SortOrder} (hd : d ∈ c.sort) :
    c.sort.head? = some d := by
  match hsort : c.sort, hone, hd with
  | [e], _, hd => rw [List.mem_singleton.1 hd]; rfl

theorem select_primary (h : c.Sound) (hs : c.schema.Sound) (hone : c.sort.length ≤ 1)
    (hpin : ¬ c.FullyPinned) {s : String} (hsort : c.schema.sortKey = some s)
    (hserved : c.ServedBy c.schema.partitionKey (some s)) :
    ((∀ d ∈ c.sort, d.property = s) →
      ∃ v range, select c.schema c = .ok (.primaryQuery v range c.sort.head?)) ∧
    ((∃ d ∈ c.sort, d.property ≠ s) →
      ∃ fault, select c.schema c = .error (.unsupportedOperation fault)) := by
  obtain ⟨v, -, hquery⟩ := primaryQuery?_of_served h hs hsort hserved
  have hload := directLoad?_eq_none h hs hpin
  constructor
  · intro hord
    refine ⟨v, c.sortCondition, select_of_primaryQuery? hone hload ?_⟩
    rw [hquery]
    cases hd : c.sort.head? with
    | none => rfl
    | some d =>
      dsimp only
      rw [if_pos (hord d (List.mem_of_head? hd))]
      rfl
  · rintro ⟨d, hd, hne⟩
    refine ⟨.sortNotBy s, select_of_primaryQuery? hone hload ?_⟩
    rw [hquery, eq_of_mem_sort hone hd]
    dsimp only
    rw [if_neg hne]
    rfl

/-- Without two exact matches, the indexes are tried in the order of the candidates. -/
theorem indexQuery?_of_unambiguous (hs : c.schema.Sound) (hun : c.Unambiguous) :
    ∃ l, indexCandidates c.schema.indexes c.conditionsByProperty.keys = .ok l ∧
      indexQuery? c.schema c = firstIndexQuery c.sort c.conditionsByProperty none l := by
  have hnodup : c.schema.indexes.Nodup := List.Nodup.of_map _ hs.names_differ
  obtain ⟨l, hl⟩ := indexCandidates_isOk hnodup hun
  refine ⟨l, hl, ?_⟩
  unfold indexQuery?
  dsimp only
  rw [hl]
  rfl

theorem indexQuery?_of_ambiguous (hun : ¬ c.Unambiguous) : ∃ names properties,
    indexQuery? c.schema c = .error (.ambiguousIndex names properties) := by
  simp only [Criteria.Unambiguous, not_forall] at hun
  obtain ⟨i, hi, j, hj, him, hjm, hne⟩ := hun
  obtain ⟨names, properties, hl⟩ := indexCandidates_ambiguous hi hj hne him hjm
  refine ⟨names, properties, ?_⟩
  unfold indexQuery?
  dsimp only
  rw [hl]
  rfl

theorem scanOf_allowed (hsort : c.sort = []) (hscan : c.config.scan.enabled = true) :
    scanOf c.schema c = .ok (.scan c.allConditions) := by
  unfold scanOf
  rw [hsort, hscan]
  rfl

theorem scanOf_refused (hscan : ¬ (c.sort = [] ∧ c.config.scan.enabled = true)) :
    ∃ fault, scanOf c.schema c = .error (.unsupportedOperation fault) := by
  unfold scanOf
  cases hsort : c.sort with
  | cons d rest => exact ⟨_, rfl⟩
  | nil =>
    have henabled : c.config.scan.enabled = false := by
      rw [Bool.eq_false_iff]
      exact fun htrue => hscan ⟨hsort, htrue⟩
    rw [henabled]
    exact ⟨_, rfl⟩

theorem select_indexOrScan (h : c.Sound) (hs : c.schema.Sound) (hone : c.sort.length ≤ 1)
    (hpin : ¬ c.FullyPinned) (hnot : ¬ c.PrimaryServed) :
    c.IndexOrScan (select c.schema c) := by
  have hload := directLoad?_eq_none h hs hpin
  have hprimary := primaryQuery?_of_not_served h hs (fun s hsort hserved =>
    hnot ⟨s, hsort, hserved⟩)
  by_cases hun : c.Unambiguous
  · obtain ⟨l, hl, hquery⟩ := indexQuery?_of_unambiguous hs hun
    have hlegal : ∀ i, c.LegalIndex i → i ∈ l := fun i => Criteria.mem_candidates_of_legal hl
    have hmem : ∀ i ∈ l, i ∈ c.schema.indexes := fun i hi => ((mem_indexCandidates hl i).1 hi).1
    have hne : ∀ i ∈ l, i.sort ≠ some i.partition := fun i hi => hs.members_differ i (hmem i hi)
    rcases firstIndexQuery_cases hne none with
      ⟨pre, i, post, a, rfl, hpre, hserved, hord, ha, hfound⟩ | ⟨hnone, hsome, fault, hfault⟩ |
      ⟨hnone, -, hpass⟩
    · -- the index that is found is the best one
      rw [hfound] at hquery
      have hselect : select c.schema c =
          .ok (.indexQuery i.name a (c.rangeOn i.sort) c.sort.head?) :=
        select_of_indexQuery? hone hload hprimary hquery
      have hbest : c.BestIndex i := Criteria.best_of_first hl hpre hserved hord
      refine ⟨fun h => absurd hun h, fun _ _ => ⟨i, a, hbest, hselect⟩, fun _ _ hnone => ?_,
        fun _ hnone => ?_, fun _ hnone => ?_⟩
      · exact absurd hord (hnone i hbest.legal)
      · exact absurd hbest.legal (hnone i)
      · exact absurd hbest.legal (hnone i)
    · -- some indexes serve the conditions, none the order
      rw [hfault] at hquery
      have hselect : select c.schema c = .error (.unsupportedOperation fault) :=
        select_of_indexQuery? hone hload hprimary hquery
      obtain ⟨j, hj, hserved⟩ := hsome.resolve_left (by simp)
      have hjlegal : c.LegalIndex j := Criteria.legal_of_mem_candidates hl hj hserved
      refine ⟨fun h => absurd hun h, ?_, fun _ _ _ => ⟨fault, hselect⟩, fun _ hnone => ?_,
        fun _ hnone => ?_⟩
      · rintro - ⟨i, hi, hord⟩
        exact absurd ⟨hi.2, hord⟩ (hnone i (hlegal i hi))
      · exact absurd hjlegal (hnone j)
      · exact absurd hjlegal (hnone j)
    · -- no index serves the conditions
      rw [hpass] at hquery
      rw [select_of_scanOf hone hload hprimary hquery]
      have hnever : ∀ i, ¬ c.LegalIndex i := fun i hi => hnone i (hlegal i hi) hi.2
      refine ⟨fun h => absurd hun h, ?_, ?_, fun _ _ hsort hscan => ?_, fun _ _ hscan => ?_⟩
      · rintro - ⟨i, hi, -⟩
        exact absurd hi (hnever i)
      · rintro - ⟨i, hi⟩
        exact absurd hi (hnever i)
      · exact scanOf_allowed hsort hscan
      · exact scanOf_refused hscan
  · obtain ⟨names, properties, hquery⟩ := indexQuery?_of_ambiguous hun
    have hselect : select c.schema c = .error (.ambiguousIndex names properties) :=
      select_of_indexQuery? hone hload hprimary hquery
    exact ⟨fun _ => ⟨names, properties, hselect⟩, fun h => absurd h hun, fun h => absurd h hun,
      fun h => absurd h hun, fun h => absurd h hun⟩

theorem select_cheapestFirst (h : c.Sound) (hs : c.schema.Sound) (hone : c.sort.length ≤ 1) :
    c.CheapestFirst (select c.schema c) := by
  refine ⟨⟨?_, select_of_fullyPinned h hs hone⟩, ?_, ?_, select_indexOrScan h hs hone⟩
  · rintro ⟨v, w, hload⟩
    cases select_chosen h hs hload with
    | load hpin _ => exact hpin
  · rintro hpin ⟨s, hsort, hserved⟩ hord
    refine (select_primary h hs hone hpin hsort hserved).1 (fun d hd => ?_)
    have hkey := hord d hd
    rw [hsort] at hkey
    exact (Option.some.inj hkey).symm
  · rintro hpin ⟨s, hsort, hserved⟩ ⟨d, hd, hne⟩
    refine (select_primary h hs hone hpin hsort hserved).2 ⟨d, hd, fun he => ?_⟩
    rw [hsort, he] at hne
    exact hne rfl

end AccessPath

/-! ## The law -/

namespace Criteria

/-- For criteria that were reached over a schema that was built, the choice is the cheapest path. -/
theorem the_cheapest_serving_path_is_chosen {α : Type} {schema : KeySchema} {c : Criteria}
    (hbuilt : schema.Built) (hreach : Reachable schema c) (hone : c.sort.length ≤ 1) :
    c.CheapestFirst (c.accessPath : Traced α QueryError AccessPath).outcome := by
  have hs := hreach.schema_sound hbuilt
  rw [AccessPath.accessPath_outcome]
  exact AccessPath.select_cheapestFirst hreach.sound hs hone

/-- The notes on a topic, the latest day first. -/
def latestOnTopic : List Call := [.equality "topic" (.string "x"), .sort ⟨"day", false⟩]

def latestOnTopicPath : AccessPath :=
  .indexQuery "topicDays" ⟨"topic", "topic", ⟨.eq, [.string "x"]⟩⟩ none (some ⟨"day", false⟩)

/-- The index that matches exactly has no sort member, so the other one is the best. -/
theorem an_exact_match_without_order_is_passed_over :
    ∃ c, (ofEntity ⟨noteSchema, {}⟩).run latestOnTopic = .ok c ∧ c.sort.length ≤ 1 ∧
      (c.accessPath : Traced Unit QueryError AccessPath).outcome = .ok latestOnTopicPath ∧
      c.CheapestFirst (c.accessPath : Traced Unit QueryError AccessPath).outcome := by
  have hok : ((ofEntity ⟨noteSchema, {}⟩).run latestOnTopic >>= fun c =>
      Except.ok (decide (c.sort.length ≤ 1),
        (c.accessPath : Traced Unit QueryError AccessPath).outcome)) =
      .ok (true, .ok latestOnTopicPath) := by
    decide +kernel
  obtain ⟨c, hrun, hpair⟩ := bind_eq_ok_iff.1 hok
  simp only [Except.ok.injEq, Prod.mk.injEq, decide_eq_true_eq] at hpair
  exact ⟨c, hrun, hpair.1, hpair.2,
    the_cheapest_serving_path_is_chosen noteSchema_built ⟨{}, latestOnTopic, hrun⟩ hpair.1⟩

end Criteria

end KeyAccess
