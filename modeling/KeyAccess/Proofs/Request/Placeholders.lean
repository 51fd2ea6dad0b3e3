-- The law of placeholders: a request binds exactly the placeholders that stand in its expressions,
-- each in the map of its sigil. A term mentions its own slots and nothing else, the text between
-- terms and around a raw filter neither joins placeholders nor cuts them, and every slot is one
-- that some term mentions.
import Mathlib
import KeyAccess.Proofs.Request.Conjunction
import KeyAccess.Proofs.Request.Emitted

namespace KeyAccess

open Text (IsPlaceholder Parts Silent placeholders)

/-! ## The pure model -/

namespace StoreRequest

/-- The expressions that refer to placeholders. -/
def expressions : StoreRequest → List String
  | load _ => []
  | query r => r.keyConditionExpression :: r.filterExpression.toList
  | scan r => r.filterExpression.toList

def attributeNames : StoreRequest → SortedMap String
  | load _ => ∅
  | query r => r.attributeNames
  | scan r => r.attributeNames

def attributeValues : StoreRequest → SortedMap AttributeValue
  | load _ => ∅
  | query r => r.attributeValues
  | scan r => r.attributeValues

/-- A placeholder stands in one of the expressions. -/
def Mentions (r : StoreRequest) (p : String) : Prop :=
  ∃ e ∈ r.expressions, Text.StandsIn p.toList e.toList

/-- Nothing is mentioned that is not bound, and nothing is bound that is not mentioned. -/
structure Closed (r : StoreRequest) : Prop where
  bound : ∀ p, r.Mentions p ↔ p ∈ r.attributeNames.keys ∨ p ∈ r.attributeValues.keys
  names : ∀ p, p ∈ r.attributeNames.keys ↔ r.Mentions p ∧ startsWith p "#" = true
  values : ∀ p, p ∈ r.attributeValues.keys ↔ r.Mentions p ∧ startsWith p ":" = true

theorem mentions_iff (r : StoreRequest) (p : String) :
    r.Mentions p ↔ p ∈ r.expressions.flatMap placeholders := by
  unfold Mentions
  rw [List.mem_flatMap]
  simp only [Text.mem_placeholders_iff]

theorem closed_of_binds {r : StoreRequest}
    (h : Binds r.attributeNames r.attributeValues (r.expressions.flatMap placeholders)) :
    r.Closed := by
  have hnames : ∀ p, p ∈ r.attributeNames.keys ↔ r.Mentions p ∧ startsWith p "#" = true := by
    intro p
    rw [h.names p, mentions_iff]
  have hvalues : ∀ p, p ∈ r.attributeValues.keys ↔ r.Mentions p ∧ startsWith p ":" = true := by
    intro p
    rw [h.values p, mentions_iff]
  refine ⟨fun p => ?_, hnames, hvalues⟩
  rw [hnames, hvalues, ← and_or_left, iff_self_and]
  rintro ⟨e, -, hstands⟩
  exact startsWith_of_mem_placeholders ((Text.mem_placeholders_iff e p).2 hstands)

end StoreRequest

/-! ## What a term mentions -/

theorem isPlaceholder_numbered {start : String} (h : IsPlaceholder start.toList) (slot : Nat) :
    IsPlaceholder (start ++ toString slot).toList := by
  obtain ⟨sigil, word, hstart, hsigil, hne, hword⟩ := h
  refine ⟨sigil, word ++ (toString slot).toList, ?_, hsigil, ?_, fun c hc => ?_⟩
  · rw [String.toList_append, hstart, List.cons_append]
  · exact List.append_ne_nil_of_left_ne_nil hne _
  · rcases List.mem_append.1 hc with hc | hc
    · exact hword c hc
    · exact Text.isWordChar_toString hc

theorem isPlaceholder_name (slot : Nat) : IsPlaceholder (namePlaceholder slot).toList := by
  refine isPlaceholder_numbered ⟨'#', ['k', 'q', '_', 'n'], rfl, rfl, List.cons_ne_nil _ _, ?_⟩ slot
  exact List.all_eq_true.1 rfl

theorem isPlaceholder_value (slot : Nat) : IsPlaceholder (valuePlaceholder slot).toList := by
  refine isPlaceholder_numbered ⟨':', ['k', 'q', '_', 'v'], rfl, rfl, List.cons_ne_nil _ _, ?_⟩ slot
  exact List.all_eq_true.1 rfl

theorem startsWith_namePlaceholder (slot : Nat) : startsWith (namePlaceholder slot) "#" = true := by
  obtain ⟨word, hword⟩ := head_namePlaceholder slot
  exact startsWith_of_head rfl hword

theorem startsWith_valuePlaceholder (slot : Nat) :
    startsWith (valuePlaceholder slot) ":" = true := by
  obtain ⟨word, hword⟩ := head_valuePlaceholder slot
  exact startsWith_of_head rfl hword

theorem placeholders_name (slot : Nat) :
    placeholders (namePlaceholder slot) = [namePlaceholder slot] :=
  Text.placeholders_placeholder (isPlaceholder_name slot)

theorem placeholders_values {between : String} (h : Parts between) (t : Term) :
    placeholders (String.intercalate between t.valueTexts) = t.valueTexts := by
  rw [h.placeholders_intercalate]
  unfold Term.valueTexts
  rw [List.flatMap_map]
  simp only [Text.placeholders_placeholder (isPlaceholder_value _)]
  exact List.map_eq_flatMap.symm

theorem parts_and : Parts " AND " := ⟨fun _ => Text.parted_cons rfl _, fun _ => rfl⟩

theorem parts_comma : Parts ", " := ⟨fun _ => Text.parted_cons rfl _, fun _ => rfl⟩

theorem parts_closing : Parts ")" := ⟨fun _ => Text.parted_cons rfl _, fun _ => rfl⟩

/-- A name, fixed text and values. -/
theorem placeholders_infix {s between : String} (hs : Parts s) (hbetween : Parts between)
    (t : Term) :
    placeholders (namePlaceholder t.attributeSlot ++ s ++
        String.intercalate between t.valueTexts) =
      namePlaceholder t.attributeSlot :: t.valueTexts := by
  rw [hs.placeholders_append, placeholders_name, placeholders_values hbetween]
  rfl

/-- A function with a name and values. -/
theorem placeholders_call {s : String} (hs : Silent s) (t : Term) :
    placeholders (s ++ namePlaceholder t.attributeSlot ++ ", " ++
      String.intercalate ", " t.valueTexts ++ ")") =
        namePlaceholder t.attributeSlot :: t.valueTexts := by
  rw [parts_closing.placeholders_end, parts_comma.placeholders_append, hs.placeholders_append,
    placeholders_name, placeholders_values parts_comma]
  rfl

/-- A term mentions the slots of its attribute and of its values, in their order. -/
theorem placeholders_text {t : Term} (hfit : t.Fits) :
    placeholders t.text = namePlaceholder t.attributeSlot :: t.valueTexts := by
  cases hop : t.operator <;> simp only [Term.text, hop, toString]
  case eq | ne | lt | le | gt | ge =>
    refine placeholders_infix ?_ parts_comma t
    exact ⟨fun _ => Text.parted_cons rfl _, fun _ => rfl⟩
  case between =>
    refine placeholders_infix ?_ parts_and t
    exact ⟨fun _ => Text.parted_cons rfl _, fun _ => rfl⟩
  case isIn =>
    rw [parts_closing.placeholders_end]
    refine placeholders_infix ?_ parts_comma t
    exact ⟨fun _ => Text.parted_cons rfl _, fun _ => rfl⟩
  case beginsWith | contains | notContains => exact placeholders_call (fun _ => rfl) t
  case null | notNull =>
    have hcount : t.valueCount = 0 := hfit.no_value (by rw [hop]; rfl)
    rw [parts_closing.placeholders_end, Silent.placeholders_append (fun _ => rfl),
      placeholders_name, Term.valueTexts, hcount]
    rfl

/-! ## Conjunctions -/

/-- The bindings of a conjunction are those of the placeholders that its text mentions. -/
theorem conjunction_binds {conditions : List AttributeCondition} {slots : Slots}
    {text : Option String} (hfit : ∀ a ∈ conditions, a.condition.Fits)
    (h : conjunction {} conditions = (text, slots)) :
    Binds slots.names slots.bindings (placeholders (text.getD "")) := by
  obtain ⟨terms, hterms, hholds, -, htext⟩ := Reader.conjunction_written hfit h
  obtain ⟨hattributes, hvalues⟩ := Slots.terms_used hterms
  have hfits : ∀ t ∈ terms, t.Fits := ((List.forall₂_and_left _ _).1 hholds).1
  have hmem : ∀ p, p ∈ placeholders (text.getD "") ↔
      ∃ t ∈ terms, p = namePlaceholder t.attributeSlot ∨ p ∈ t.valueTexts := by
    intro p
    rw [htext, parts_and.placeholders_intercalate, List.flatMap_map, List.mem_flatMap]
    refine exists_congr (fun t => and_congr_right (fun ht => ?_))
    rw [placeholders_text (hfits t ht), List.mem_cons]
  constructor
  · intro p
    unfold Slots.names
    rw [SortedMap.mem_keys_numbered, hmem]
    constructor
    · rintro ⟨slot, hslot, rfl⟩
      obtain ⟨t, ht, rfl⟩ := ((hattributes slot).1 hslot).resolve_left (Nat.not_lt_zero _)
      exact ⟨⟨t, ht, Or.inl rfl⟩, startsWith_namePlaceholder _⟩
    · rintro ⟨⟨t, ht, rfl | hp⟩, hsigil⟩
      · exact ⟨t.attributeSlot, (hattributes _).2 (Or.inr ⟨t, ht, rfl⟩), rfl⟩
      -- the placeholder of a value is none of a name
      · obtain ⟨slot, -, rfl⟩ := List.mem_map.1 hp
        have hvalue := startsWith_valuePlaceholder slot
        rw [startsWith_value_of_name hsigil] at hvalue
        cases hvalue
  · intro p
    unfold Slots.bindings
    rw [SortedMap.mem_keys_numbered, hmem]
    constructor
    · rintro ⟨slot, hslot, rfl⟩
      obtain ⟨t, ht, hin⟩ := ((hvalues slot).1 hslot).resolve_left (Nat.not_lt_zero _)
      exact ⟨⟨t, ht, Or.inr (List.mem_map_of_mem hin)⟩, startsWith_valuePlaceholder _⟩
    · rintro ⟨⟨t, ht, rfl | hp⟩, hsigil⟩
      · rw [startsWith_value_of_name (startsWith_namePlaceholder _)] at hsigil
        cases hsigil
      · obtain ⟨slot, hin, rfl⟩ := List.mem_map.1 hp
        exact ⟨slot, (hvalues _).2 (Or.inr ⟨t, ht, hin⟩), rfl⟩

/-! ## The caller's filter -/

/-- Bindings next to each other bind what both texts mention. -/
theorem BindsSigil.append {α : Type} {sigil : String} {m added : SortedMap α}
    {mentioned others : List String} (h : BindsSigil sigil m mentioned)
    (h' : BindsSigil sigil added others) :
    BindsSigil sigil (m.insertAll added.entries) (mentioned ++ others) := by
  intro p
  have hadded := h' p
  unfold SortedMap.keys at hadded
  rw [SortedMap.mem_keys_insertAll, hadded, h p, List.mem_append]
  tauto

/-- The filter that is held, if any, binds what its text mentions. -/
def FilterBinds (filter : Option BoundFilter) : Prop :=
  ∀ f, filter = some f → Binds f.names f.values (placeholders f.expression)

theorem bound_binds {slots : Slots} {mentioned : List String} {filter : Option BoundFilter}
    (h : Binds slots.names slots.bindings mentioned) (hfilter : FilterBinds filter) :
    Binds (boundNames slots filter) (boundValues slots filter)
      (mentioned ++ filter.toList.flatMap (fun f => placeholders f.expression)) := by
  cases filter with
  | none =>
    rw [Option.toList_none, List.flatMap_nil, List.append_nil]
    exact h
  | some f =>
    rw [Option.toList_some, List.flatMap_singleton]
    exact ⟨h.names.append (hfilter f rfl).names, h.values.append (hfilter f rfl).values⟩

theorem placeholders_joinedFilter (generated : Option String) (filter : Option BoundFilter) :
    (joinedFilter generated filter).toList.flatMap placeholders =
      generated.toList.flatMap placeholders ++
        filter.toList.flatMap (fun f => placeholders f.expression) := by
  have hopening : Parts " AND (" := ⟨fun _ => Text.parted_cons rfl _, fun _ => rfl⟩
  cases filter with
  | none => simp [joinedFilter]
  | some f =>
    cases generated with
    | none => simp [joinedFilter]
    | some g =>
      simp [joinedFilter, parts_closing.placeholders_end, hopening.placeholders_append]

namespace Criteria

/-- A filter that is held was bound. -/
theorem Reachable.filter_binds {schema : KeySchema} {c : Criteria} (h : Reachable schema c) :
    FilterBinds c.filter := by
  obtain ⟨config, calls, hrun⟩ := h
  refine run_induction (P := fun c => FilterBinds c.filter) ?_ ?_ ?_ hrun
  · intro c c' clause condition hc _ hplace
    rw [(place_frame hplace).filter]
    exact hc
  · intro c c₁ c' hc hkept _ hfilter f hf
    rcases hfilter with hfilter | ⟨raw, b, hb, hfilter⟩
    · exact hc f (by rw [hkept, ← hfilter, hf])
    · rw [hf] at hfilter
      cases hfilter
      exact RawFilter.bind_binds hb
  · intro f hf
    cases hf

end Criteria

/-! ## Requests -/

namespace StoreRequest

theorem closed_load (r : LoadRequest) : (load r).Closed := by
  refine closed_of_binds ⟨fun p => ?_, fun p => ?_⟩ <;>
    simp [expressions, attributeNames, attributeValues, SortedMap.mem_keys_iff]

theorem closed_query {c : Criteria} {key : List AttributeCondition}
    (hfit : ∀ a ∈ key, a.condition.Fits) (hfilter : FilterBinds c.filter) (mode : RequestMode)
    (index : Option (String × String)) (order : Option SortOrder) :
    (query (queryRequest c mode key index order)).Closed := by
  refine closed_of_binds ?_
  unfold queryRequest
  cases hconj : conjunction {} key with
  | mk text slots =>
    have hbinds := bound_binds (conjunction_binds hfit hconj) hfilter
    simpa [expressions, attributeNames, attributeValues, placeholders_joinedFilter] using hbinds

theorem closed_scan {c : Criteria} {filters : List AttributeCondition}
    (hfit : ∀ a ∈ filters, a.condition.Fits) (hfilter : FilterBinds c.filter)
    (mode : RequestMode) : (scan (scanRequest c mode filters)).Closed := by
  refine closed_of_binds ?_
  unfold scanRequest
  cases hconj : conjunction {} filters with
  | mk text slots =>
    have hbinds := bound_binds (conjunction_binds hfit hconj) hfilter
    have htext : placeholders (text.getD "") = text.toList.flatMap placeholders := by
      cases text with
      | none => rfl
      | some g => exact (List.flatMap_singleton _ g).symm
    rw [htext] at hbinds
    simpa [expressions, attributeNames, attributeValues, placeholders_joinedFilter] using hbinds

end StoreRequest

/-! ## The law -/

namespace Criteria

/-- Every request that is built or counted binds exactly the placeholders that stand in its
expressions. -/
theorem every_request_binds_its_placeholders {α : Type} {schema : KeySchema} {c : Criteria}
    {store : Store α} {r : StoreRequest} (hbuilt : schema.Built) (hreach : Reachable schema c)
    (hemits : c.Emits store r) : r.Closed := by
  obtain ⟨path, mode, table, hpath, rfl⟩ := hemits.of_path
  have hs := hreach.schema_sound hbuilt
  have hperm := (AccessPath.select_chosen hreach.sound hs hpath).conditions_perm hs
  have hfit : ∀ a ∈ path.conditions c.schema, a.condition.Fits :=
    fun a ha => hreach.sound.fits a (hperm.mem_iff.1 ha)
  rcases StoreRequest.ofPath_cases c path mode table with
    ⟨l, hload⟩ | ⟨index, order, hquery⟩ | hscan
  · rw [hload]
    exact StoreRequest.closed_load l
  · rw [hquery]
    exact StoreRequest.closed_query hfit hreach.filter_binds mode index order
  · rw [hscan]
    exact StoreRequest.closed_scan hfit hreach.filter_binds mode

/-- Marked notes with one of two titles and with a topic. -/
def markedNotes : List Call :=
  [.membership "title" [.string "a", .string "b"], .nullCheck "topic" false,
    .range "title" .ne (.string "c"),
    .filter { expression := "#m=:m"
              names := SortedMap.ofList [("#m", "mark")]
              values := SortedMap.ofList [(":m", .string "z")] }]

/-- The title has one slot, and the text of the filter stands in parentheses. -/
def markedNotesRequest : ScanRequest :=
  { filterExpression := some ("#kq_n0 IN (:kq_v0, :kq_v1) AND #kq_n0 <> :kq_v2 AND " ++
      "attribute_exists(#kq_n1) AND (#m=:m)")
    attributeNames := SortedMap.ofList [("#kq_n0", "title"), ("#kq_n1", "topic"), ("#m", "mark")]
    attributeValues := SortedMap.ofList [(":kq_v0", .string "a"), (":kq_v1", .string "b"),
      (":kq_v2", .string "c"), (":m", .string "z")]
    limit := none
    consistentRead := none
    projectionExpression := none
    select := .allAttributes }

theorem marked_notes_bind_their_placeholders :
    ∃ c, (ofEntity ⟨noteSchema, {}⟩).run markedNotes = .ok c ∧
      c.Emits emptyStore (.scan markedNotesRequest) ∧
      (StoreRequest.scan markedNotesRequest).Closed := by
  have hok : ((ofEntity ⟨noteSchema, {}⟩).run markedNotes >>= fun c =>
      (c.buildQuery emptyStore).outcome >>= fun q => Except.ok q.request) =
      .ok (.scan markedNotesRequest) := by
    decide +kernel
  obtain ⟨c, hrun, hok⟩ := bind_eq_ok_iff.1 hok
  obtain ⟨q, hq, hok⟩ := bind_eq_ok_iff.1 hok
  have hemits : c.Emits emptyStore (.scan markedNotesRequest) := Or.inl ⟨q, hq, Except.ok.inj hok⟩
  exact ⟨c, hrun, hemits, every_request_binds_its_placeholders noteSchema_built
    ⟨{}, markedNotes, hrun⟩ hemits⟩

end Criteria

end KeyAccess
