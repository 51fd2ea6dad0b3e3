-- The law of the filter's group. A scan puts the text of a raw filter in parentheses behind the
-- generated conditions. The text keeps to this group exactly if its own parentheses are paired, and
-- whether a filter is accepted depends on its placeholders and not on its parentheses.
import Mathlib
import KeyAccess.Proofs.Request.Placeholders
import KeyAccess.Proofs.Text.Parentheses

namespace KeyAccess

open Text (IsPlaceholder Opens Paired paired_iff paired_of_plain placeholders)

/-! ## Generated text is paired -/

theorem paired_of_isPlaceholder {p : String} (h : IsPlaceholder p.toList) : Paired p := by
  obtain ⟨sigil, word, hp, hsigil, -, hword⟩ := h
  apply paired_of_plain
  intro c hc
  rw [hp] at hc
  rcases List.mem_cons.1 hc with rfl | hc
  · rcases Text.isSigil_iff.1 hsigil with rfl | rfl <;> decide
  · have hwordChar := hword c hc
    constructor
    · rintro rfl
      cases hwordChar
    · rintro rfl
      cases hwordChar

theorem paired_name (slot : Nat) : Paired (namePlaceholder slot) :=
  paired_of_isPlaceholder (isPlaceholder_name slot)

theorem paired_values {between : String} (h : Paired between) (t : Term) :
    Paired (String.intercalate between t.valueTexts) := by
  apply h.intercalate
  intro text htext
  obtain ⟨slot, -, rfl⟩ := List.mem_map.1 htext
  exact paired_of_isPlaceholder (isPlaceholder_value slot)

/-- A function of a name and values. -/
theorem paired_call {s : String} (h : Opens s) (t : Term) :
    Paired (s ++ namePlaceholder t.attributeSlot ++ ", " ++
      String.intercalate ", " t.valueTexts ++ ")") :=
  (((h.append (paired_name _)).append (by decide)).append (paired_values (by decide) t)).close

theorem paired_text (t : Term) : Paired t.text := by
  cases hop : t.operator <;> simp only [Term.text, hop, toString]
  case eq | ne | lt | le | gt | ge | between =>
    exact ((paired_name _).append (by decide)).append (paired_values (by decide) t)
  case isIn =>
    have hopens : Opens " IN (" := fun _ => rfl
    exact (((paired_name _).opens hopens).append (paired_values (by decide) t)).close
  case beginsWith | contains | notContains => exact paired_call (fun _ => rfl) t
  case null | notNull =>
    refine (Opens.append ?_ (paired_name _)).close
    exact fun _ => rfl

theorem paired_conjunction {conditions : List AttributeCondition} {s : Slots} {g : String}
    (h : (conjunction s conditions).1 = some g) : Paired g := by
  unfold conjunction at h
  cases hterms : s.terms conditions with
  | mk terms slots =>
    rw [hterms] at h
    dsimp only at h
    split at h
    · cases h
    · cases h
      refine Paired.intercalate (by decide) fun text htext => ?_
      obtain ⟨t, -, rfl⟩ := List.mem_map.1 htext
      exact paired_text t

theorem exists_conjunction {conditions : List AttributeCondition} (hsome : conditions ≠ [])
    (s : Slots) : ∃ g, (conjunction s conditions).1 = some g := by
  obtain ⟨a, rest, rfl⟩ := List.exists_cons_of_ne_nil hsome
  unfold conjunction
  cases hterms : s.terms (a :: rest) with
  | mk terms slots =>
    obtain ⟨t, _, others, -, -, rfl⟩ := Slots.terms_cons hterms
    exact ⟨_, rfl⟩

/-! ## The group -/

/-- A text in a group behind another one. -/
def grouped (g text : String) : String := g ++ " AND (" ++ text ++ ")"

/-- The group ends with the last character, or nothing of the text stands outside of it, exactly if
the text is paired. -/
theorem keeps_to_group_iff {g text : String} (hg : Paired g) :
    (Text.behindClosing 0 (text ++ ")").toList = some [] ↔ Paired text) ∧
      (Text.outside 0 (grouped g text).toList =
        Text.outside 0 g.toList ++ " AND ()".toList ↔ Paired text) := by
  constructor
  · rw [String.toList_append, paired_iff]
    exact Text.behindClosing_eq_nil_iff
  · have hopening (rest : List Char) : Text.outside 0 (" AND (".toList ++ rest) =
        " AND (".toList ++ Text.outside 1 rest := rfl
    have hclosing : " AND ()".toList = " AND (".toList ++ [')'] := rfl
    unfold grouped
    rw [String.toList_append, String.toList_append, String.toList_append, List.append_assoc,
      List.append_assoc, Text.outside_append (paired_iff.1 hg), hopening, hclosing,
      List.append_cancel_left_eq, List.append_cancel_left_eq, paired_iff]
    exact Text.outside_eq_closing_iff

/-! ## What is accepted -/

namespace RawFilter

variable {f : RawFilter} {ctx : EncodingContext} {b : BoundFilter} {text : String}

/-- A filter with the same bindings and another text that mentions the same placeholders. -/
theorem bind_withText (h : f.bind ctx = .ok b) (hblank : Text.allBlank text = false)
    (hsame : ∀ p, p ∈ placeholders text ↔ p ∈ placeholders f.expression) :
    ({ f with expression := text }).bind ctx = .ok { b with expression := text } := by
  have hf := consistent_of_bind h
  have htext : ({ f with expression := text } : RawFilter).Consistent := by
    refine ⟨hblank, fun p hp => hf.unreserved p ((hsame p).1 hp), fun p => ?_, fun p => ?_⟩
    · rw [hsame]
      exact hf.names p
    · rw [hsame]
      exact hf.values p
  rw [bind_of_consistent hf] at h
  obtain ⟨encoded, hencoded, h⟩ := bind_eq_ok_iff.1 h
  cases h
  rw [bind_of_consistent htext]
  exact bind_eq_ok_iff.2 ⟨encoded, hencoded, rfl⟩

end RawFilter

namespace Criteria

variable {α : Type} {c c' : Criteria} (store : Store α)

theorem emits_scan {filters : List AttributeCondition}
    (hpath : AccessPath.select c.schema c = .ok (.scan filters)) :
    (∃ q, (c.buildQuery store).outcome = .ok q) ∧
      ∀ r, c.Emits store r → ∃ mode, r = .scan (scanRequest c mode filters) := by
  constructor
  · rw [buildQuery_outcome, hpath]
    exact ⟨_, rfl⟩
  · intro r hemits
    obtain ⟨path, mode, table, hother, rfl⟩ := hemits.of_path
    rw [hpath] at hother
    cases hother
    exact ⟨mode, rfl⟩

/-! ## The law -/

/-- Behind the conditions of a scan, the text of a filter stands in a group of its own. The group
ends with the last character, and nothing of the text is outside of it, exactly if the parentheses
of the text are paired. Nothing asks for that: any text with the same placeholders is accepted
too. -/
theorem a_filter_keeps_to_its_group_exactly_if_it_is_paired {f : RawFilter}
    {filters : List AttributeCondition}
    (hpath : (c.accessPath : Traced α QueryError AccessPath).outcome = .ok (.scan filters))
    (hsome : filters ≠ []) (hfilter : c.withFilter f = .ok c') :
    (∃ g, Paired g ∧ (∃ q, (c'.buildQuery store).outcome = .ok q) ∧
      (∀ r, c'.Emits store r → ∃ scan : ScanRequest, r = .scan scan ∧
        scan.filterExpression = some (grouped g f.expression)) ∧
      (Text.behindClosing 0 (f.expression ++ ")").toList = some [] ↔ Paired f.expression) ∧
      (Text.outside 0 (grouped g f.expression).toList =
        Text.outside 0 g.toList ++ " AND ()".toList ↔ Paired f.expression)) ∧
    ∀ text, Text.allBlank text = false →
      (∀ p, p ∈ placeholders text ↔ p ∈ placeholders f.expression) →
      ∃ c'', c.withFilter { f with expression := text } = .ok c'' := by
  obtain ⟨hfree, b, hbind, rfl⟩ := withFilter_ok hfilter
  rw [AccessPath.accessPath_outcome] at hpath
  obtain ⟨g, hg⟩ := exists_conjunction hsome {}
  have hpaired := paired_conjunction hg
  obtain ⟨hbuilds, hscans⟩ := emits_scan store (c := { c with filter := some b }) hpath
  refine ⟨⟨g, hpaired, hbuilds, fun r hemits => ?_, keeps_to_group_iff hpaired⟩,
    fun text hblank hsame => ?_⟩
  · obtain ⟨mode, rfl⟩ := hscans r hemits
    refine ⟨_, rfl, ?_⟩
    unfold scanRequest
    dsimp only
    rw [hg, ← (RawFilter.saidBy_of_bind hbind).expression]
    rfl
  · exact ⟨_, withFilter_of_bind hfree (RawFilter.bind_withText hbind hblank hsame)⟩

/-- The notes with one title. -/
def mine : List Call := [.equality "title" (.string "mine")]

def mineConditions : List AttributeCondition := [⟨"title", "title", ⟨.eq, [.string "mine"]⟩⟩]

/-- A text about two topics. -/
def onTopics (text : String) : RawFilter :=
  { expression := text
    names := SortedMap.ofList [("#t", "topic")]
    values := SortedMap.ofList [(":a", .string "a"), (":b", .string "b")] }

/-- The path of the notes with one title, and the filter of the scan with a text about topics. -/
def mineOnTopics (text : String) : Except QueryError (AccessPath × Option String) := do
  let c ← (ofEntity ⟨noteSchema, {}⟩).run mine
  let path ← (c.accessPath : Traced Unit QueryError AccessPath).outcome
  let c' ← c.withFilter (onTopics text)
  let q ← (c'.buildQuery emptyStore).outcome
  return (path, q.request.asScan.bind ScanRequest.filterExpression)

theorem scan_of_mineOnTopics (text written : String)
    (h : mineOnTopics text = .ok (.scan mineConditions, some written)) :
    ∃ c c' scan, (ofEntity ⟨noteSchema, {}⟩).run mine = .ok c ∧
      (c.accessPath : Traced Unit QueryError AccessPath).outcome = .ok (.scan mineConditions) ∧
      c.withFilter (onTopics text) = .ok c' ∧ c'.Emits emptyStore (.scan scan) ∧
      scan.filterExpression = some written := by
  obtain ⟨c, hrun, h⟩ := bind_eq_ok_iff.1 h
  obtain ⟨path, hpath, h⟩ := bind_eq_ok_iff.1 h
  obtain ⟨c', hfilter, h⟩ := bind_eq_ok_iff.1 h
  obtain ⟨q, hq, h⟩ := bind_eq_ok_iff.1 h
  obtain ⟨rfl, hwritten⟩ := Prod.mk.inj (Except.ok.inj h)
  obtain ⟨scan, hscan, hwritten⟩ := Option.bind_eq_some_iff.1 hwritten
  have hrequest : q.request = .scan scan := by
    cases hr : q.request with
    | scan r =>
      rw [hr] at hscan
      cases hscan
      rfl
    | load r | query r =>
      rw [hr] at hscan
      cases hscan
  exact ⟨c, c', scan, hrun, hpath, hfilter, Or.inl ⟨q, hq, hrequest⟩, hwritten⟩

theorem alternatives_in_parentheses_keep_to_their_group :
    ∃ c c' scan, (ofEntity ⟨noteSchema, {}⟩).run mine = .ok c ∧
      (c.accessPath : Traced Unit QueryError AccessPath).outcome = .ok (.scan mineConditions) ∧
      mineConditions ≠ [] ∧ c.withFilter (onTopics "(#t = :a) OR (#t = :b)") = .ok c' ∧
      c'.Emits emptyStore (.scan scan) ∧
      scan.filterExpression = some "#kq_n0 = :kq_v0 AND ((#t = :a) OR (#t = :b))" ∧
      Text.behindClosing 0 "(#t = :a) OR (#t = :b))".toList = some [] := by
  obtain ⟨c, c', scan, hrun, hpath, hfilter, hemits, hwritten⟩ := scan_of_mineOnTopics
    "(#t = :a) OR (#t = :b)" "#kq_n0 = :kq_v0 AND ((#t = :a) OR (#t = :b))" (by decide +kernel)
  have hsome : mineConditions ≠ [] := List.cons_ne_nil _ _
  obtain ⟨⟨g, -, -, -, hcloses, -⟩, -⟩ :=
    a_filter_keeps_to_its_group_exactly_if_it_is_paired emptyStore hpath hsome hfilter
  exact ⟨c, c', scan, hrun, hpath, hsome, hfilter, hemits, hwritten, hcloses.2 (by decide)⟩

/-- A filter that closes the group around it is accepted: a note on a topic is found whatever its
title is, as what stands behind the group is an alternative to all before it. -/
theorem a_filter_may_leave_its_group :
    ∃ c c' scan, (ofEntity ⟨noteSchema, {}⟩).run mine = .ok c ∧
      (c.accessPath : Traced Unit QueryError AccessPath).outcome = .ok (.scan mineConditions) ∧
      c.withFilter (onTopics "#t = :a) OR (#t = :b") = .ok c' ∧
      c'.Emits emptyStore (.scan scan) ∧
      scan.filterExpression = some "#kq_n0 = :kq_v0 AND (#t = :a) OR (#t = :b)" ∧
      Text.behindClosing 0 "#t = :a) OR (#t = :b)".toList = some " OR (#t = :b)".toList ∧
      ¬ Paired "#t = :a) OR (#t = :b" := by
  obtain ⟨c, c', scan, hrun, hpath, hfilter, hemits, hwritten⟩ := scan_of_mineOnTopics
    "#t = :a) OR (#t = :b" "#kq_n0 = :kq_v0 AND (#t = :a) OR (#t = :b)" (by decide +kernel)
  exact ⟨c, c', scan, hrun, hpath, hfilter, hemits, hwritten, by decide, by decide⟩

end Criteria

end KeyAccess
