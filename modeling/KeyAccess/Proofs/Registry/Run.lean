-- The law of registries: a call registers one definition, of an entity that had none, or it fails
-- and leaves no trace. So a registry only grows: what a call has registered stands to the end of
-- the run.
import Mathlib
import KeyAccess.Proofs.Registry.Additions

namespace KeyAccess

/-! ## Calls -/

/-- A call that is to register one definition. Each call on a file sees the files as they are
then. -/
inductive RegistryCall
  | loadText (source text : String)
  | loadFile (tree : FileTree) (path : String)
  | register (definition : EntityDefinition)

namespace RegistryCall

/-- The definition that a call is to register, or why it has none. -/
def definition : RegistryCall → Except SchemaError EntityDefinition
  | loadText source text => Registry.definitionOf source text
  | loadFile tree path =>
    match tree.readText path with
    | .ok text => Registry.definitionOf path text
    | .error fault => .error (.malformed path ("Failed to read file: " ++ fault.message))
  | register d => .ok d

/-- What a call gives back when it has registered a definition: a load gives the entity. -/
def answer (d : EntityDefinition) : RegistryCall → Option String
  | loadText _ _ | loadFile _ _ => some d.schema.entity
  | register _ => none

/-- What a call reports when it has registered a definition: a load reports it once. -/
def report (d : EntityDefinition) : RegistryCall → List EventRecord
  | loadText source _ | loadFile _ source =>
    [⟨.schemaLoaded, [("entity", d.schema.entity), ("source", source)]⟩]
  | register _ => []

end RegistryCall

namespace Registry

/-- A call on a registry. -/
def call (r : Registry) : RegistryCall → Load (Option String)
  | .loadText source text =>
    let load := r.loadText source text
    ⟨load.registry, load.events, load.outcome.map some⟩
  | .loadFile tree path =>
    let load := r.loadFile tree path
    ⟨load.registry, load.events, load.outcome.map some⟩
  | .register d =>
    match r.register d with
    | .ok after => ⟨after, [], .ok none⟩
    | .error e => ⟨r, [], .error e⟩

/-- The registry after calls, one after the other. -/
def after (r : Registry) (calls : List RegistryCall) : Registry :=
  calls.foldl (fun r c => (r.call c).registry) r

variable {r r' : Registry} {d : EntityDefinition} {c : RegistryCall}

/-! ## One call -/

/-- How a call can end. -/
inductive Ends (r : Registry) (c : RegistryCall) : Load (Option String) → Prop
  | registered {d : EntityDefinition} {r' : Registry} : c.definition = .ok d →
      r.register d = .ok r' → Ends r c ⟨r', c.report d, .ok (c.answer d)⟩
  | duplicate {d held : EntityDefinition} : c.definition = .ok d →
      r.get? d.schema.entity = some held →
      Ends r c ⟨r, [], .error (.duplicateEntity d.schema.entity)⟩
  | faulty {e : SchemaError} : c.definition = .error e → Ends r c ⟨r, [], .error e⟩

/-- A text is loaded in the same way by itself and as that of a file. -/
theorem ends_loadText {source text : String}
    (hdefinition : c.definition = definitionOf source text)
    (hanswer : ∀ d, c.answer d = some d.schema.entity)
    (hreport : ∀ d, c.report d =
      [⟨.schemaLoaded, [("entity", d.schema.entity), ("source", source)]⟩]) :
    Ends r c ⟨(r.loadText source text).registry, (r.loadText source text).events,
      (r.loadText source text).outcome.map some⟩ := by
  rcases r.loadText_cases source text with ⟨d, r', hd, hr, hload⟩ | ⟨e, hd | ⟨d, hd, hr⟩, hload⟩
  · rw [hload, ← hreport, Except.map, ← hanswer]
    exact .registered (hdefinition.trans hd) hr
  · rw [hload]
    exact .faulty (hdefinition.trans hd)
  · obtain ⟨⟨held, hheld⟩, rfl⟩ := register_eq_error_iff.1 hr
    rw [hload]
    exact .duplicate (hdefinition.trans hd) hheld

theorem ends_call (r : Registry) (c : RegistryCall) : Ends r c (r.call c) := by
  cases c with
  | loadText source text => exact ends_loadText rfl (fun _ => rfl) (fun _ => rfl)
  | loadFile tree path =>
    unfold call
    simp only [loadFile]
    cases hread : tree.readText path with
    | error fault =>
      refine .faulty ?_
      simp only [RegistryCall.definition, hread]
    | ok text =>
      refine ends_loadText ?_ (fun _ => rfl) (fun _ => rfl)
      simp only [RegistryCall.definition, hread]
  | register d =>
    unfold call
    cases hr : r.register d with
    | error e =>
      obtain ⟨⟨held, hheld⟩, rfl⟩ := register_eq_error_iff.1 hr
      simp only [hr]
      exact .duplicate rfl hheld
    | ok r' =>
      simp only [hr]
      exact .registered rfl hr

theorem call_of_ok {answer : Option String} (h : (r.call c).outcome = .ok answer) :
    ∃ d, c.definition = .ok d ∧ Added r [d] (r.call c).registry ∧ answer = c.answer d ∧
      (r.call c).events = c.report d := by
  have hends := ends_call r c
  generalize r.call c = load at h hends
  cases hends with
  | registered hd hr =>
    cases h
    exact ⟨_, hd, added_register hr, rfl, rfl⟩
  | duplicate _ _ | faulty _ => cases h

theorem call_of_error {e : SchemaError} (h : (r.call c).outcome = .error e) :
    (r.call c).registry = r ∧ (r.call c).events = [] ∧ (c.definition = .error e ∨
      ∃ d, c.definition = .ok d ∧ e = .duplicateEntity d.schema.entity) := by
  have hends := ends_call r c
  generalize r.call c = load at h hends
  cases hends with
  | registered _ _ => cases h
  | duplicate hd _ =>
    cases h
    exact ⟨rfl, rfl, Or.inr ⟨_, hd, rfl⟩⟩
  | faulty he =>
    cases h
    exact ⟨rfl, rfl, Or.inl he⟩

/-- A call succeeds exactly if it has a definition, and its entity has none. -/
theorem call_isOk_iff : (∃ answer, (r.call c).outcome = .ok answer) ↔
    ∃ d, c.definition = .ok d ∧ r.get? d.schema.entity = none := by
  have hends := ends_call r c
  generalize r.call c = load at hends
  cases hends with
  | registered hd hr => exact iff_of_true ⟨_, rfl⟩ ⟨_, hd, (register_eq_ok_iff.1 hr).1⟩
  | @duplicate d held hd hheld =>
    refine iff_of_false nofun ?_
    rintro ⟨d', hd', hnone⟩
    cases hd.symm.trans hd'
    rw [hheld] at hnone
    cases hnone
  | faulty he =>
    refine iff_of_false nofun ?_
    rintro ⟨d', hd', -⟩
    cases he.symm.trans hd'

/-! ## Runs -/

theorem added_call (r : Registry) (c : RegistryCall) :
    ∃ added, Added r added (r.call c).registry := by
  cases h : (r.call c).outcome with
  | ok answer =>
    obtain ⟨d, -, hadded, -⟩ := call_of_ok h
    exact ⟨[d], hadded⟩
  | error e =>
    rw [(call_of_error h).1]
    exact ⟨[], .nothing r⟩

/-- A run adds what its calls add. -/
theorem added_after (r : Registry) (calls : List RegistryCall) :
    ∃ added, Added r added (r.after calls) := by
  induction calls generalizing r with
  | nil => exact ⟨[], .nothing r⟩
  | cons c calls ih =>
    obtain ⟨added, hcall⟩ := added_call r c
    obtain ⟨more, hrest⟩ := ih (r.call c).registry
    exact ⟨added ++ more, hcall.append hrest⟩

theorem after_append (r : Registry) (calls later : List RegistryCall) :
    r.after (calls ++ later) = (r.after calls).after later :=
  List.foldl_append

theorem get?_after {calls later : List RegistryCall} {entity : String}
    (h : (r.after calls).get? entity = some d) : (r.after (calls ++ later)).get? entity = some d := by
  obtain ⟨added, hadded⟩ := added_after (r.after calls) later
  rw [after_append]
  exact hadded.kept h

/-- What is added to an empty registry is registered under its own entity. -/
theorem Added.entity_eq {added : List EntityDefinition} (h : Added {} added r) {entity : String}
    (hget : r.get? entity = some d) : d.schema.entity = entity := by
  rw [h.get?, Option.or_eq_some_iff] at hget
  rcases hget with hfind | ⟨-, hempty⟩
  · simpa using List.find?_some hfind
  · cases hempty

/-! ## The law -/

/-- Whatever calls are made, each definition stands under its own entity, and what is registered at
some time is registered at the end. A call that succeeds adds the one definition that it is given or
reads, of an entity that had none; if it is a load, it gives the entity back and is reported once. A
call that fails, be it that it has no definition or that the entity has one already, leaves the
registry as it was and is not reported. -/
theorem what_is_registered_stays (calls : List RegistryCall) :
    (∀ entity d, (after {} calls).get? entity = some d → d.schema.entity = entity) ∧
    (∀ before later, calls = before ++ later → ∀ entity d,
      (after {} before).get? entity = some d → (after {} calls).get? entity = some d) ∧
    ∀ before c later, calls = before ++ c :: later →
      let r := after {} before
      let load := r.call c
      (∀ answer, load.outcome = .ok answer → ∃ d, c.definition = .ok d ∧
        Added r [d] load.registry ∧ answer = c.answer d ∧ load.events = c.report d) ∧
      (∀ e, load.outcome = .error e → load.registry = r ∧ load.events = [] ∧
        (c.definition = .error e ∨
          ∃ d, c.definition = .ok d ∧ e = .duplicateEntity d.schema.entity)) ∧
      ((∃ answer, load.outcome = .ok answer) ↔
        ∃ d, c.definition = .ok d ∧ r.get? d.schema.entity = none) := by
  refine ⟨fun entity d hget => ?_, ?_, ?_⟩
  · obtain ⟨added, hadded⟩ := added_after {} calls
    exact hadded.entity_eq hget
  · rintro before later rfl entity d hget
    exact get?_after hget
  · intro before c later _
    exact ⟨fun answer hok => call_of_ok hok, fun e herror => call_of_error herror, call_isOk_iff⟩

/-- A text that declares notes with their partition key. -/
def noteText (partitionKey : String) : String :=
  "\x7b\"entity\":\"Note\",\"partition_key\":\"" ++ partitionKey ++ "\"\x7d"

/-- Notes are declared. Then calls fail: there is no such file, the text is no descriptor, and the
descriptor has no partition key. -/
def noteCalls : List RegistryCall :=
  [.loadText "notes" (noteText "id"), .loadFile {} "users.json", .loadText "users" "?",
    .loadText "users" "\x7b\"entity\":\"User\"\x7d"]

/-- Notes that are declared again, with another key, do not take the place of the first ones. -/
theorem the_first_notes_stay :
    ∃ d, (after {} (noteCalls ++ [.loadText "more notes" (noteText "author")])).get? "Note" = some d ∧
      d.schema.partitionKey = "id" ∧
      ((after {} noteCalls).call (.loadText "more notes" (noteText "author"))).registry =
        after {} noteCalls := by
  obtain ⟨-, hstays, hcalls⟩ :=
    what_is_registered_stays (noteCalls ++ [.loadText "more notes" (noteText "author")])
  obtain ⟨hok, -⟩ := hcalls [] _ _ rfl
  obtain ⟨-, hfails, -⟩ := hcalls noteCalls _ [] rfl
  have hfirst : (call {} (.loadText "notes" (noteText "id"))).outcome = .ok (some "Note") := by
    decide +kernel
  have hlast : ((after {} noteCalls).call (.loadText "more notes" (noteText "author"))).outcome =
      .error (.duplicateEntity "Note") := by
    decide +kernel
  have hkey : (definitionOf "notes" (noteText "id")).map (fun d => d.schema.partitionKey) =
      .ok "id" := by
    decide +kernel
  obtain ⟨d, hd, hadded, hanswer, -⟩ := hok _ hfirst
  have hentity : d.schema.entity = "Note" := (Option.some.inj hanswer).symm
  have hheld := hadded.holds (List.mem_singleton.2 rfl)
  rw [hentity] at hheld
  rw [show definitionOf "notes" (noteText "id") = .ok d from hd] at hkey
  exact ⟨d, hstays [.loadText "notes" (noteText "id")] _ rfl "Note" d hheld,
    Except.ok.inj hkey, (hfails _ hlast).1⟩

end Registry

end KeyAccess
