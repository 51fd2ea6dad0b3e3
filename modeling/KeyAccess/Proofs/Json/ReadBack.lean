-- What is written is read back. A reader reads the tokens of a value whatever follows them; so it
-- is for names, lists, maps, choices and records if it is so for their parts.
import Mathlib
import KeyAccess.Json.Reader
import KeyAccess.Proofs.Json.Text
import KeyAccess.Proofs.Outcome
import KeyAccess.Proofs.SortedMap

namespace KeyAccess.Json

variable {α β ρ : Type} {read : Reader α} {written : List Token} {x : α}

/-! ## Single values -/

/-- Some tokens are a value's whole text: they start a value, and a reader reads them as that value
and leaves what follows. -/
structure Reads (read : Reader α) (written : List Token) (x : α) : Prop where
  closed : ∀ t ∈ written, t.Closed
  starts : ∃ t rest, written = t :: rest ∧ (opened t).isSome = true
  reads : ∀ rest, read (written ++ rest) = .ok (x, rest)

theorem Reads.ne_nil (h : Reads read written x) : written ≠ [] := by
  obtain ⟨t, rest, rfl, -⟩ := h.starts
  exact List.cons_ne_nil t rest

theorem decode_render (h : Reads read written x) : decode read (render written) = .ok x := by
  have hread := h.reads []
  rw [List.append_nil] at hread
  unfold decode
  rw [tokens_render h.closed, hread]
  rfl

theorem reads_text (s : String) : Reads readString [.text s] s :=
  ⟨by simp [Token.text, Token.Closed], ⟨_, _, rfl, rfl⟩, fun _ => rfl⟩

theorem reads_boolean (b : Bool) : Reads readBoolean [.boolean b] b :=
  ⟨by simp [Token.Closed], ⟨_, _, rfl, rfl⟩, fun _ => rfl⟩

/-- A value that is made from another one is read where that one is. -/
theorem Reads.map (f : α → β) (h : Reads read written x) :
    Reads (fun tokens => do let (x, rest) ← read tokens; return (f x, rest)) written (f x) := by
  refine ⟨h.closed, h.starts, fun rest => ?_⟩
  simp only [h.reads, ok_bind]
  rfl

theorem reads_null : Reads (readOption read) [.null] none :=
  ⟨by simp [Token.Closed], ⟨_, _, rfl, rfl⟩, fun _ => rfl⟩

/-- A value that is there is read in place of null, unless its text starts with null itself. -/
theorem Reads.some (h : Reads read written x) (hnull : written.head? ≠ some .null) :
    Reads (readOption read) written (some x) := by
  refine ⟨h.closed, h.starts, fun rest => ?_⟩
  obtain ⟨t, others, rfl, -⟩ := h.starts
  have ht : t ≠ .null := by simpa using hnull
  unfold readOption
  split
  · rename_i heq
    exact absurd (List.cons.inj heq).1 ht
  · simp only [h.reads, ok_bind]
    rfl

/-- A choice without content is read by its name. -/
theorem reads_name {cases : List (String × α)} {name : String}
    (h : pickCase cases name = .ok x) : Reads (readName cases) [.text name] x := by
  refine ⟨by simp [Token.text, Token.Closed], ⟨_, _, rfl, rfl⟩, fun rest => ?_⟩
  change (pickCase cases name >>= fun choice => Except.ok (choice, rest)) = _
  rw [h, ok_bind]

/-! ## Parts with commas between them -/

/-- The tokens of the parts that are left in an array or an object; each but the first one of all
has a comma before it. -/
def remaining (first : Bool) : List (List Token) → List Token
  | [] => []
  | part :: parts => (if first then [] else [.comma]) ++ part ++ remaining false parts

theorem flatten_intersperse (parts : List (List Token)) :
    (parts.intersperse [.comma]).flatten = remaining true parts := by
  have hrest : ∀ (part : List Token) (parts : List (List Token)),
      ((part :: parts).intersperse [.comma]).flatten = part ++ remaining false parts := by
    intro part parts
    induction parts generalizing part with
    | nil => simp [remaining]
    | cons next parts ih =>
      rw [List.intersperse_cons_cons, List.flatten_cons, List.flatten_cons, ih]
      simp [remaining]
  cases parts with
  | nil => rfl
  | cons part parts => simp [hrest, remaining]

theorem closed_remaining {first : Bool} {parts : List (List Token)}
    (h : ∀ part ∈ parts, ∀ t ∈ part, t.Closed) : ∀ t ∈ remaining first parts, t.Closed := by
  induction parts generalizing first with
  | nil => simp [remaining]
  | cons part parts ih =>
    obtain ⟨hpart, hparts⟩ := List.forall_mem_cons.1 h
    intro t ht
    rw [remaining, List.mem_append, List.mem_append] at ht
    rcases ht with (ht | ht) | ht
    · split at ht
      · cases ht
      · rw [List.mem_singleton.1 ht]
        trivial
    · exact hpart t ht
    · exact ih hparts t ht

theorem length_le_remaining {first : Bool} {parts : List (List Token)}
    (h : ∀ part ∈ parts, part ≠ []) : parts.length ≤ (remaining first parts).length := by
  induction parts generalizing first with
  | nil => simp
  | cons part parts ih =>
    obtain ⟨hpart, hparts⟩ := List.forall_mem_cons.1 h
    have hpos := List.length_pos_iff.2 hpart
    have hrest := @ih false hparts
    simp only [remaining, List.length_append, List.length_cons]
    omega

/-- The tokens of an array or an object are more than its parts, so reading them in as many steps
as there are tokens comes to the end. -/
theorem length_lt_remaining {parts : List (List Token)} (h : ∀ part ∈ parts, part ≠ [])
    (closing : Token) (rest : List Token) :
    parts.length < (remaining true parts ++ closing :: rest).length + 1 := by
  have hlength := @length_le_remaining true _ h
  rw [List.length_append]
  omega

/-! ## Arrays -/

theorem arrayTokens_eq (items : List (List Token)) :
    arrayTokens items = .openArray :: (remaining true items ++ [.closeArray]) := by
  unfold arrayTokens
  rw [flatten_intersperse]
  rfl

theorem nextElement_remaining {first : Bool} {part : List Token} {parts : List (List Token)}
    (h : ∃ t rest, part = t :: rest ∧ (opened t).isSome = true) (rest : List Token) :
    nextElement first (remaining first (part :: parts) ++ rest) =
      .ok (true, part ++ (remaining false parts ++ rest)) := by
  obtain ⟨t, others, rfl, hopen⟩ := h
  rw [remaining, List.append_assoc, List.append_assoc]
  cases first <;> cases t <;> first | rfl | cases hopen

theorem readElements_remaining {write : α → List Token} {xs : List α}
    (h : ∀ x ∈ xs, Reads read (write x) x) (rest : List Token) {first : Bool} {fuel : Nat}
    (hfuel : xs.length < fuel) :
    readElements read fuel first (remaining first (xs.map write) ++ .closeArray :: rest) =
      .ok (xs, rest) := by
  induction xs generalizing first fuel with
  | nil =>
    cases fuel with
    | zero => cases hfuel
    | succ fuel => rfl
  | cons x xs ih =>
    obtain ⟨hx, hxs⟩ := List.forall_mem_cons.1 h
    cases fuel with
    | zero => cases hfuel
    | succ fuel =>
      rw [readElements, List.map_cons, nextElement_remaining hx.starts, ok_bind]
      simp only [if_true, hx.reads, ok_bind, ih hxs (Nat.lt_of_succ_lt_succ hfuel)]
      rfl

theorem reads_list {write : α → List Token} {xs : List α}
    (h : ∀ x ∈ xs, Reads read (write x) x) :
    Reads (readList read) (arrayTokens (xs.map write)) xs := by
  rw [arrayTokens_eq]
  refine ⟨?_, ⟨_, _, rfl, rfl⟩, fun rest => ?_⟩
  · have hparts : ∀ part ∈ xs.map write, ∀ t ∈ part, t.Closed := by
      intro part hpart
      obtain ⟨x, hx, rfl⟩ := List.mem_map.1 hpart
      exact (h x hx).closed
    have hremaining := @closed_remaining true _ hparts
    simpa [Token.Closed, or_imp, forall_and] using hremaining
  · have hparts : ∀ part ∈ xs.map write, part ≠ [] := by
      intro part hpart
      obtain ⟨x, hx, rfl⟩ := List.mem_map.1 hpart
      exact (h x hx).ne_nil
    have hlength := length_lt_remaining hparts .closeArray rest
    rw [List.length_map] at hlength
    rw [List.cons_append, List.append_assoc, List.singleton_append, readList]
    exact readElements_remaining h rest hlength

/-! ## Objects -/

/-- The tokens of a member of an object. -/
def memberTokens (m : String × List Token) : List Token := .text m.1 :: .colon :: m.2

theorem objectTokens_eq (members : List (String × List Token)) :
    objectTokens members =
      .openObject :: (remaining true (members.map memberTokens) ++ [.closeObject]) := by
  unfold objectTokens
  rw [← flatten_intersperse]
  rfl

theorem nextKey_remaining {first : Bool} {m : String × List Token}
    {members : List (String × List Token)} (rest : List Token) :
    nextKey first (remaining first ((m :: members).map memberTokens) ++ rest) =
      .ok (some m.1, .colon :: (m.2 ++ (remaining false (members.map memberTokens) ++ rest))) := by
  cases first <;> simp [remaining, memberTokens, nextKey, Token.text]

theorem closed_objectTokens {members : List (String × List Token)}
    (h : ∀ m ∈ members, ∀ t ∈ m.2, t.Closed) : ∀ t ∈ objectTokens members, t.Closed := by
  have hparts : ∀ part ∈ members.map memberTokens, ∀ t ∈ part, t.Closed := by
    intro part hpart
    obtain ⟨m, hm, rfl⟩ := List.mem_map.1 hpart
    simpa [memberTokens, Token.text, Token.Closed] using h m hm
  have hremaining := @closed_remaining true _ hparts
  rw [objectTokens_eq]
  simpa [Token.Closed, or_imp, forall_and] using hremaining

theorem length_lt_objectTokens (members : List (String × List Token)) (rest : List Token) :
    members.length <
      (remaining true (members.map memberTokens) ++ .closeObject :: rest).length + 1 := by
  have hparts : ∀ part ∈ members.map memberTokens, part ≠ [] := by
    intro part hpart
    obtain ⟨m, -, rfl⟩ := List.mem_map.1 hpart
    exact List.cons_ne_nil _ _
  have hlength := length_lt_remaining hparts .closeObject rest
  rwa [List.length_map] at hlength

theorem readMembers_remaining {write : α → List Token} {entries : List (String × α)}
    (h : ∀ e ∈ entries, Reads read (write e.2) e.2) (rest : List Token) (map : SortedMap α)
    {first : Bool} {fuel : Nat} (hfuel : entries.length < fuel) :
    readMembers read fuel first map
        (remaining first ((entries.map fun e => (e.1, write e.2)).map memberTokens) ++
          .closeObject :: rest) =
      .ok (map.insertAll entries, rest) := by
  induction entries generalizing first fuel map with
  | nil =>
    cases fuel with
    | zero => cases hfuel
    | succ fuel => rfl
  | cons e entries ih =>
    obtain ⟨he, hentries⟩ := List.forall_mem_cons.1 h
    cases fuel with
    | zero => cases hfuel
    | succ fuel =>
      rw [readMembers, List.map_cons, nextKey_remaining, ok_bind]
      simp only [expect, if_true, he.reads, ok_bind]
      exact ih hentries (map.insert e.1 e.2) (Nat.lt_of_succ_lt_succ hfuel)

theorem reads_map {write : α → List Token} {map : SortedMap α}
    (h : ∀ e ∈ map.entries, Reads read (write e.2) e.2) :
    Reads (readMap read) (objectTokens (map.entries.map fun e => (e.1, write e.2))) map := by
  refine ⟨closed_objectTokens ?_, ⟨_, _, rfl, rfl⟩, fun rest => ?_⟩
  · intro m hm
    obtain ⟨e, he, rfl⟩ := List.mem_map.1 hm
    exact (h e he).closed
  · have hlength := length_lt_objectTokens (map.entries.map fun e => (e.1, write e.2)) rest
    rw [List.length_map] at hlength
    rw [objectTokens_eq, List.cons_append, List.append_assoc, List.singleton_append, readMap,
      readMembers_remaining h rest ∅ hlength]
    have hsame : (∅ : SortedMap α).insertAll map.entries = map :=
      SortedMap.ext_get? fun key => SortedMap.get?_ofList map.entries map.keys_nodup key
    rw [hsame]

/-- A choice with content is read by its name and the reader of its content. -/
theorem reads_variant {cases : List (String × Reader α)} {name : String}
    (hname : pickCase cases name = .ok read) (h : Reads read written x) :
    Reads (readVariant cases) (objectTokens [(name, written)]) x := by
  refine ⟨closed_objectTokens (by simpa using h.closed), ⟨_, _, rfl, rfl⟩, fun rest => ?_⟩
  have htokens : objectTokens [(name, written)] ++ rest =
      .openObject :: .string (some name) :: .colon :: (written ++ .closeObject :: rest) := by
    simp [objectTokens, Token.text]
  rw [htokens, readVariant, readTagged, hname, ok_bind]
  simp only [expect, if_true, ok_bind, h.reads]
  rfl

/-! ## Records -/

/-- The members fill the record, which has been filled by the fields of some names: each member is
read by a field that no member before it has filled, and in the end no required field is left. -/
inductive Fills (form : RecordForm ρ) :
    List String → ρ → List (String × List Token) → ρ → Prop
  | whole {filled : List String} {record : ρ}
      (hrequired : form.fields.find? (fun f => f.required && !filled.contains f.name) = none) :
      Fills form filled record [] record
  | member {filled : List String} {record record' result : ρ} {name : String}
      {written : List Token} {members : List (String × List Token)} {f : Field ρ}
      (hfield : form.fields.find? (fun f => f.name == name) = some f)
      (hfree : filled.contains name = false)
      (hread : Reads (f.read record) written record')
      (hrest : Fills form (name :: filled) record' members result) :
      Fills form filled record ((name, written) :: members) result

theorem reads_field {name : String} {required : Bool} {record : ρ} (put : ρ → α → ρ)
    (h : Reads read written x) :
    Reads ((Field.of name required read put).read record) written (put record x) :=
  h.map (put record)

theorem Fills.closed {form : RecordForm ρ} {filled : List String} {record result : ρ}
    {members : List (String × List Token)} (h : Fills form filled record members result) :
    ∀ m ∈ members, ∀ t ∈ m.2, t.Closed := by
  induction h with
  | whole _ => simp
  | member _ _ hread _ ih => exact List.forall_mem_cons.2 ⟨hread.closed, ih⟩

theorem Fills.readObject {form : RecordForm ρ} {filled : List String} {record result : ρ}
    {members : List (String × List Token)} (h : Fills form filled record members result)
    (rest : List Token) {first : Bool} {fuel : Nat} (hfuel : members.length < fuel) :
    form.readObject fuel first filled record
        (remaining first (members.map memberTokens) ++ .closeObject :: rest) =
      .ok (result, rest) := by
  induction h generalizing first fuel with
  | @whole filled record hrequired =>
    cases fuel with
    | zero => cases hfuel
    | succ fuel =>
      have hkey : nextKey first (remaining first ([].map memberTokens) ++ .closeObject :: rest) =
          .ok (none, rest) := rfl
      rw [RecordForm.readObject, hkey, ok_bind]
      simp only [hrequired]
      rfl
  | @member filled record record' result name written members f hfield hfree hread _ ih =>
    cases fuel with
    | zero => cases hfuel
    | succ fuel =>
      rw [RecordForm.readObject, nextKey_remaining, ok_bind]
      simp only [hfield, hfree, expect, if_true, ok_bind, hread.reads]
      exact ih (Nat.lt_of_succ_lt_succ hfuel)

/-- A record is read from members that fill it. -/
theorem reads_record {form : RecordForm ρ} {members : List (String × List Token)} {record : ρ}
    (h : Fills form [] form.blank members record) :
    Reads form.read (objectTokens members) record := by
  refine ⟨closed_objectTokens h.closed, ⟨_, _, rfl, rfl⟩, fun rest => ?_⟩
  rw [objectTokens_eq, List.cons_append, List.append_assoc, List.singleton_append,
    RecordForm.read]
  exact h.readObject rest (length_lt_objectTokens members rest)

end KeyAccess.Json
