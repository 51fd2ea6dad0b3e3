-- Maps from names to values, kept in ascending order of the names: every listing of a map
-- comes out in one order, whatever the order of the insertions, and two maps with the same
-- entries are equal.

namespace KeyAccess

/-- The entries stand in strictly ascending order of their keys, so no key stands twice. -/
def Ascending {α : Type} (entries : List (String × α)) : Prop :=
  entries.Pairwise (fun a b => a.1 < b.1)

/-- A finite map with string keys, listed in ascending order of code points. -/
structure SortedMap (α : Type) where
  entries : List (String × α)
  ascending : Ascending entries
  deriving DecidableEq

namespace SortedMap

variable {α β : Type}

theorem ext {m n : SortedMap α} (h : m.entries = n.entries) : m = n := by
  cases m; cases n; cases h; rfl

/-! ## Entries -/

/-- Puts a value at its key's place among ascending entries; an entry with that key is replaced. -/
def insertEntry (key : String) (value : α) : List (String × α) → List (String × α)
  | [] => [(key, value)]
  | (k, v) :: rest =>
    if key < k then (key, value) :: (k, v) :: rest
    else if key = k then (key, value) :: rest
    else (k, v) :: insertEntry key value rest

/-- Takes the entry with the key out. -/
def eraseEntry (key : String) (entries : List (String × α)) : List (String × α) :=
  entries.filter (fun e => e.1 ≠ key)

theorem mem_insertEntry {key : String} {value : α} {e : String × α} {l : List (String × α)}
    (h : e ∈ insertEntry key value l) : e = (key, value) ∨ e ∈ l := by
  induction l with
  | nil => simpa [insertEntry] using h
  | cons hd tl ih =>
    simp only [insertEntry] at h
    split at h
    · simpa using h
    · split at h
      · rcases List.mem_cons.1 h with h | h
        · exact Or.inl h
        · exact Or.inr (List.mem_cons_of_mem _ h)
      · rcases List.mem_cons.1 h with h | h
        · exact Or.inr (by simp [h])
        · exact (ih h).imp_right (List.mem_cons_of_mem _)

theorem ascending_insertEntry {key : String} {value : α} {l : List (String × α)}
    (h : Ascending l) : Ascending (insertEntry key value l) := by
  induction l with
  | nil => simp [insertEntry, Ascending]
  | cons hd tl ih =>
    obtain ⟨k, v⟩ := hd
    have hk : ∀ e ∈ tl, k < e.1 := (List.pairwise_cons.1 h).1
    have ht : Ascending tl := (List.pairwise_cons.1 h).2
    simp only [insertEntry]
    split
    · rename_i hlt
      refine List.pairwise_cons.2 ⟨fun e he => ?_, h⟩
      rcases List.mem_cons.1 he with he | he
      · simpa [he] using hlt
      · exact String.lt_trans hlt (hk e he)
    · split
      · rename_i heq
        subst heq
        exact List.pairwise_cons.2 ⟨hk, ht⟩
      · rename_i hnlt hne
        refine List.pairwise_cons.2 ⟨fun e he => ?_, ih ht⟩
        rcases mem_insertEntry he with he | he
        · subst he
          exact String.not_le.1 (fun hle => hne (String.le_antisymm hle (String.not_lt.1 hnlt)))
        · exact hk e he

/-! ## Operations -/

/-- The map without entries. -/
def empty : SortedMap α := ⟨[], List.Pairwise.nil⟩

instance : EmptyCollection (SortedMap α) := ⟨empty⟩
instance : Inhabited (SortedMap α) := ⟨empty⟩

/-- Binds a key, in place of any earlier binding of it. -/
def insert (m : SortedMap α) (key : String) (value : α) : SortedMap α :=
  ⟨insertEntry key value m.entries, ascending_insertEntry m.ascending⟩

/-- Unbinds a key. -/
def erase (m : SortedMap α) (key : String) : SortedMap α :=
  ⟨eraseEntry key m.entries, List.Pairwise.filter _ m.ascending⟩

/-- The value bound to a key. -/
def get? (m : SortedMap α) (key : String) : Option α :=
  (m.entries.find? (fun e => e.1 == key)).map Prod.snd

/-- Whether a key is bound. -/
def contains (m : SortedMap α) (key : String) : Bool :=
  m.entries.any (fun e => e.1 == key)

/-- The bound keys, ascending. -/
def keys (m : SortedMap α) : List String := m.entries.map Prod.fst

/-- The bound values, in the order of their keys. -/
def values (m : SortedMap α) : List α := m.entries.map Prod.snd

/-- How many keys are bound. -/
def size (m : SortedMap α) : Nat := m.entries.length

/-- Whether no key is bound. -/
def isEmpty (m : SortedMap α) : Bool := m.entries.isEmpty

/-- Binds the pairs one after the other: the last binding of a key stays. -/
def insertAll (m : SortedMap α) (pairs : List (String × α)) : SortedMap α :=
  pairs.foldl (fun m p => m.insert p.1 p.2) m

/-- The map of a list of bindings; the last binding of a key stays. -/
def ofList (pairs : List (String × α)) : SortedMap α := insertAll ∅ pairs

/-- Changes the value at a key, where an unbound key starts from `fresh`. -/
def update (m : SortedMap α) (key : String) (fresh : α) (change : α → α) : SortedMap α :=
  m.insert key (change ((m.get? key).getD fresh))

end SortedMap

/-- The distinct strings of a list, ascending. -/
def sortedDistinct (names : List String) : List String :=
  (SortedMap.ofList (names.map (fun n => (n, ())))).keys

end KeyAccess
