-- The laws of sorted maps. A lookup sees the last binding of its key and nothing else, and a map is
-- known by its lookups.
import Mathlib
import KeyAccess.SortedMap

namespace KeyAccess

namespace SortedMap

variable {α : Type}

/-! ## Lookups -/

/-- The value of the first entry with a key. -/
def findEntry (entries : List (String × α)) (key : String) : Option α :=
  (entries.find? (fun e => e.1 == key)).map Prod.snd

theorem get?_eq_findEntry (m : SortedMap α) (key : String) :
    m.get? key = findEntry m.entries key := rfl

theorem findEntry_cons (e : String × α) (entries : List (String × α)) (key : String) :
    findEntry (e :: entries) key = if e.1 = key then some e.2 else findEntry entries key := by
  unfold findEntry
  rw [List.find?_cons]
  by_cases h : e.1 = key
  · simp [h]
  · have hb : (e.1 == key) = false := by simpa using h
    simp [h, hb]

/-- The one pass of the insertion needs no order of the entries to be found again. -/
theorem findEntry_insertEntry (key : String) (value : α) (entries : List (String × α))
    (other : String) : findEntry (insertEntry key value entries) other =
      if other = key then some value else findEntry entries other := by
  induction entries with
  | nil =>
    rw [insertEntry, findEntry_cons]
    simp only [eq_comm]
  | cons hd tl ih =>
    obtain ⟨k, v⟩ := hd
    simp only [insertEntry]
    split
    · rw [findEntry_cons]
      simp only [eq_comm]
    · split
      · rename_i heq
        subst heq
        rw [findEntry_cons, findEntry_cons]
        by_cases h : other = key
        · simp [h]
        · simp [h, Ne.symm h]
      · rename_i hne
        rw [findEntry_cons, findEntry_cons, ih]
        by_cases h : other = key
        · subst h
          simp [Ne.symm hne]
        · simp [h]

@[simp]
theorem get?_empty (key : String) : (∅ : SortedMap α).get? key = none := rfl

theorem get?_insert (m : SortedMap α) (key : String) (value : α) (other : String) :
    (m.insert key value).get? other = if other = key then some value else m.get? other :=
  findEntry_insertEntry key value m.entries other

theorem get?_erase (m : SortedMap α) (key other : String) :
    (m.erase key).get? other = if other = key then none else m.get? other := by
  change findEntry (eraseEntry key m.entries) other = if other = key then none else
    findEntry m.entries other
  unfold eraseEntry
  induction m.entries with
  | nil => simp [findEntry]
  | cons hd tl ih =>
    rw [List.filter_cons]
    by_cases hk : hd.1 = key
    · rw [if_neg (by simpa using hk), ih, findEntry_cons, hk]
      by_cases h : other = key
      · simp [h]
      · simp [h, Ne.symm h]
    · rw [if_pos (by simpa using hk), findEntry_cons, findEntry_cons, ih]
      by_cases h : other = key
      · subst h
        simp [hk]
      · simp [h]

theorem get?_update (m : SortedMap α) (key : String) (fresh : α) (change : α → α)
    (other : String) : (m.update key fresh change).get? other =
      if other = key then some (change ((m.get? key).getD fresh)) else m.get? other :=
  get?_insert m key _ other

/-! ## Entries and keys -/

theorem keys_ascending (m : SortedMap α) : m.keys.Pairwise (fun a b => a < b) :=
  List.pairwise_map.2 m.ascending

theorem keys_nodup (m : SortedMap α) : m.keys.Nodup := by
  refine List.Pairwise.imp (fun hlt => ?_) m.keys_ascending
  intro heq
  subst heq
  exact String.lt_irrefl _ hlt

theorem findEntry_eq_some_iff {entries : List (String × α)} (h : (entries.map Prod.fst).Nodup)
    (key : String) (value : α) : findEntry entries key = some value ↔ (key, value) ∈ entries := by
  induction entries with
  | nil => simp [findEntry]
  | cons hd tl ih =>
    obtain ⟨k, v⟩ := hd
    rw [List.map_cons, List.nodup_cons] at h
    rw [findEntry_cons, List.mem_cons]
    by_cases hk : k = key
    · subst hk
      have hnot : (k, value) ∉ tl := fun hm => h.1 (List.mem_map.2 ⟨_, hm, rfl⟩)
      simp [hnot, eq_comm]
    · simp [hk, Ne.symm hk, ih h.2]

theorem get?_eq_some_iff (m : SortedMap α) (key : String) (value : α) :
    m.get? key = some value ↔ (key, value) ∈ m.entries :=
  findEntry_eq_some_iff m.keys_nodup key value

theorem mem_keys_iff (m : SortedMap α) (key : String) :
    key ∈ m.keys ↔ ∃ value, m.get? key = some value := by
  unfold keys
  rw [List.mem_map]
  constructor
  · rintro ⟨⟨k, v⟩, hm, rfl⟩
    exact ⟨v, (get?_eq_some_iff m k v).2 hm⟩
  · rintro ⟨v, hv⟩
    exact ⟨(key, v), (get?_eq_some_iff m key v).1 hv, rfl⟩

theorem get?_eq_none_iff (m : SortedMap α) (key : String) :
    m.get? key = none ↔ key ∉ m.keys := by
  rw [mem_keys_iff, Option.eq_none_iff_forall_ne_some]
  simp

theorem contains_iff (m : SortedMap α) (key : String) : m.contains key = true ↔ key ∈ m.keys := by
  unfold contains keys
  simp [List.any_eq_true]

/-- What the entries under a key give is what its value gives. -/
theorem flatMap_entries_of_key {β : Type} (m : SortedMap α) (key : String) (give : α → List β) :
    m.entries.flatMap (fun e => if e.1 = key then give e.2 else []) =
      (m.get? key).toList.flatMap give := by
  have hlist : ∀ entries : List (String × α), (entries.map Prod.fst).Nodup →
      entries.flatMap (fun e => if e.1 = key then give e.2 else []) =
        (findEntry entries key).toList.flatMap give := by
    intro entries hnodup
    induction entries with
    | nil => rfl
    | cons e rest ih =>
      rw [List.map_cons, List.nodup_cons] at hnodup
      rw [List.flatMap_cons, ih hnodup.2, findEntry_cons]
      by_cases he : e.1 = key
      · have hnone : findEntry rest key = none := by
          rw [Option.eq_none_iff_forall_ne_some]
          intro value hvalue
          refine hnodup.1 (he ▸ ?_)
          exact List.mem_map.2 ⟨_, (findEntry_eq_some_iff hnodup.2 _ _).1 hvalue, rfl⟩
        simp [he, hnone]
      · simp [he]
  exact hlist m.entries m.keys_nodup

theorem isEmpty_iff (m : SortedMap α) : m.isEmpty = true ↔ ∀ key, m.get? key = none := by
  unfold isEmpty
  rw [List.isEmpty_iff]
  constructor
  · intro h key
    rw [get?_eq_findEntry, h]
    rfl
  · intro h
    rw [List.eq_nil_iff_forall_not_mem]
    rintro ⟨k, v⟩ hm
    have hk := (get?_eq_some_iff m k v).2 hm
    rw [h k] at hk
    cases hk

@[simp]
theorem length_keys (m : SortedMap α) : m.keys.length = m.size := by
  simp [keys, size]

/-- A key that was not bound makes the map larger by one. -/
theorem size_insert {m : SortedMap α} {key : String} (h : m.get? key = none) (value : α) :
    (m.insert key value).size = m.size + 1 := by
  have hlist : ∀ entries : List (String × α), findEntry entries key = none →
      (insertEntry key value entries).length = entries.length + 1 := by
    intro entries
    induction entries with
    | nil => simp [insertEntry]
    | cons hd tl ih =>
      obtain ⟨k, v⟩ := hd
      intro hnone
      rw [findEntry_cons] at hnone
      have hne : k ≠ key := fun he => by simp [he] at hnone
      rw [if_neg hne] at hnone
      simp only [insertEntry, if_neg hne.symm]
      split
      · rfl
      · rw [List.length_cons, ih hnone, List.length_cons]
  exact hlist m.entries h

/-! ## Lists of bindings -/

/-- Of a list of bindings with distinct keys, every one stays. -/
theorem get?_insertAll (pairs : List (String × α)) (h : (pairs.map Prod.fst).Nodup)
    (m : SortedMap α) (key : String) :
    (m.insertAll pairs).get? key = (findEntry pairs key).or (m.get? key) := by
  induction pairs generalizing m with
  | nil => simp [insertAll, findEntry]
  | cons p ps ih =>
    rw [List.map_cons, List.nodup_cons] at h
    have hstep : m.insertAll (p :: ps) = (m.insert p.1 p.2).insertAll ps := rfl
    rw [hstep, ih h.2, get?_insert, findEntry_cons]
    by_cases hk : p.1 = key
    · subst hk
      have hnone : findEntry ps p.1 = none := by
        rw [Option.eq_none_iff_forall_ne_some]
        intro v hv
        exact h.1 (List.mem_map.2 ⟨_, (findEntry_eq_some_iff h.2 _ _).1 hv, rfl⟩)
      simp [hnone]
    · simp [hk, Ne.symm hk]

theorem get?_ofList (pairs : List (String × α)) (h : (pairs.map Prod.fst).Nodup) (key : String) :
    (ofList pairs).get? key = findEntry pairs key := by
  unfold ofList
  rw [get?_insertAll pairs h]
  simp

theorem mem_keys_insertAll (pairs : List (String × α)) (m : SortedMap α) (key : String) :
    key ∈ (m.insertAll pairs).keys ↔ key ∈ pairs.map Prod.fst ∨ key ∈ m.keys := by
  induction pairs generalizing m with
  | nil => simp [insertAll]
  | cons p ps ih =>
    have hstep : m.insertAll (p :: ps) = (m.insert p.1 p.2).insertAll ps := rfl
    have hins : key ∈ (m.insert p.1 p.2).keys ↔ key = p.1 ∨ key ∈ m.keys := by
      simp only [mem_keys_iff, get?_insert]
      by_cases hk : key = p.1 <;> simp [hk]
    rw [hstep, ih, hins, List.map_cons, List.mem_cons]
    tauto

theorem mem_keys_ofList (pairs : List (String × α)) (key : String) :
    key ∈ (ofList pairs).keys ↔ key ∈ pairs.map Prod.fst := by
  unfold ofList
  rw [mem_keys_insertAll]
  simp [mem_keys_iff]

/-- A part that the steps of a fold set or leave alone has in the end what the last step sets. -/
theorem foldl_last {σ β : Type} (part : σ → Option α) (step : σ → β → σ) (read : β → Option α)
    (hstep : ∀ s x, part (step s x) = (read x).or (part s)) (s : σ) (xs : List β) :
    part (xs.foldl step s) = ((xs.filterMap read).getLast?).or (part s) := by
  induction xs generalizing s with
  | nil => rfl
  | cons x xs ih =>
    rw [List.foldl_cons, ih, hstep]
    cases hx : read x with
    | none => rw [List.filterMap_cons_none hx, Option.none_or]
    | some a =>
      rw [List.filterMap_cons_some hx, List.getLast?_cons, Option.some_or]
      cases (xs.filterMap read).getLast? <;> rfl

/-! ## Maps with the same lookups -/

/-- Ascending entries are known by what they are, without their order. -/
theorem eq_of_mem_iff {β : Type} (key : β → String) {l l' : List β}
    (h : l.Pairwise (fun a b => key a < key b)) (h' : l'.Pairwise (fun a b => key a < key b))
    (hmem : ∀ a, a ∈ l ↔ a ∈ l') : l = l' := by
  have hnodup : ∀ {l : List β}, l.Pairwise (fun a b => key a < key b) → l.Nodup := by
    intro l hl
    refine hl.imp (fun hlt heq => ?_)
    subst heq
    exact String.lt_irrefl _ hlt
  refine List.Perm.eq_of_pairwise (fun a b _ _ hab hba => ?_) h h'
    ((List.perm_ext_iff_of_nodup (hnodup h) (hnodup h')).2 hmem)
  exact absurd (String.lt_trans hab hba) (String.lt_irrefl _)

theorem ext_get? {m n : SortedMap α} (h : ∀ key, m.get? key = n.get? key) : m = n := by
  refine ext (eq_of_mem_iff Prod.fst m.ascending n.ascending ?_)
  rintro ⟨key, value⟩
  rw [← get?_eq_some_iff, ← get?_eq_some_iff, h]

theorem keys_eq_of_mem_iff {β : Type} {m : SortedMap α} {n : SortedMap β}
    (h : ∀ key, key ∈ m.keys ↔ key ∈ n.keys) : m.keys = n.keys :=
  eq_of_mem_iff id m.keys_ascending n.keys_ascending h

theorem update_comm (m : SortedMap α) {key other : String} (hne : key ≠ other) (fresh : α)
    (change change' : α → α) : (m.update key fresh change).update other fresh change' =
      (m.update other fresh change').update key fresh change := by
  refine ext_get? (fun k => ?_)
  simp only [get?_update, if_neg hne, if_neg hne.symm]
  by_cases hk : k = key
  · subst hk
    simp [hne]
  · simp [hk]

/-! ## Two maps beside each other -/

/-- A map holds every binding of two maps that have no key in common, and no others. -/
structure DisjointUnion (m added joined : SortedMap α) : Prop where
  apart : ∀ key ∈ m.keys, key ∉ added.keys
  get? : ∀ key, joined.get? key = (m.get? key).or (added.get? key)

theorem disjointUnion_insertAll {m added : SortedMap α}
    (h : ∀ key ∈ m.keys, key ∉ added.keys) :
    DisjointUnion m added (m.insertAll added.entries) := by
  refine ⟨h, fun key => ?_⟩
  rw [get?_insertAll _ added.keys_nodup, ← get?_eq_findEntry]
  by_cases hkey : key ∈ m.keys
  · rw [(added.get?_eq_none_iff key).2 (h key hkey), Option.none_or, Option.or_none]
  · rw [(m.get?_eq_none_iff key).2 hkey, Option.none_or, Option.or_none]

theorem DisjointUnion.get?_right {m added joined : SortedMap α} (h : DisjointUnion m added joined)
    {key : String} {value : α} (hadded : added.get? key = some value) :
    joined.get? key = some value := by
  have hkey : key ∉ m.keys := fun hm => h.apart key hm ((mem_keys_iff _ _).2 ⟨value, hadded⟩)
  rw [h.get?, (m.get?_eq_none_iff key).2 hkey, Option.none_or, hadded]

/-! ## Lists that are kept by key -/

/-- Appends every value to the list of its key, one after the other. -/
def appendAll (m : SortedMap (List α)) (pairs : List (String × α)) : SortedMap (List α) :=
  pairs.foldl (fun m e => m.update e.1 [] (· ++ [e.2])) m

/-- The list of a key grows by the values under that key, in their order. A key without any is not
entered. -/
theorem get?_appendAll (pairs : List (String × α)) (m : SortedMap (List α)) (key : String) :
    (m.appendAll pairs).get? key =
      if pairs.filter (fun e => e.1 == key) = [] then m.get? key
      else some ((m.get? key).getD [] ++ (pairs.filter (fun e => e.1 == key)).map Prod.snd) := by
  unfold appendAll
  induction pairs generalizing m with
  | nil => simp
  | cons e pairs ih =>
    rw [List.foldl_cons, ih, get?_update, List.filter_cons]
    by_cases hkey : key = e.1
    · subst hkey
      by_cases hnil : pairs.filter (fun o => o.1 == e.1) = []
      · simp [hnil]
      · simp [hnil]
    · have hb : ¬ (e.1 == key) = true := by simpa using Ne.symm hkey
      rw [if_neg hkey, if_neg hb]

theorem mem_keys_appendAll (pairs : List (String × α)) (m : SortedMap (List α)) (key : String) :
    key ∈ (m.appendAll pairs).keys ↔ key ∈ pairs.map Prod.fst ∨ key ∈ m.keys := by
  have hnil : pairs.filter (fun e => e.1 == key) = [] ↔ key ∉ pairs.map Prod.fst := by
    rw [List.filter_eq_nil_iff, List.mem_map]
    simp only [beq_iff_eq, not_exists, not_and]
  simp only [mem_keys_iff, get?_appendAll, hnil]
  by_cases hkey : key ∈ pairs.map Prod.fst <;> simp [hkey]

theorem getD_appendAll (pairs : List (String × α)) (m : SortedMap (List α)) (key : String) :
    ((m.appendAll pairs).get? key).getD [] =
      (m.get? key).getD [] ++ (pairs.filter (fun e => e.1 == key)).map Prod.snd := by
  rw [get?_appendAll]
  split
  · rename_i hnil
    rw [hnil, List.map_nil, List.append_nil]
  · rfl

/-- A value in a list that is kept by key is the one appended last, or it stood there before. -/
theorem mem_of_get?_append {m : SortedMap (List α)} {key other : String} {value a : α} {l : List α}
    (h : (m.update key [] (· ++ [value])).get? other = some l) (ha : a ∈ l) :
    (other = key ∧ a = value) ∨ ∃ kept, m.get? other = some kept ∧ a ∈ kept := by
  rw [get?_update] at h
  by_cases hkey : other = key
  · rw [if_pos hkey] at h
    cases h
    rcases List.mem_append.1 ha with ha | ha
    · cases hget : m.get? key with
      | none => simp [hget] at ha
      | some kept => exact Or.inr ⟨kept, hkey ▸ hget, by simpa [hget] using ha⟩
    · exact Or.inl ⟨hkey, List.mem_singleton.1 ha⟩
  · rw [if_neg hkey] at h
    exact Or.inr ⟨l, h, ha⟩

/-- A value that is appended to the list of its key is one more among all listed values. -/
theorem flatten_values_append (m : SortedMap (List α)) (key : String) (value : α) :
    (m.update key [] (· ++ [value])).values.flatten.Perm (value :: m.values.flatten) := by
  have hlist : ∀ (entries : List (String × List α)), Ascending entries →
      ((insertEntry key ((findEntry entries key).getD [] ++ [value]) entries).map
        Prod.snd).flatten.Perm (value :: (entries.map Prod.snd).flatten) := by
    intro entries
    induction entries with
    | nil => simp [insertEntry, findEntry]
    | cons hd tl ih =>
      obtain ⟨k, l⟩ := hd
      intro hasc
      have hlt : ∀ e ∈ tl, k < e.1 := (List.pairwise_cons.1 hasc).1
      simp only [insertEntry]
      split
      · rename_i hkey
        have hnone : findEntry ((k, l) :: tl) key = none := by
          unfold findEntry
          rw [Option.map_eq_none_iff, List.find?_eq_none]
          intro e he heq
          rw [beq_iff_eq] at heq
          rcases List.mem_cons.1 he with rfl | he
          · exact String.lt_irrefl _ (heq ▸ hkey)
          · exact String.lt_irrefl _ (heq ▸ String.lt_trans hkey (hlt e he))
        simp [hnone]
      · split
        · rename_i heq
          subst heq
          rw [findEntry_cons]
          simp only [if_true, Option.getD_some, List.map_cons, List.flatten_cons,
            List.append_assoc, List.singleton_append]
          exact List.perm_middle
        · rename_i hne
          rw [findEntry_cons, if_neg (Ne.symm hne)]
          simp only [List.map_cons, List.flatten_cons]
          exact ((ih (List.pairwise_cons.1 hasc).2).append_left l).trans List.perm_middle
  exact hlist m.entries m.ascending

end SortedMap

/-! ## Distinct names -/

theorem mem_sortedDistinct (names : List String) (name : String) :
    name ∈ sortedDistinct names ↔ name ∈ names := by
  unfold sortedDistinct
  rw [SortedMap.mem_keys_ofList]
  simp

theorem nodup_sortedDistinct (names : List String) : (sortedDistinct names).Nodup :=
  SortedMap.keys_nodup _

end KeyAccess
