/-
  Maps from texts, in increasing order of their keys.

  The order is that of the code points of the keys, which is also the order of
  their UTF-8 bytes.

  What is proved:
    1. `get?_insert_self`, `get?_insert_of_ne` — inserting changes the value of
       one key and no other.
    2. `mem_keys_insert` — inserting adds one key.
    3. `sorted_insert` — inserting keeps the keys in increasing order.
    4. `mem_entries_iff` — in a map with increasing keys an entry is a key with
       its value.
    5. `get?_erase_self`, `get?_erase_of_ne`, `sorted_erase` — taking a key away
       changes nothing else.
-/

namespace ClientRoutes

/-- A map from texts, as the list of its entries in order. -/
structure TextMap (α : Type) where
  entries : List (String × α)
  deriving DecidableEq, Repr

namespace TextMap

variable {α : Type}

/-- The map without entries. -/
def empty : TextMap α := ⟨[]⟩

/-- Puts an entry in its place in a list of entries. -/
def insertEntry (key : String) (value : α) : List (String × α) → List (String × α)
  | [] => [(key, value)]
  | (k, v) :: rest =>
    if key = k then (key, value) :: rest
    else if key < k then (key, value) :: (k, v) :: rest
    else (k, v) :: insertEntry key value rest

/-- Gives a key a value. -/
def insert (m : TextMap α) (key : String) (value : α) : TextMap α :=
  ⟨insertEntry key value m.entries⟩

/-- The value of a key. -/
def get? (m : TextMap α) (key : String) : Option α := m.entries.lookup key

/-- Whether a key is there. -/
def contains (m : TextMap α) (key : String) : Bool := (m.get? key).isSome

/-- The map without a key. -/
def erase (m : TextMap α) (key : String) : TextMap α :=
  ⟨m.entries.filter fun e => e.1 != key⟩

/-- Whether the map has no entries. -/
def isEmpty (m : TextMap α) : Bool := m.entries.isEmpty

/-- The keys in order. -/
def keys (m : TextMap α) : List String := m.entries.map Prod.fst

/-- The map of some entries, a later one replacing an earlier one. -/
def ofList (entries : List (String × α)) : TextMap α :=
  entries.foldl (fun m (k, v) => m.insert k v) empty

/-- Whether the keys increase strictly. -/
def Sorted (m : TextMap α) : Prop := m.keys.Pairwise (· < ·)

theorem lookup_insertEntry_self (key : String) (value : α) (entries : List (String × α)) :
    (insertEntry key value entries).lookup key = some value := by
  induction entries with
  | nil => simp [insertEntry]
  | cons e rest ih =>
    obtain ⟨k, v⟩ := e
    rw [insertEntry]
    by_cases h : key = k
    · subst h; simp
    · have h' : (key == k) = false := by simpa using h
      split
      · simp
      · split
        · simp
        · simp [List.lookup_cons, h', ih]

theorem lookup_insertEntry_of_ne {key other : String} (h : other ≠ key) (value : α)
    (entries : List (String × α)) :
    (insertEntry key value entries).lookup other = entries.lookup other := by
  have hb : (other == key) = false := by simpa using h
  induction entries with
  | nil => simp [insertEntry, List.lookup_cons, List.lookup_nil, hb]
  | cons e rest ih =>
    obtain ⟨k, v⟩ := e
    rw [insertEntry]
    split
    · next hk => subst hk; simp [List.lookup_cons, hb]
    · split
      · simp [List.lookup_cons, hb]
      · simp only [List.lookup_cons]
        split <;> simp [ih]

theorem get?_insert_self (m : TextMap α) (key : String) (value : α) :
    (m.insert key value).get? key = some value :=
  lookup_insertEntry_self key value m.entries

theorem get?_insert_of_ne (m : TextMap α) {key other : String} (h : other ≠ key) (value : α) :
    (m.insert key value).get? other = m.get? other :=
  lookup_insertEntry_of_ne h value m.entries

theorem mem_keys_insertEntry (key other : String) (value : α) (entries : List (String × α)) :
    other ∈ (insertEntry key value entries).map Prod.fst ↔
      other = key ∨ other ∈ entries.map Prod.fst := by
  induction entries with
  | nil => simp [insertEntry]
  | cons e rest ih =>
    obtain ⟨k, v⟩ := e
    rw [insertEntry]
    split
    · next h => subst h; simp
    · split
      · simp
      · simp only [List.map_cons, List.mem_cons, ih]
        constructor
        · rintro (h | h | h) <;> simp [h]
        · rintro (h | h | h) <;> simp [h]

theorem mem_keys_insert (m : TextMap α) (key other : String) (value : α) :
    other ∈ (m.insert key value).keys ↔ other = key ∨ other ∈ m.keys :=
  mem_keys_insertEntry key other value m.entries

theorem sorted_insert {m : TextMap α} (h : m.Sorted) (key : String) (value : α) :
    (m.insert key value).Sorted := by
  obtain ⟨entries⟩ := m
  simp only [Sorted, keys, insert] at h ⊢
  induction entries with
  | nil => simp [insertEntry]
  | cons e rest ih =>
    obtain ⟨k, v⟩ := e
    rw [List.map_cons, List.pairwise_cons] at h
    obtain ⟨hk, hrest⟩ := h
    rw [insertEntry]
    split
    · next he => subst he; exact List.pairwise_cons.2 ⟨hk, hrest⟩
    · next hne =>
      split
      · next hlt =>
        simp only [List.map_cons, List.pairwise_cons, List.mem_cons]
        refine ⟨?_, hk, hrest⟩
        rintro x (rfl | hx)
        · exact hlt
        · exact String.lt_trans hlt (hk x hx)
      · next hnlt =>
        simp only [List.map_cons, List.pairwise_cons]
        refine ⟨?_, ih hrest⟩
        intro x hx
        rcases (mem_keys_insertEntry key x value rest).1 hx with rfl | hx
        · exact Std.lt_of_le_of_ne (Std.not_lt.1 hnlt) (Ne.symm hne)
        · exact hk x hx

theorem sorted_empty : (empty : TextMap α).Sorted := by simp [Sorted, keys, empty]

theorem Sorted.nodup {m : TextMap α} (h : m.Sorted) : m.keys.Nodup :=
  h.imp fun hlt heq => absurd (heq ▸ hlt) (String.lt_irrefl _)

theorem mem_entries_iff {m : TextMap α} (h : m.Sorted) (key : String) (value : α) :
    (key, value) ∈ m.entries ↔ m.get? key = some value := by
  obtain ⟨entries⟩ := m
  have hnd := h.nodup
  simp only [get?, keys] at hnd ⊢
  clear h
  induction entries with
  | nil => simp
  | cons e rest ih =>
    obtain ⟨k, v⟩ := e
    rw [List.map_cons, List.nodup_cons] at hnd
    rw [List.mem_cons, List.lookup_cons]
    by_cases hk : key = k
    · subst hk
      have hrest : (key, value) ∉ rest := fun hm =>
        hnd.1 (List.mem_map.2 ⟨_, hm, rfl⟩)
      simp [hrest, eq_comm]
    · have hb : (key == k) = false := by simpa using hk
      simp [hb, hk, ih hnd.2]

theorem get?_erase_self (m : TextMap α) (key : String) : (m.erase key).get? key = none := by
  rw [get?, erase, List.lookup_eq_none_iff]
  intro e he
  obtain ⟨-, hne⟩ := List.mem_filter.1 he
  simpa [bne_comm] using hne

theorem get?_erase_of_ne (m : TextMap α) {key other : String} (h : other ≠ key) :
    (m.erase key).get? other = m.get? other := by
  obtain ⟨entries⟩ := m
  simp only [get?, erase]
  induction entries with
  | nil => rfl
  | cons e rest ih =>
    obtain ⟨k, v⟩ := e
    rw [List.filter_cons]
    by_cases hk : k = key
    · subst hk
      have hb : (other == k) = false := by simpa using h
      simp [ih, List.lookup_cons, hb]
    · simp [hk, ih, List.lookup_cons]

theorem sorted_erase {m : TextMap α} (h : m.Sorted) (key : String) : (m.erase key).Sorted :=
  h.sublist (List.filter_sublist.map Prod.fst)

theorem mem_keys_erase (m : TextMap α) (key other : String) :
    other ∈ (m.erase key).keys ↔ other ∈ m.keys ∧ other ≠ key := by
  simp only [keys, erase, List.mem_map, List.mem_filter, bne_iff_ne]
  constructor
  · rintro ⟨e, ⟨he, hne⟩, rfl⟩
    exact ⟨⟨e, he, rfl⟩, hne⟩
  · rintro ⟨⟨e, he, rfl⟩, hne⟩
    exact ⟨e, ⟨he, hne⟩, rfl⟩

theorem get?_isSome_iff (m : TextMap α) (key : String) :
    (m.get? key).isSome = true ↔ key ∈ m.keys := by
  rw [get?, List.lookup_isSome_iff, keys, List.mem_map]
  simp only [beq_iff_eq]
  constructor
  · rintro ⟨e, he, rfl⟩
    exact ⟨e, he, rfl⟩
  · rintro ⟨e, he, rfl⟩
    exact ⟨e, he, rfl⟩

theorem sorted_ofList (entries : List (String × α)) : (ofList entries).Sorted := by
  have hfold : ∀ (es : List (String × α)) (m : TextMap α), m.Sorted →
      (es.foldl (fun m e => m.insert e.1 e.2) m).Sorted := by
    intro es
    induction es with
    | nil => exact fun m h => h
    | cons e rest ih => exact fun m h => ih _ (sorted_insert h e.1 e.2)
  exact hfold entries empty sorted_empty

end TextMap

end ClientRoutes
