/-
  Association lists in the order in which their keys were first set.

  `set` gives a key its value in place if the key is there, and at the end if it
  is not. Values are found with `List.lookup`.

  What is proved:
    1. `lookup_set_self`, `lookup_set_of_ne` — setting a key changes the value of
       that key and no other.
    2. `keys_set` — setting a key keeps the order of the keys.
-/

namespace ClientRoutes.Assoc

variable {κ α : Type} [DecidableEq κ]

/-- Gives a key a value: in place if the key is there, else at the end. -/
def set (key : κ) (value : α) : List (κ × α) → List (κ × α)
  | [] => [(key, value)]
  | (k, v) :: rest => if k = key then (k, value) :: rest else (k, v) :: set key value rest

theorem lookup_set_self (key : κ) (value : α) (entries : List (κ × α)) :
    (set key value entries).lookup key = some value := by
  induction entries with
  | nil => simp [set]
  | cons e rest ih =>
    obtain ⟨k, v⟩ := e
    rw [set]
    by_cases h : k = key
    · subst h; simp
    · have h' : (key == k) = false := by simpa using fun e => h e.symm
      simp [h, List.lookup_cons, h', ih]

theorem lookup_set_of_ne {key other : κ} (h : other ≠ key) (value : α)
    (entries : List (κ × α)) : (set key value entries).lookup other = entries.lookup other := by
  induction entries with
  | nil =>
    have h' : (other == key) = false := by simpa using h
    simp [set, List.lookup_cons, h']
  | cons e rest ih =>
    obtain ⟨k, v⟩ := e
    rw [set]
    by_cases hk : k = key
    · subst hk
      have h' : (other == k) = false := by simpa using h
      simp [List.lookup_cons, h']
    · simp only [hk, if_false, List.lookup_cons]
      split <;> simp [ih]

theorem keys_set (key : κ) (value : α) (entries : List (κ × α)) :
    (set key value entries).map Prod.fst =
      if key ∈ entries.map Prod.fst then entries.map Prod.fst
      else entries.map Prod.fst ++ [key] := by
  induction entries with
  | nil => simp [set]
  | cons e rest ih =>
    obtain ⟨k, v⟩ := e
    rw [set]
    by_cases h : k = key
    · subst h; simp
    · have h' : key ≠ k := fun e => h e.symm
      simp only [h, if_false, List.map_cons, ih, List.mem_cons, h', false_or]
      split <;> simp

end ClientRoutes.Assoc
