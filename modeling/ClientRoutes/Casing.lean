import ClientRoutes.Text.Letter

/-
  Words of an identifier, and the two casings built from them.

  A word is a capital letter followed by small letters, a run of small letters,
  a run of capitals, a run of digits, or a run of letters without case. A run of
  capitals before a small letter leaves its last capital to the next word
  (`HTMLParser` is `HTML`, `Parser`). All other characters separate words and
  are dropped.

  `words` reads from the right: a character either joins the word that begins
  right behind it or is a word of its own.

  What is proved:
    1. `flatten_words` — the words hold the word characters of the text, in
       order, and nothing else.
    2. `ne_nil_of_mem_words` — no word is empty.
-/

namespace ClientRoutes.Casing

open ClientRoutes.Text

/-- Whether a character of kind `k` belongs to the word `w` that begins right
behind it. A capital joins small letters and a run of capitals, but not a word
of a capital and small letters. -/
def joins (k : Letter.Kind) (w : List Char) : Bool :=
  match w with
  | [] => false
  | d :: rest =>
    match k, Letter.kind d with
    | .upper, .lower => true
    | .upper, .upper => rest.head?.all fun e => Letter.kind e == .upper
    | k, k' => k == k'

/-- Whether a word begins at the very front of a text. -/
def startsWord (s : List Char) : Bool :=
  s.head?.any Letter.isWordChar

/-- The words of a text, in order. -/
def words : List Char → List (List Char)
  | [] => []
  | c :: s =>
    if Letter.isWordChar c then
      match words s with
      | [] => [[c]]
      | w :: ws =>
        if startsWord s && joins (Letter.kind c) w then (c :: w) :: ws
        else [c] :: w :: ws
    else words s

/-- A word with a capital in front and small letters behind it. -/
def capitalize : List Char → List Char
  | [] => []
  | c :: rest => Letter.upper c ++ Letter.lowerText rest

/-- The words of `get_users_By_userId` written as `getUsersByUserId`. -/
def camelCase (s : String) : String :=
  String.ofList <| match words s.toList with
    | [] => []
    | w :: ws => Letter.lowerWord w ++ ws.flatMap capitalize

/-- The words of `getUsers_query_params` written as `GetUsersQueryParams`. -/
def pascalCase (s : String) : String :=
  String.ofList ((words s.toList).flatMap capitalize)

theorem flatten_words (s : List Char) : (words s).flatten = s.filter Letter.isWordChar := by
  induction s with
  | nil => rfl
  | cons c s ih =>
    rw [words]
    by_cases hc : Letter.isWordChar c = true
    · rw [if_pos hc, List.filter_cons_of_pos hc, ← ih]
      cases words s with
      | nil => rfl
      | cons w ws => dsimp only; split <;> simp
    · rw [if_neg hc, List.filter_cons_of_neg hc, ih]

theorem ne_nil_of_mem_words {s w : List Char} (h : w ∈ words s) : w ≠ [] := by
  induction s generalizing w with
  | nil => simp [words] at h
  | cons c s ih =>
    rw [words] at h
    split at h
    · cases hw : words s with
      | nil => simp_all
      | cons v vs =>
        rw [hw] at h
        dsimp only at h
        split at h
        · rcases List.mem_cons.1 h with rfl | h
          · simp
          · exact ih (by simp [hw, h])
        · rcases List.mem_cons.1 h with rfl | h
          · simp
          · exact ih (by simpa [hw] using h)
    · exact ih h

end ClientRoutes.Casing
