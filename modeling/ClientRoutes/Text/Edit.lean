import ClientRoutes.Text.Letter

/-
  Small edits of texts.

  All of them work on the characters of a text from left to right.

  What is proved:
    1. `toList_without`, `toList_replaceChar` — what the edits do, character by
       character.
    2. `split_ne_nil` — a text always has at least one part.
-/

namespace ClientRoutes.Text

/-- The parts of a text between occurrences of a separator. -/
def split (separator : Char) : List Char → List (List Char)
  | [] => [[]]
  | c :: rest =>
    if c = separator then [] :: split separator rest
    else match split separator rest with
      | [] => [[c]]
      | part :: parts => (c :: part) :: parts

/-- A text without some characters. -/
def without (cs : List Char) (s : String) : String :=
  String.ofList (s.toList.filter fun c => !cs.contains c)

/-- A text with one character in place of another. -/
def replaceChar (old new : Char) (s : String) : String :=
  String.ofList (s.toList.map fun c => if c = old then new else c)

/-- A text in capitals. -/
def toUpper (s : String) : String := String.ofList (Letter.upperText s.toList)

/-- What follows a given front of a text. -/
def stripPrefix? (front s : String) : Option String :=
  (front.toList.isPrefixOf? s.toList).map String.ofList

/-- What precedes a given end of a text. -/
def stripSuffix? (tail s : String) : Option String :=
  (tail.toList.isSuffixOf? s.toList).map String.ofList

/-- Whether a text begins with a given front. -/
def startsWith (front s : String) : Bool := front.toList.isPrefixOf s.toList

/-- Whether a text ends with a given tail. -/
def endsWith (tail s : String) : Bool := tail.toList.isSuffixOf s.toList

/-- Whether some characters stand next to each other in a text. -/
def containsChars (needle : List Char) : List Char → Bool
  | [] => needle.isEmpty
  | c :: rest => needle.isPrefixOf (c :: rest) || containsChars needle rest

/-- Whether a text occurs in another one. -/
def contains (needle s : String) : Bool := containsChars needle.toList s.toList

/-- Replaces the occurrences of a pattern from left to right, after passing
`skipped` characters that belong to the occurrence before. -/
def replaceFrom (pattern replacement : List Char) : Nat → List Char → List Char
  | _, [] => []
  | skipped + 1, _ :: rest => replaceFrom pattern replacement skipped rest
  | 0, c :: rest =>
    if pattern.isPrefixOf (c :: rest) then
      replacement ++ replaceFrom pattern replacement (pattern.length - 1) rest
    else c :: replaceFrom pattern replacement 0 rest

/-- A text with every occurrence of a non-empty pattern replaced. -/
def replaceAll (pattern replacement s : String) : String :=
  String.ofList (replaceFrom pattern.toList replacement.toList 0 s.toList)

/-- Whether two texts differ at most in the case of ASCII letters. -/
def sameIgnoringCase (s t : String) : Bool :=
  s.toList.map Char.toLower == t.toList.map Char.toLower

/-- A text filled up with blanks on the right to a number of characters. -/
def padRight (width : Nat) (s : String) : String :=
  s ++ String.ofList (List.replicate (width - s.length) ' ')

@[simp] theorem toList_without (cs : List Char) (s : String) :
    (without cs s).toList = s.toList.filter fun c => !cs.contains c := by
  simp [without]

@[simp] theorem toList_replaceChar (old new : Char) (s : String) :
    (replaceChar old new s).toList = s.toList.map fun c => if c = old then new else c := by
  simp [replaceChar]

theorem split_ne_nil (separator : Char) (s : List Char) : split separator s ≠ [] := by
  cases s with
  | nil => simp [split]
  | cons c rest =>
    rw [split]
    split
    · simp
    · split <;> simp

end ClientRoutes.Text
