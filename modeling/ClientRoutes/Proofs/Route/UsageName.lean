import ClientRoutes.Proofs.Casing.Recasing
import ClientRoutes.Proofs.Route.Segments
import ClientRoutes.Route.Name

/-
  The name of a request function, segment by segment.

  The name is the camel case of one long text, in which underscores join the method and
  what each segment adds. An underscore belongs to no word, so the text falls apart into
  the words of its parts again, whatever characters the segments hold: the name is the
  method and then the Pascal case of one segment after the other.

  What is proved:
    1. `words_usageText` — the words of the text are the method and the words of the
       path.
    2. `toList_usageOf` — the name is the method and the path in Pascal case.
    3. `usageOf_spelled` — the name is put together from its segments, and for a path
       of ASCII it is an identifier.
-/

namespace ClientRoutes.RouteName

open Casing Text Text.Letter

/-- The text whose camel case is the name of the request function. -/
def usageText (method : Method) (path : String) : String :=
  "_".intercalate (method.name :: (Template.segments path).map usageWord)

/-- What the segments of a path add to that text. -/
def pathText (path : String) : List Char :=
  ['_'].intercalate ((Template.segments path).map fun s => (usageWord s).toList)

/-- What a segment adds to the name: its Pascal case, after `By` if it stands for a
parameter. -/
def spelling (segment : String) : String :=
  if Template.isParameter segment then "By" ++ pascalCase (Template.withoutBraces segment)
  else pascalCase segment

/-! ## The method -/

theorem kind_of_mem_name {m : Method} : ∀ c ∈ m.name.toList, kind c = .lower := by
  have hall : (m.name.toList.all fun c => kind c == .lower) = true := by
    cases m <;> decide +kernel
  intro c hc
  exact beq_iff_eq.1 (List.all_eq_true.1 hall c hc)

theorem words_name (m : Method) : words m.name.toList = [m.name.toList] :=
  words_of_lower (by cases m <;> decide) kind_of_mem_name

theorem lowerWord_name (m : Method) : lowerWord m.name.toList = m.name.toList := by
  cases m <;> decide +kernel

theorem camelChars_name (m : Method) : camelChars m.name.toList = m.name.toList := by
  rw [camelChars, words_name]
  exact (List.append_nil _).trans (lowerWord_name m)

theorem isAlpha_of_mem_name (m : Method) : ∀ c ∈ m.name.toList, c.isAlpha = true := by
  apply List.all_eq_true.1
  cases m <;> decide

/-! ## The path -/

theorem isWordChar_underscore : isWordChar '_' = false := by decide +kernel

theorem words_usageText (m : Method) (path : String) :
    words (usageText m path).toList = m.name.toList :: words (pathText path) := by
  have htext : (usageText m path).toList = ['_'].intercalate
      (m.name.toList :: (Template.segments path).map fun s => (usageWord s).toList) := by
    rw [usageText, String.toList_intercalate, List.map_cons, List.map_map]
    rfl
  rw [htext, pathText, words_intercalate isWordChar_underscore,
    words_intercalate isWordChar_underscore, List.flatMap_cons, words_name, List.singleton_append]

theorem words_usageWord (segment : String) :
    words (usageWord segment).toList =
      if Template.isParameter segment then
        "By".toList :: words (Template.withoutBraces segment).toList
      else words segment.toList := by
  unfold usageWord
  split
  · have hword : words "By".toList = ["By".toList] := by decide +kernel
    have hjoin : ("By_" ++ Template.withoutBraces segment).toList =
        ['_'].intercalate ["By".toList, (Template.withoutBraces segment).toList] := by
      rw [String.toList_append, List.intercalate_cons_cons, List.intercalate_singleton]
      rfl
    rw [hjoin, words_intercalate isWordChar_underscore, List.flatMap_cons, hword,
      List.flatMap_singleton, List.singleton_append]
  · rfl

theorem capitalized_usageWord (segment : String) :
    capitalized (usageWord segment).toList = (spelling segment).toList := by
  rw [capitalized, words_usageWord, spelling]
  split
  · have hby : capitalize "By".toList = "By".toList := by decide +kernel
    rw [List.flatMap_cons, hby, String.toList_append, toList_pascalCase, capitalized]
  · rw [toList_pascalCase, capitalized]

theorem words_pathText (path : String) :
    words (pathText path) =
      (Template.segments path).flatMap fun s => words (usageWord s).toList := by
  rw [pathText, words_intercalate isWordChar_underscore, List.flatMap_map]

theorem isAscii_usageWord {segment : String} (h : IsAscii segment.toList) :
    IsAscii (usageWord segment).toList := by
  unfold usageWord
  split
  · rw [String.toList_append, Template.withoutBraces, toList_without]
    intro c hc
    rcases List.mem_append.1 hc with hc | hc
    · exact (by decide : IsAscii "By_".toList) c hc
    · exact h c (List.mem_of_mem_filter hc)
  · exact h

theorem isAscii_pathText {path : String} (h : IsAscii path.toList) : IsAscii (pathText path) := by
  intro c hc
  rcases mem_of_mem_intercalate hc with hc | ⟨part, hpart, hc⟩
  · rw [List.mem_singleton.1 hc]
    decide
  · obtain ⟨segment, hsegment, rfl⟩ := List.mem_map.1 hpart
    exact isAscii_usageWord (Template.isAscii_of_mem_segments h hsegment) c hc

/-! ## The name -/

theorem toList_usageOf (m : Method) (path : String) :
    (usageOf m path).toList = m.name.toList ++ capitalized (pathText path) := by
  have husage : (usageOf m path).toList = camelChars (usageText m path).toList := toList_camelCase _
  rw [husage, camelChars, words_usageText]
  dsimp only
  rw [lowerWord_name, capitalized]

theorem capitalized_pathText (path : String) :
    capitalized (pathText path) =
      (Template.segments path).flatMap fun s => (spelling s).toList := by
  rw [capitalized, words_pathText, List.flatMap_assoc]
  exact List.flatMap_congr fun s _ => capitalized_usageWord s

theorem isAscii_usageOf (m : Method) {path : String} (hpath : IsAscii path.toList) :
    IsAscii (usageOf m path).toList ∧ ∀ c ∈ (usageOf m path).toList, isWordChar c = true := by
  have hname : IsAscii m.name.toList := by cases m <;> decide
  have hrest := isAscii_pathText hpath
  rw [toList_usageOf]
  constructor
  · intro c hc
    rcases List.mem_append.1 hc with hc | hc
    · exact hname c hc
    · exact isAscii_capitalized hrest c hc
  · intro c hc
    rcases List.mem_append.1 hc with hc | hc
    · simp [isWordChar, kind_of_mem_name c hc]
    · exact isWordChar_of_mem_capitalized hrest c hc

/-- In ASCII the characters of words are letters and digits. -/
theorem isAlphanum_of_isWordChar {c : Char} (hascii : c.toNat < 128) (hc : isWordChar c = true) :
    c.isAlphanum = true :=
  ascii_forall (p := fun c => isWordChar c = true → c.isAlphanum = true) (by decide +kernel)
    hascii hc

/-- The name of the request function is the method in small letters and then, segment by
segment, its Pascal case, with `By` in front of the Pascal case of what stands in the
braces of a parameter. So it begins with the method, and for a path of ASCII it is an
identifier of letters and digits that begins with a letter. -/
theorem usageOf_spelled (m : Method) (path : String) :
    usageOf m path = m.name ++ String.join ((Template.segments path).map spelling) ∧
    m.name.toList <+: (usageOf m path).toList ∧
    (IsAscii path.toList →
      (∃ c ∈ (usageOf m path).toList.head?, c.isAlpha = true) ∧
        ∀ c ∈ (usageOf m path).toList, c.isAlphanum = true) := by
  refine ⟨?_, ?_, fun h => ⟨?_, fun c hc => ?_⟩⟩
  · rw [← String.toList_inj, toList_usageOf, capitalized_pathText, String.toList_append,
      String.toList_join, List.flatMap_map]
  · rw [toList_usageOf]
    exact List.prefix_append _ _
  · obtain ⟨c, rest, hname⟩ : ∃ c rest, m.name.toList = c :: rest := by
      cases m <;> exact ⟨_, _, rfl⟩
    refine ⟨c, ?_, isAlpha_of_mem_name m c (by simp [hname])⟩
    rw [toList_usageOf, hname]
    rfl
  · obtain ⟨hascii, hword⟩ := isAscii_usageOf m h
    exact isAlphanum_of_isWordChar (hascii c hc) (hword c hc)

/-- `GET /user-groups/{groupId}/2fa` -/
theorem usageOf_spelled_groups :
    IsAscii "/user-groups/\x7bgroupId\x7d/2fa".toList ∧
      usageOf .get "/user-groups/\x7bgroupId\x7d/2fa" =
        "get" ++ String.join ["UserGroups", "ByGroupId", "2Fa"] ∧
      "get".toList <+: (usageOf .get "/user-groups/\x7bgroupId\x7d/2fa").toList ∧
      ∀ c ∈ (usageOf .get "/user-groups/\x7bgroupId\x7d/2fa").toList, c.isAlphanum = true := by
  have hascii : IsAscii "/user-groups/\x7bgroupId\x7d/2fa".toList := by decide
  obtain ⟨hname, hfront, hidentifier⟩ := usageOf_spelled .get "/user-groups/\x7bgroupId\x7d/2fa"
  have hspelled : (Template.segments "/user-groups/\x7bgroupId\x7d/2fa").map spelling =
      ["UserGroups", "ByGroupId", "2Fa"] := by decide +kernel
  rw [hspelled] at hname
  exact ⟨hascii, hname, hfront, (hidentifier hascii).2⟩

end ClientRoutes.RouteName
