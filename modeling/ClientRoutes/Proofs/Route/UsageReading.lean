import ClientRoutes.Proofs.Route.UsageName
import Mathlib.Data.List.SplitBy

/-
  Reading the name of a request function back.

  In a name the ends of words are only marked by capitals, and what stood in braces is
  only marked by the word `By`. For plain templates, whose segments are words of small
  letters or such words in braces, this is enough: cut before each capital, take the
  first piece as the method, and take every `By` together with the piece behind it. A
  literal segment `by` would be read as the beginning of a placeholder; a placeholder of
  that name is read as it should be, since it always comes second.

  What is proved:
    1. `readSegments_append` — the first segment is read off the pieces.
    2. `cut_usageOf` — the pieces of a name are the method and the words in capitals.
    3. `read?_usageOf` — method and segments are read back from a name.
    4. `usageOf_eq_iff` — plain templates share a name only if method and segments are
       the same.
-/

namespace ClientRoutes.RouteName

open Casing Text Text.Letter

/-- A segment of a plain template: a word of small letters other than `by`, or a word of
small letters in braces. -/
inductive IsPlain : String → Prop
  | literal {w : String} (hne : w ≠ "") (hw : ∀ c ∈ w.toList, c.isLower = true)
      (hby : w ≠ "by") : IsPlain w
  | placeholder {w : String} (hne : w ≠ "") (hw : ∀ c ∈ w.toList, c.isLower = true) :
      IsPlain ("\x7b" ++ w ++ "\x7d")

/-- The pieces of a name, each with its capital in front. -/
def cut (name : String) : List (List Char) :=
  name.toList.splitBy fun _ d => kind d != .upper

/-- The segments that some pieces stand for. -/
def readSegments : List (List Char) → List String
  | [] => []
  | [w] => [String.ofList (w.map Char.toLower)]
  | v :: w :: rest =>
    if v = "By".toList then
      ("\x7b" ++ String.ofList (w.map Char.toLower) ++ "\x7d") :: readSegments rest
    else String.ofList (v.map Char.toLower) :: readSegments (w :: rest)

/-- The method and the segments that a name stands for. -/
def read? (name : String) : Option (Method × List String) :=
  match cut name with
  | [] => none
  | method :: pieces =>
    (Method.ofText? (String.ofList method)).map fun m => (m, readSegments pieces)

/-- The words that a segment adds to a name, in capitals. -/
def capitals (segment : String) : List (List Char) :=
  (words (usageWord segment).toList).map capitalize

/-! ## Words of small letters -/

section
variable {w : List Char} (hw : ∀ c ∈ w, c.isLower = true)
include hw

theorem ascii_of_isLower : IsAscii w := by
  intro c hc
  have hbounds : (decide ('a'.val ≤ c.val) && decide (c.val ≤ 'z'.val)) = true := hw c hc
  have hle : c.toNat ≤ 122 := of_decide_eq_true (Bool.and_eq_true_iff.1 hbounds).2
  omega

theorem kind_of_isLower : ∀ c ∈ w, kind c = .lower := by
  intro c hc
  exact ascii_forall (p := fun c => c.isLower = true → kind c = .lower) (by decide +kernel)
    (ascii_of_isLower hw c hc) (hw c hc)

theorem toLower_of_isLower : w.map Char.toLower = w := by
  have hsame : ∀ c ∈ w, c.toLower = id c := fun c hc =>
    (asciiCase (ascii_of_isLower hw c hc)).toLower_eq (by simp [kind_of_isLower hw c hc])
  rw [List.map_congr_left hsame, List.map_id]

/-- Small letters come back from their capitals. -/
theorem toLower_capitalize : (capitalize w).map Char.toLower = w := by
  rw [map_toLower_capitalize (ascii_of_isLower hw), toLower_of_isLower hw]

theorem not_mem_of_isLower {c : Char} (hc : c.isLower = false) : c ∉ w := by
  intro hmem
  rw [hw c hmem] at hc
  cases hc

end

/-! ## One segment -/

theorem capitals_literal {w : String} (hne : w ≠ "") (hw : ∀ c ∈ w.toList, c.isLower = true) :
    capitals w = [capitalize w.toList] := by
  have hliteral : Template.isParameter w = false := by
    simpa [Template.isParameter] using not_mem_of_isLower hw (by decide)
  rw [capitals, words_usageWord, if_neg (by simp [hliteral]),
    words_of_lower (by simpa using hne) (kind_of_isLower hw), List.map_singleton]

theorem capitals_placeholder {w : String} (hne : w ≠ "")
    (hw : ∀ c ∈ w.toList, c.isLower = true) :
    capitals ("\x7b" ++ w ++ "\x7d") = ["By".toList, capitalize w.toList] := by
  have hparameter : Template.isParameter ("\x7b" ++ w ++ "\x7d") = true := by
    simp [Template.isParameter]
  have hbare : Template.withoutBraces ("\x7b" ++ w ++ "\x7d") = w := by
    have hinside : w.toList.filter (fun c => !(['\x7b', '\x7d'].contains c)) = w.toList := by
      apply List.filter_eq_self.2
      intro c hc
      have hfront : c ≠ '\x7b' := fun h => not_mem_of_isLower hw (by decide) (h ▸ hc)
      have hback : c ≠ '\x7d' := fun h => not_mem_of_isLower hw (by decide) (h ▸ hc)
      simp [hfront, hback]
    rw [← String.toList_inj, Template.withoutBraces, toList_without, String.toList_append,
      String.toList_append, List.filter_append, List.filter_append, hinside]
    simp
  have hby : capitalize "By".toList = "By".toList := by decide +kernel
  rw [capitals, words_usageWord, if_pos hparameter, hbare,
    words_of_lower (by simpa using hne) (kind_of_isLower hw), List.map_cons, List.map_singleton,
    hby]

/-- A segment is read off the front of the pieces. -/
theorem readSegments_append {segment : String} (h : IsPlain segment) (pieces : List (List Char)) :
    readSegments (capitals segment ++ pieces) = segment :: readSegments pieces := by
  cases h with
  | literal hne hw hby =>
    have hread : String.ofList ((capitalize segment.toList).map Char.toLower) = segment := by
      rw [toLower_capitalize hw, String.ofList_toList]
    rw [capitals_literal hne hw, List.singleton_append]
    cases pieces with
    | nil => simp only [readSegments, hread]
    | cons v rest =>
      -- Only the word `by` becomes `By`.
      have hnot : capitalize segment.toList ≠ "By".toList := by
        intro heq
        rw [heq] at hread
        exact hby hread.symm
      rw [readSegments, if_neg hnot, hread]
  | @placeholder w hne hw =>
    have hread : String.ofList ((capitalize w.toList).map Char.toLower) = w := by
      rw [toLower_capitalize hw, String.ofList_toList]
    rw [capitals_placeholder hne hw, List.cons_append, List.singleton_append, readSegments,
      if_pos rfl, hread]

theorem readSegments_flatMap {segments : List String} (h : ∀ s ∈ segments, IsPlain s) :
    readSegments (segments.flatMap capitals) = segments := by
  induction segments with
  | nil => rfl
  | cons s segments ih =>
    obtain ⟨hs, hrest⟩ := List.forall_mem_cons.1 h
    rw [List.flatMap_cons, readSegments_append hs, ih hrest]

/-! ## The pieces of a name -/

/-- A capital and small letters. -/
def IsPiece (w : List Char) : Prop :=
  ∃ u l, w = u :: l ∧ kind u = .upper ∧ ∀ c ∈ l, kind c = .lower

theorem isPiece_capitalize {w : List Char} (hne : w ≠ []) (hw : ∀ c ∈ w, c.isLower = true) :
    IsPiece (capitalize w) := by
  have hascii := ascii_of_isLower hw
  have hkind := kind_of_isLower hw
  obtain ⟨c, l, rfl⟩ := List.exists_cons_of_ne_nil hne
  obtain ⟨-, hl⟩ := List.forall_mem_cons.1 hw
  refine ⟨c.toUpper, l, ?_, ?_, fun d hd => hkind d (by simp [hd])⟩
  · rw [capitalize_of_ascii hascii, toLower_of_isLower hl]
  · exact (asciiCase (hascii c (by simp))).kind_toUpper (by rw [hkind c (by simp)]; rfl)

theorem isPiece_of_mem_capitals {segment : String} (h : IsPlain segment) :
    ∀ w ∈ capitals segment, IsPiece w := by
  have hby : IsPiece "By".toList := ⟨'B', ['y'], rfl, by decide +kernel,
    List.forall_mem_singleton.2 (by decide +kernel)⟩
  cases h with
  | literal hne hw _ =>
    rw [capitals_literal hne hw]
    simpa using isPiece_capitalize (by simpa using hne) hw
  | placeholder hne hw =>
    rw [capitals_placeholder hne hw]
    simpa using ⟨hby, isPiece_capitalize (by simpa using hne) hw⟩

/-- Pieces behind a word without capitals are cut apart again. -/
theorem splitBy_pieces {w : List Char} (hne : w ≠ []) (hw : ∀ c ∈ w, kind c = .lower)
    {pieces : List (List Char)} (h : ∀ p ∈ pieces, IsPiece p) :
    (w ++ pieces.flatten).splitBy (fun _ d => kind d != .upper) = w :: pieces := by
  have hchain : ∀ s : List Char, (∀ c ∈ s, kind c = .lower) → ∀ c : Char,
      (c :: s).IsChain fun _ d => (kind d != .upper) = true := by
    intro s hs
    induction s with
    | nil => exact fun c => .singleton c
    | cons d s ih =>
      obtain ⟨hd, hs⟩ := List.forall_mem_cons.1 hs
      exact fun c => .cons_cons (by simp [hd]) (ih hs d)
  rw [← List.flatten_cons]
  apply List.splitBy_flatten
  · rintro hmem
    rcases List.mem_cons.1 hmem with rfl | hmem
    · exact hne rfl
    · obtain ⟨u, l, hnil, -⟩ := h [] hmem
      cases hnil
  · refine List.forall_mem_cons.2 ⟨?_, fun p hp => ?_⟩
    · obtain ⟨c, s, rfl⟩ := List.exists_cons_of_ne_nil hne
      exact hchain s (List.forall_mem_cons.1 hw).2 c
    · obtain ⟨u, l, rfl, -, hl⟩ := h p hp
      exact hchain l hl u
  · -- Every piece but the first begins with a capital.
    clear hw
    induction pieces generalizing w with
    | nil => exact .singleton w
    | cons p pieces ih =>
      obtain ⟨hp, hpieces⟩ := List.forall_mem_cons.1 h
      obtain ⟨u, l, rfl, hu, -⟩ := hp
      exact .cons_cons ⟨hne, List.cons_ne_nil u l, by simp [hu]⟩ (ih (List.cons_ne_nil u l) hpieces)

theorem cut_usageOf (m : Method) {path : String} (h : ∀ s ∈ Template.segments path, IsPlain s) :
    cut (usageOf m path) = m.name.toList :: (Template.segments path).flatMap capitals := by
  have hpieces : ∀ p ∈ (Template.segments path).flatMap capitals, IsPiece p := by
    intro p hp
    obtain ⟨s, hs, hp⟩ := List.mem_flatMap.1 hp
    exact isPiece_of_mem_capitals (h s hs) p hp
  have hflatten : ((Template.segments path).flatMap capitals).flatten =
      capitalized (pathText path) := by
    rw [capitalized_eq_flatten, words_pathText, List.map_flatMap]
    rfl
  rw [cut, toList_usageOf, ← hflatten]
  exact splitBy_pieces (by cases m <;> decide) kind_of_mem_name hpieces

/-! ## The name -/

theorem read?_usageOf (m : Method) {path : String}
    (h : ∀ s ∈ Template.segments path, IsPlain s) :
    read? (usageOf m path) = some (m, Template.segments path) := by
  rw [read?, cut_usageOf m h]
  dsimp only
  rw [String.ofList_toList, Method.ofText?_name, readSegments_flatMap h]
  rfl

/-- Plain templates share the name of their request functions exactly if they have the
same method and the same segments. -/
theorem usageOf_eq_iff {m n : Method} {p q : String} (hp : ∀ s ∈ Template.segments p, IsPlain s)
    (hq : ∀ s ∈ Template.segments q, IsPlain s) :
    usageOf m p = usageOf n q ↔ m = n ∧ Template.segments p = Template.segments q := by
  constructor
  · intro h
    have hread : some (m, Template.segments p) = some (n, Template.segments q) := by
      rw [← read?_usageOf m hp, ← read?_usageOf n hq, h]
    exact Prod.mk.inj (Option.some.inj hread)
  · rintro ⟨rfl, h⟩
    rw [usageOf, usageOf, h]

/-- Single letters are told from the word they make up, and a placeholder `by` is read
as one. -/
theorem usageOf_eq_iff_letters :
    (∀ s ∈ Template.segments "/a/b/\x7bby\x7d", IsPlain s) ∧
      (∀ s ∈ Template.segments "/ab/\x7bby\x7d", IsPlain s) ∧
      usageOf .get "/a/b/\x7bby\x7d" = "getABByBy" ∧ usageOf .get "/ab/\x7bby\x7d" = "getAbByBy" ∧
      ¬usageOf .get "/a/b/\x7bby\x7d" = usageOf .get "/ab/\x7bby\x7d" := by
  have hby : IsPlain "\x7bby\x7d" :=
    .placeholder (w := "by") (by decide) (List.all_eq_true.1 (by decide))
  have hplain : ∀ w : String, w ≠ "" → w ≠ "by" → w.toList.all Char.isLower = true → IsPlain w :=
    fun w hne hnot hw => .literal hne (List.all_eq_true.1 hw) hnot
  have hletters : ∀ s ∈ Template.segments "/a/b/\x7bby\x7d", IsPlain s := by
    have hsegments : Template.segments "/a/b/\x7bby\x7d" = ["a", "b", "\x7bby\x7d"] := by decide
    rw [hsegments]
    simp only [List.forall_mem_cons]
    exact ⟨hplain "a" (by decide) (by decide) (by decide),
      hplain "b" (by decide) (by decide) (by decide), hby, nofun⟩
  have hword : ∀ s ∈ Template.segments "/ab/\x7bby\x7d", IsPlain s := by
    have hsegments : Template.segments "/ab/\x7bby\x7d" = ["ab", "\x7bby\x7d"] := by decide
    rw [hsegments]
    simp only [List.forall_mem_cons]
    exact ⟨hplain "ab" (by decide) (by decide) (by decide), hby, nofun⟩
  refine ⟨hletters, hword, by decide +kernel, by decide +kernel, ?_⟩
  rw [usageOf_eq_iff hletters hword]
  decide

end ClientRoutes.RouteName
