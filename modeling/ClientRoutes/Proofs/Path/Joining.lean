import ClientRoutes.Path.Text
import ClientRoutes.Proofs.Path.Reading

/-
  Paths that are joined as they are written.

  Texts of paths are put together with a slash between them. What is read from the
  result leads where the second path leads from the first one. A `.` in front of
  the second path is lost on the way, and it says nothing.

  What is proved:
    1. `foldl_ofText` — a path leads where the parts of its text lead.
    2. `normalize_ofText_join` — joining texts joins paths.
-/

namespace ClientRoutes.Path

theorem foldl_stepsOf (parts : List (List Char)) (base : List Step) :
    (stepsOf parts).foldl advance base =
      (parts.filterMap (Step.ofPart? false)).foldl advance base := by
  rcases stepsOf_eq_or parts with h | h
  · rw [h]
  · rw [h]
    rfl

/-- A path leads from everywhere where the parts of its text lead. -/
theorem foldl_ofText (s : String) (base : List Step) :
    (ofText s).steps.foldl advance base =
      ((Text.split '/' s.toList).filterMap (Step.ofPart? false)).foldl advance base :=
  foldl_stepsOf _ base

theorem foldl_ofText_slash (front back : String) (base : List Step) :
    (ofText (front ++ "/" ++ back)).steps.foldl advance base =
      (ofText back).steps.foldl advance ((ofText front).steps.foldl advance base) := by
  have hchars : (front ++ "/" ++ back).toList = front.toList ++ '/' :: back.toList := by
    rw [String.toList_append, String.toList_append, List.append_assoc]
    rfl
  rw [foldl_ofText, foldl_ofText, foldl_ofText, hchars, Text.split_append, List.filterMap_append,
    List.foldl_append]

/-- What stands behind a text that is not empty does not make it absolute. -/
theorem absolute_ofText_append {front : String} (hne : front ≠ "") (back : String) :
    (ofText (front ++ back)).absolute = (ofText front).absolute := by
  have hchars : front.toList ≠ [] := fun hnil => hne (String.toList_injective hnil)
  unfold ofText
  rw [String.toList_append, List.head?_append_of_ne_nil _ hchars]

/-- A relative path is joined by a slash, which the directory may bring along. -/
theorem exists_join_eq {directory path : String} (hne : directory ≠ "")
    (hrelative : PathText.isAbsolute path = false) :
    ∃ front, PathText.join directory path = front ++ "/" ++ path ∧
      (directory = front ∨ directory = front ++ "/") := by
  have hnonempty : directory.isEmpty = false := by simpa using hne
  unfold PathText.join
  rw [hrelative, hnonempty]
  by_cases hslash : directory.toList.getLast? = some '/'
  · obtain ⟨front, hfront⟩ := List.getLast?_eq_some_iff.1 hslash
    have hdirectory : directory = String.ofList front ++ "/" := by
      apply String.toList_injective
      rw [hfront, String.toList_append, String.toList_ofList]
      rfl
    refine ⟨String.ofList front, ?_, .inr hdirectory⟩
    simp only [hslash, Bool.or_self, Bool.false_eq_true, if_false, beq_self_eq_true, if_true]
    rw [← hdirectory]
  · refine ⟨directory, ?_, .inl rfl⟩
    simp [hslash]

/-- The path of a joined text leads where the joined paths lead. -/
theorem normalize_ofText_join (directory path : String) :
    (ofText (PathText.join directory path)).normalize =
      ((ofText directory).join (ofText path)).normalize := by
  by_cases habs : (ofText path).absolute = true
  · rw [PathText.join_absolute directory habs, join, if_pos habs]
  have hrelative : (ofText path).absolute = false := by simpa using habs
  by_cases hempty : directory = ""
  · subst hempty
    have hpath : (⟨false, (ofText path).steps⟩ : Path) = ofText path := by
      rw [← hrelative]
    rw [PathText.join_empty, join, hrelative]
    exact congrArg normalize hpath.symm
  obtain ⟨front, hjoin, hdirectory⟩ := exists_join_eq hempty hrelative
  have hsteps : ∀ base, (ofText directory).steps.foldl advance base =
      (ofText front).steps.foldl advance base := by
    intro base
    rcases hdirectory with rfl | rfl
    · rfl
    · have hslash := foldl_ofText_slash front "" base
      rwa [String.append_empty] at hslash
  have habsolute : (ofText (front ++ "/" ++ path)).absolute = (ofText directory).absolute := by
    rcases hdirectory with rfl | rfl
    · rw [String.append_assoc]
      exact absolute_ofText_append hempty _
    · exact absolute_ofText_append hempty path
  calc (ofText (PathText.join directory path)).normalize
      = ⟨(ofText directory).absolute,
          (ofText path).steps.foldl advance ((ofText directory).steps.foldl advance [])⟩ := by
        rw [hjoin, normalize, habsolute, foldl_ofText_slash, hsteps]
    _ = ((ofText directory).join (ofText path)).normalize := by
        simp [join, normalize, hrelative, List.foldl_append]

end ClientRoutes.Path
