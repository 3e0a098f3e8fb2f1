import ClientRoutes.Proofs.Text.Edit
import ClientRoutes.Proofs.Text.Letter
import ClientRoutes.Route.Template

/-
  The characters of the segments of a path.

  What is proved:
    1. `mem_of_mem_segments` — they are characters of the path, and no slashes.
    2. `isAscii_of_mem_segments` — a path of ASCII has segments of ASCII.
-/

namespace ClientRoutes.Template

open Text Text.Letter

theorem mem_of_mem_segments {path segment : String} (h : segment ∈ segments path) {c : Char}
    (hc : c ∈ segment.toList) : c ∈ path.toList ∧ c ≠ '/' := by
  obtain ⟨part, hpart, rfl⟩ := List.mem_map.1 (List.mem_of_mem_filter h)
  rw [String.toList_ofList] at hc
  exact mem_of_mem_split hpart hc

theorem isAscii_of_mem_segments {path segment : String} (hpath : IsAscii path.toList)
    (h : segment ∈ segments path) : IsAscii segment.toList :=
  fun c hc => hpath c (mem_of_mem_segments h hc).1

end ClientRoutes.Template
