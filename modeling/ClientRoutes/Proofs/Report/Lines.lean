import ClientRoutes.Report.Text
import Mathlib.Data.List.Basic

/-
  The lines of a report in words.

  A report is written as one text. Here its pieces are lists of lines, read off the report,
  and each printer is shown to write just the lines of its piece.

  What is proved:
    1. `RouteReport.text_eq_unlines` — a block is the line of its route, a line for each
       value that is there, and an empty line.
    2. `Report.head_eq_unlines`, `Report.sectionHead_eq_unlines` — the lines in front of the
       sections, and those about a module.
-/

namespace ClientRoutes

/-- Some lines as one text. -/
def unlines (lines : List String) : String := String.join (lines.map (· ++ "\n"))

theorem unlines_nil : unlines [] = "" := rfl

theorem unlines_cons (line : String) (lines : List String) :
    unlines (line :: lines) = line ++ "\n" ++ unlines lines := by
  rw [unlines, List.map_cons, String.join_cons]
  rfl

theorem unlines_append (lines more : List String) :
    unlines (lines ++ more) = unlines lines ++ unlines more := by
  rw [unlines, List.map_append, String.join_append]
  rfl

/-- An empty line is what stands between two line ends. -/
theorem empty_line : "\n\n" = "\n" ++ ("" ++ "\n") := rfl

theorem unlines_toList (f : String → String) (value : Option String) :
    unlines (value.map f).toList = (value.map fun v => f v ++ "\n").getD "" := by
  cases value with
  | none => rfl
  | some v => rfl

theorem unlines_flatMap {α : Type} (f : α → List String) (as : List α) :
    unlines (as.flatMap f) = String.join (as.map fun a => unlines (f a)) := by
  induction as with
  | nil => rfl
  | cons a as ih => rw [List.flatMap_cons, unlines_append, ih, List.map_cons, String.join_cons]

/-! ## Blocks -/

namespace RouteReport

/-- The labels of a block, each with the value that it stands for if there is one. -/
def fields (r : RouteReport) : List (String × Option String) :=
  [("", some r.signature), ("key:      ", some r.hooks.query.keyFunction),
    ("hooks:    ", some r.hookNames), ("payload:  ", r.call.request.validator.expression),
    ("response: ", r.call.response.validator.expression), ("invalidates: ", r.invalidates?),
    ("staleTime: ", r.hooks.staleTime.map timing), ("gcTime: ", r.hooks.gcTime.map timing)]

/-- The lines of a block: that of the route, one for each value that is there, and an empty
one. -/
def lines (r : RouteReport) : List String :=
  ("  " ++ r.method.capitals ++ " " ++ r.path ++ "  [" ++ r.name.identifier ++ "]") ::
    r.fields.filterMap (fun (label, value) => value.map fun v => "    " ++ label ++ v) ++ [""]

theorem unlines_values (fields : List (String × Option String)) :
    unlines (fields.filterMap fun (label, value) => value.map fun v => "    " ++ label ++ v) =
      String.join (fields.map fun (label, value) => line? label value) := by
  rw [List.filterMap_eq_flatMap_toList, unlines_flatMap]
  simp only [unlines_toList]
  rfl

/-- The line of a route ends behind the bracket. -/
theorem title_eq (r : RouteReport) :
    r.title =
      "  " ++ r.method.capitals ++ " " ++ r.path ++ "  [" ++ r.name.identifier ++ "]" ++ "\n" := by
  rw [String.append_assoc]
  rfl

/-- The block of a route is written line by line. -/
theorem text_eq_unlines (r : RouteReport) : r.text = unlines r.lines := by
  rw [lines, List.cons_append, unlines_cons, unlines_append, unlines_values, ← title_eq]
  simp only [text, fields, line?, Option.map_some, Option.getD_some, List.map_cons, List.map_nil,
    String.join_cons, String.join_nil, String.append_assoc, String.empty_append]
  rfl

end RouteReport

/-! ## Heads -/

namespace Report

/-- The first lines of a report, down to the version. -/
def opening (r : Report) : List String :=
  ["Route Configuration Report", "==========================", "",
    "Document:   " ++ r.document] ++ (r.title.map ("Title:      " ++ ·)).toList ++
      ["Version:    " ++ r.version]

/-- The lines with the numbers of routes, modules and query keys. -/
def numbers (routes modules keys : Nat) : List String :=
  ["Routes:     " ++ toString routes, "Modules:    " ++ toString modules,
    "Query keys: " ++ toString keys, ""]

theorem head_eq_unlines (r : Report) :
    r.head = unlines (r.opening ++ numbers r.routes.length r.modules.length r.keyCount) := by
  have hfirst : "Route Configuration Report\n==========================\n\n" =
      "Route Configuration Report" ++ ("\n" ++ ("==========================" ++
        ("\n" ++ ("" ++ "\n")))) := rfl
  unfold head opening numbers
  rw [hfirst, empty_line]
  simp only [unlines_append, unlines_cons, unlines_nil, unlines_toList, String.append_assoc,
    String.append_empty]

/-- The lines about a module. -/
def moduleLines (m : ModuleReport) : List String :=
  ["Module " ++ m.name ++ " (" ++ m.names.apiClass ++ ")", underline m.name,
    "  instance:      " ++ m.names.apiInstance, "  query keys:    " ++ m.names.queryKeyObject,
    "  mutation keys: " ++ m.names.mutationKeyObject,
    "  imports:       queries -> api " ++ m.imports.queriesToApi,
    "                 api -> dto " ++ m.imports.apiToDto, ""]

theorem sectionHead_eq_unlines (m : ModuleReport) : sectionHead m = unlines (moduleLines m) := by
  have hclose : ")\n" = ")" ++ "\n" := rfl
  unfold sectionHead moduleLines
  rw [hclose, empty_line]
  simp only [unlines_cons, unlines_nil, String.append_assoc, String.append_empty]

end Report

end ClientRoutes
