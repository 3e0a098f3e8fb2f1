import ClientRoutes.Text.Edit

/-
  Path templates such as `/users/{userId}/posts`.

  A template is read segment by segment; empty segments do not count. A segment
  with an opening brace stands for a parameter, and one that is nothing but a
  name in braces is the placeholder of that parameter.
-/

namespace ClientRoutes.Template

/-- The parts of a path between its slashes, empty ones included. -/
def parts (path : String) : List String :=
  (Text.split '/' path.toList).map String.ofList

/-- The segments of a path. -/
def segments (path : String) : List String :=
  (parts path).filter (!·.isEmpty)

/-- Whether a segment stands for a parameter. -/
def isParameter (segment : String) : Bool := segment.toList.contains '\x7b'

/-- A segment without braces. -/
def withoutBraces (segment : String) : String := Text.without ['\x7b', '\x7d'] segment

/-- A segment without braces and dollar signs. -/
def bare (segment : String) : String := Text.without ['$', '\x7b', '\x7d'] segment

/-- The name in a segment that is a name in braces. -/
def placeholder? (segment : String) : Option String :=
  (Text.stripPrefix? "\x7b" segment).bind (Text.stripSuffix? "\x7d")

/-- The placeholders of a path, in order. -/
def placeholders (path : String) : List String :=
  (parts path).filterMap placeholder?

/-- The first segment that names something: no parameter, and not `api`. -/
def resource? (path : String) : Option String :=
  (segments path).find? fun s => s != "api" && !isParameter s

end ClientRoutes.Template
