import ClientRoutes.Text.Edit

/-
  Type expressions.

  An expression is a name, an array, a union or a record of values of one type.
  `print` writes it down: an array puts its item type in parentheses if that
  contains a blank.
-/

namespace ClientRoutes

/-- A type of the generated code. -/
inductive TypeExpr where
  | name (text : String)
  | array (item : TypeExpr)
  | union (variants : List TypeExpr)
  | record (value : TypeExpr)
  deriving Repr, Inhabited

namespace TypeExpr

/-- The text of an array of items of a type. -/
def printArray (item : String) : String :=
  if item.toList.contains ' ' then "(" ++ item ++ ")[]" else item ++ "[]"

mutual

/-- The text of a type. -/
def print : TypeExpr → String
  | .name text => text
  | .array item => printArray (print item)
  | .union variants => " | ".intercalate (printAll variants)
  | .record value => "Record<string, " ++ print value ++ ">"

def printAll : List TypeExpr → List String
  | [] => []
  | t :: rest => print t :: printAll rest

end

end TypeExpr

end ClientRoutes
