import ClientRoutes.Casing
import ClientRoutes.Text.Blank
import ClientRoutes.Text.Edit

/-
  Invalidation directives.

  A directive names the query key of a route, either bare (`USER_LIST`) or with
  references to arguments (`USER_DETAIL($parameters.userId, $parameters.$query)`).
  `print` writes a directive down again.
-/

namespace ClientRoutes

/-- A directive to fetch a route again. -/
structure Directive where
  key : String
  /-- The arguments as they are written; none for the bare form. -/
  arguments : Option (List String)
  deriving DecidableEq, Repr

/-- What an argument of a directive refers to. -/
inductive Reference where
  | queryParameters
  | parameter (path : String)
  | payload (path : String)
  | response (path : String)
  | unresolvable (token : String)
  deriving DecidableEq, Repr

namespace Reference

/-- What follows a given front of a token, if anything does. -/
def behind? (front token : String) : Option String :=
  (Text.stripPrefix? front token).filter (!·.isEmpty)

/-- What a token refers to. -/
def ofToken (token : String) : Reference :=
  let token := String.ofList (Text.trim token.toList)
  if token = "$parameters.$query" then .queryParameters
  else match behind? "$parameters." token with
    | some path => .parameter path
    | none =>
      match behind? "$payload." token with
      | some path => .payload path
      | none =>
        match behind? "$response." token with
        | some path => .response path
        | none => .unresolvable token

/-- The expression for a reference where the answer of a mutation is at hand. -/
def render? : Reference → Option String
  | .queryParameters => some "params"
  | .parameter path => some ("variables." ++ Casing.camelCase path)
  | .payload path => some ("data." ++ Casing.camelCase path)
  | .response path => some ("data." ++ Casing.camelCase path)
  | .unresolvable _ => none

end Reference

namespace Directive

/-- Whether a character may be part of a key. -/
def isKeyChar (c : Char) : Bool :=
  !Text.isBlank c && c != '(' && c != ')' && c != ',' && c != '[' && c != ']'

/-- Whether a text can be the key of a directive. -/
def isKey (s : List Char) : Bool := !s.isEmpty && s.all isKeyChar

/-- The arguments between the parentheses of a directive. -/
def arguments? (inner : List Char) : Option (List String) :=
  if inner.any fun c => c == '(' || c == ')' then none
  else some ((((Text.split ',' inner).map Text.trim).filter (!·.isEmpty)).map String.ofList)

/-- The directive a text without blanks around it gives. -/
def ofTrimmed? (s : List Char) : Option Directive :=
  match s.dropWhile (· != '(') with
  | [] => if isKey s then some ⟨String.ofList s, none⟩ else none
  | _ :: rest => do
    let inner ← [')'].isSuffixOf? rest
    let key := Text.trim (s.takeWhile (· != '('))
    if isKey key then
      let arguments ← arguments? inner
      return ⟨String.ofList key, some arguments⟩
    else none

/-- The directive a text gives, if it has one of the two forms. -/
def ofText? (s : String) : Option Directive := ofTrimmed? (Text.trim s.toList)

/-- The text of a directive. -/
def print (d : Directive) : String :=
  match d.arguments with
  | none => d.key
  | some arguments => d.key ++ "(" ++ ", ".intercalate arguments ++ ")"

end Directive

end ClientRoutes
