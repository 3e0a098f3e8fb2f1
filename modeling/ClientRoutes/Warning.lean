import ClientRoutes.Route
import ClientRoutes.Number.Notation
import ClientRoutes.Text.Quoted

/-
  Warnings: what was left out, and why.

  A warning is its cause; `route?` and `message` say it in words.
-/

namespace ClientRoutes

/-- The duration settings of a route. -/
inductive DurationField where
  | staleTime
  | gcTime
  deriving DecidableEq, Repr

/-- The name of a duration setting in a document. -/
def DurationField.name : DurationField → String
  | .staleTime => "x-staleTime"
  | .gcTime => "x-gcTime"

/-- A duration literal as a warning shows it. -/
def DurationLiteral.show : DurationLiteral → String
  | .number x => "Number(" ++ x.render Binary64.plain ++ ")"
  | .text s => "Text(" ++ Text.Quoted.encode s ++ ")"

/-- Something that was left out. -/
inductive Warning where
  /-- A query key that an earlier route already has. -/
  | repeatedKey (key path : String)
  /-- An entry that is no directive. -/
  | malformedEntry (route entry : String)
  /-- A directive whose key no route has. -/
  | unknownKey (route key : String)
  /-- An argument that refers to nothing. -/
  | unresolvableArgument (route token key : String)
  /-- A duration without a known form. -/
  | unknownDuration (route : String) (field : DurationField) (literal : DurationLiteral)
  /-- An output format in the environment that does not exist. -/
  | unknownFormat (reason : String)
  deriving DecidableEq, Repr

namespace Warning

/-- The route a warning belongs to. -/
def route? : Warning → Option String
  | .repeatedKey .. => none
  | .malformedEntry route _ => some route
  | .unknownKey route _ => some route
  | .unresolvableArgument route .. => some route
  | .unknownDuration route .. => some route
  | .unknownFormat _ => none

/-- The words of a warning. -/
def message : Warning → String
  | .repeatedKey key path =>
    "x-query-key '" ++ key ++ "' is declared more than once, keeping the first (" ++ path ++
      " ignored)"
  | .malformedEntry _ entry => "ignoring malformed x-invalidate-query-key entry '" ++ entry ++ "'"
  | .unknownKey _ key =>
    "x-invalidate-query-key '" ++ key ++ "' does not match any GET route's x-query-key"
  | .unresolvableArgument _ token key =>
    "dropping unresolvable argument '" ++ token ++ "' of '" ++ key ++ "'"
  | .unknownDuration _ field literal =>
    "ignoring " ++ field.name ++ " value " ++ literal.show ++
      ": expected a number, Infinity, static or a duration like 1h30m"
  | .unknownFormat reason => "ignoring SWAGGER_AUTOGEN_FORMAT: " ++ reason

/-- The order in which a report lists warnings: those without a route first,
then by route and message. -/
def before (a b : Warning) : Bool :=
  match a.route?, b.route? with
  | none, none => a.message ≤ b.message
  | none, some _ => true
  | some _, none => false
  | some r, some s => if r = s then a.message ≤ b.message else r ≤ s

/-- Warnings in the order of a report. -/
def sort (warnings : List Warning) : List Warning := warnings.mergeSort before

end Warning

end ClientRoutes
