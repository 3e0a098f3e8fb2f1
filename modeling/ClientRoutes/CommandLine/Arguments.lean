import ClientRoutes.CommandLine.Usage
import ClientRoutes.ReportFormat
import ClientRoutes.Text.Digit

/-
  The arguments of a command.

  A command accepts some options and at most one argument without a name. The
  value of an option stands behind it, or behind `=`. Behind `--` everything is
  an argument without a name. An option may be given once, and its value is
  looked at when the next argument has been recognized or the line ends: an
  argument that is not known is reported before a value that is not.

  What is proved:
    1. `settle_idle` — without an option that waits there is nothing to settle.
-/

namespace ClientRoutes.Arguments

/-- What an argument gives. -/
inductive Slot where
  | document
  | category
  | format
  | module
  | noSchema
  | aliasDepth
  | path
  deriving DecidableEq, Repr

namespace Slot

/-- The name of an option. -/
def name : Slot → String
  | .document => "document"
  | .category => "category"
  | .format => "format"
  | .module => "module"
  | .noSchema => "no-schema"
  | .aliasDepth => "alias-depth"
  | .path => "path"

/-- Whether an option has a value. -/
def hasValue (s : Slot) : Bool := s != .noSchema

/-- What is wrong with a value. -/
def objection? (s : Slot) (value : String) : Option Usage :=
  match s with
  | .document | .path => if value.isEmpty then some .invalidValue else none
  | .format => if (ReportFormat.ofName? value).isNone then some .invalidValue else none
  | .aliasDepth =>
    if (Text.readUInt64? value.toList).isNone then some .invalidNumber else none
  | .category | .module | .noSchema => none

end Slot

/-- What a command accepts. -/
structure Grammar where
  /-- The argument without a name. -/
  bare : Option Slot
  options : List Slot

/-- What has been read so far. -/
structure Progress where
  /-- The values that have been looked at. -/
  given : List (Slot × String)
  /-- What has been read last, with its value if that is already there. -/
  waiting : Option (Slot × Option String)
  /-- Whether the argument without a name is there. -/
  hasBare : Bool
  /-- Whether `--` has been read. -/
  trailing : Bool

/-- Nothing read. -/
def Progress.start : Progress := ⟨[], none, false, false⟩

/-- Accepts a value. -/
def Progress.give (p : Progress) (slot : Slot) (value : String) : Except Usage Progress :=
  if (p.given.lookup slot).isSome then .error .repeatedArgument
  else
    match slot.objection? value with
    | some usage => .error usage
    | none => .ok { p with given := p.given ++ [(slot, value)] }

/-- Looks at the value of what has been read last. -/
def Progress.settle (p : Progress) : Except Usage Progress :=
  match p.waiting with
  | none => .ok p
  | some (_, none) => .error .invalidValue
  | some (slot, some value) => { p with waiting := none }.give slot value

/-- Reads an option, with its value if that stands behind `=`. -/
def readOption (p : Progress) (slot : Slot) (attached : Option String) :
    Except Usage Progress :=
  match slot.hasValue, attached with
  | false, some _ => .error .unexpectedValue
  | false, none => do
    let p ← p.settle
    p.give slot ""
  | true, some value => do
    let p ← p.settle
    p.give slot value
  | true, none => do
    let p ← p.settle
    return { p with waiting := some (slot, none) }

/-- Reads the request for help. -/
def readHelp (p : Progress) (attached : Option String) : Except Usage Progress :=
  match attached with
  | some _ => .error .unexpectedValue
  | none => do
    let _ ← p.settle
    throw .help

/-- Reads an argument without a name. -/
def readBare (g : Grammar) (p : Progress) (value : String) : Except Usage Progress :=
  match g.bare with
  | none => .error .unknownArgument
  | some slot =>
    if p.hasBare then .error .unknownArgument
    else do
      let p ← p.settle
      return { p with waiting := some (slot, some value), hasBare := true }

/-- The name of an option in its long form, and the text behind `=`. -/
def long? (argument : String) : Option (String × Option String) :=
  match argument.toList with
  | '-' :: '-' :: rest =>
    let name := String.ofList (rest.takeWhile (· != '='))
    match rest.dropWhile (· != '=') with
    | [] => some (name, none)
    | _ :: value => some (name, some (String.ofList value))
  | _ => none

/-- The first letter of an option in its short form. -/
def short? (argument : String) : Option Char :=
  match argument.toList with
  | '-' :: c :: _ => some c
  | _ => none

/-- Reads one argument. -/
def step (g : Grammar) (p : Progress) (argument : String) : Except Usage Progress :=
  if p.trailing then readBare g p argument
  else if argument = "--" then .ok { p with trailing := true }
  else
    match long? argument with
    | some (name, attached) =>
      if name = "help" then readHelp p attached
      else
        match g.options.find? fun slot => slot.name = name with
        | some slot => readOption p slot attached
        | none => .error .unknownArgument
    | none =>
      match short? argument with
      | some c => if c = 'h' then readHelp p none else .error .unknownArgument
      | none =>
        match p.waiting with
        | some (slot, none) => .ok { p with waiting := some (slot, some argument) }
        | _ => readBare g p argument

/-- The values that some arguments give. -/
def read (g : Grammar) (arguments : List String) : Except Usage (List (Slot × String)) := do
  let p ← arguments.foldlM (step g) Progress.start
  let p ← p.settle
  return p.given

theorem settle_idle {p : Progress} (h : p.waiting = none) : p.settle = .ok p := by
  simp [Progress.settle, h]

end ClientRoutes.Arguments
