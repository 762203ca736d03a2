/-
  INPUTS — which answers to a text question are accepted.

  A check says what is wrong with an input, if anything is.  Checks look at the trimmed input,
  and the wording of a problem is decided in one place.
-/
import CommandLauncher.Variable

namespace CommandLauncher

/-- What is wrong with an input. -/
inductive InputProblem where
  | blank (what : String)
  | badName (name : String)
  | noOptions
deriving DecidableEq, Repr

/-- The wording of a problem. -/
def InputProblem.message : InputProblem → String
  | blank what => what ++ " must not be empty"
  | badName name => "'" ++ name ++ "' may only contain letters, digits, '_' and '-'"
  | noOptions => "at least one option is required"

/-- What is wrong with an input, if anything is. -/
abbrev Check := String → Option InputProblem

/-- The options that an input lists: its parts between the commas. -/
def Variable.parseOptions (input : String) : List String := Text.parts ',' input

namespace Check

/-- Any input will do. -/
def anything : Check := fun _ => none

/-- The input must not be blank. -/
def notBlank (what : String) : Check := fun input =>
  if Text.isBlankText input then some (.blank what) else none

/-- The input must be a name. -/
def name : Check := fun input =>
  let trimmed := Text.trim input
  if trimmed.isEmpty then some (.blank "Name")
  else if Variable.isName trimmed then none
  else some (.badName trimmed)

/-- The input must list an option. -/
def options : Check := fun input =>
  if (Variable.parseOptions input).isEmpty then some .noOptions else none

/-- The input must be a title. -/
def title : Check := notBlank "Title"

/-- The input must be a command text. -/
def command : Check := notBlank "Command"

end Check

/-! ## Running it -/

example : Check.name " a b " = some (.badName "a b") ∧ Check.name " " = some (.blank "Name") ∧
    Check.name " ok_1 " = none ∧ Check.options " , " = some .noOptions := by decide +kernel

end CommandLauncher
