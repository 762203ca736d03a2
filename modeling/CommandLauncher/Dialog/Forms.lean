/-
  FORMS — the questions from which a variable or a command is put together.

  A form starts from an entry, whose parts are proposed as answers, or from nothing.  It ends
  early when the user cancels, and when a text that got around its check would not have passed.

  1. **Variables** — name, kind, then either the value or the options and which of them is the
     default, then a description.  Picking a default that is not among the options cancels.

  2. **Commands** — title, text, group, description, and whether enter is pressed.  The flag is
     kept if the entry had it and it was confirmed; otherwise it is stored only when it says no.
     What no question asks for stays as it is in the entry.
-/
import CommandLauncher.Session

namespace CommandLauncher

/-! ## Forms -/

/-- Why a form ended early. -/
inductive Stop where
  | cancelled
  | refused (problem : InputProblem)
deriving DecidableEq, Repr

/-- The questions of a form. -/
abbrev Form := ExceptT Stop SessionM

namespace Form

/-- An answer; a cancelled question ends the form. -/
def answer {α : Type} (ask : SessionM (Option α)) : Form α := do
  match ← (ask : Form (Option α)) with
  | some a => return a
  | none => throw .cancelled

/-- Ask for a text, which has to pass the check however it was given. -/
def text (message : String) (initial : Option String) (check : Check) : Form String := do
  let input ← answer (Session.askText message initial check)
  match check input with
  | some problem => throw (.refused problem)
  | none => return input

/-- Ask for one of the options. -/
def select (message : String) (options : List String) (start : Nat) : Form Nat :=
  answer (Session.askSelect message options start)

/-- Ask for a yes or a no. -/
def confirm (message : String) (proposed : Bool) : Form Bool :=
  answer (Session.askConfirm message proposed)

end Form

/-! ## Variables -/

/-- The kinds of variables as they are offered. -/
def Variable.kinds : List String := ["Fixed value", "Select from options"]

/-- The position of the kind of variables with options. -/
def Variable.selectableKind : Nat := 1

/-- The position of the current value among the options, or the first one. -/
def Variable.defaultPosition (initial : Option Variable) (options : List String) : Nat :=
  (initial.bind fun v => options.findIdx? fun o => o = v.value).getD 0

namespace Form

/-- Ask for the value of a variable, and for its options if it is of that kind. -/
def variableValue (initial : Option Variable) (kind : Nat) :
    Form (String × Option (List String)) := do
  if kind = Variable.selectableKind then
    let current := (initial.bind Variable.choices).map (Text.join ", ")
    let input ← text "Options (comma separated)" current Check.options
    let options := Variable.parseOptions input
    let picked ← select "Default value" options (Variable.defaultPosition initial options)
    match options[picked]? with
    | some value => return (value, some options)
    | none => throw .cancelled
  else
    let value ← text "Value" (initial.map Variable.value) Check.anything
    return (value, none)

/-- The form of a variable. -/
def variableForm (initial : Option Variable) : Form Variable := do
  let name ← text "Variable name" (initial.map Variable.name) Check.name
  let start := if initial.any Variable.isSelectable then Variable.selectableKind else 0
  let kind ← select "Variable type" Variable.kinds start
  let (value, options) ← variableValue initial kind
  let description ← text "Description (optional)" (initial.bind Variable.description)
    Check.anything
  return {
    name := Text.trim name, value, description := Text.nonBlank description, options }

/-! ## Commands -/

/-- What is stored about enter, from the current entry and the user's answer. -/
def storedFlag (current : Option Bool) (answer : Bool) : Option Bool :=
  if current = some answer then some answer else if answer then none else some false

/-- The form of a command. -/
def commandForm (initial : Option Command) : Form Command := do
  let title ← text "Title" (initial.map Command.title) Check.title
  let command ← text "Command (use $\x7bname\x7d for variables)" (initial.map Command.command)
    Check.command
  let group ← text "Group (optional, e.g. Ops/Deploy)" (initial.bind Command.group)
    Check.anything
  let description ← text "Description (optional)" (initial.bind Command.description)
    Check.anything
  let current := initial.bind Command.sendNewLine
  let enter ← confirm "Press enter after sending the command?" (current.getD true)
  let base := initial.getD { title := "", command := "" }
  return { base with
    title := Text.trim title
    command := Text.trim command
    group := Text.nonBlank group
    description := Text.nonBlank description
    sendNewLine := storedFlag current enter }

end Form

/-! ## Running it -/

example : Form.storedFlag (some true) true = some true ∧ Form.storedFlag none true = none ∧
    Form.storedFlag (some true) false = some false := by decide

end CommandLauncher
