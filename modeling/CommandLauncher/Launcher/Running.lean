/-
  RUNNING — picking a command, filling in its variables and sending it.

  1. **Picking** — the commands are offered in the order of the tree, each with the path of its
     group.  A position outside the list picks nothing.

  2. **Sending** — the terminal is asked for only when every variable of the command has a value.
     It is shown before the text is sent.
-/
import CommandLauncher.Launcher.Editing
import CommandLauncher.Session.Sending

namespace CommandLauncher.Attempt

/-! ## Looking up variables -/

/-- Look a name up, and note why nothing was found. -/
def lookUp (vs : List Variable) : Lookup SessionM := fun name => do
  let value ← Variable.valueIn Session.askChoice vs name
  if value.isNone then
    Session.log .debug .resolution
      (match Variable.last? vs name with
       | none => "No definition for variable " ++ shownKey name
       | some _ => "Selection for variable " ++ shownKey name ++ " cancelled")
  return value

/-! ## Picking -/

/-- How a command of the tree is offered. -/
def offer (entry : Group × Command) : String := entry.1.path ++ " › " ++ entry.2.title

/-- Let the user pick a command. -/
def pick (settings : Settings) : SessionM (Option Command) := do
  let entries := (Group.ofCommands settings.commands settings.sortOrder).allCommands
  if entries.isEmpty then
    Session.notify .info "No commands configured"
    return none
  else
    let picked ← Session.askSelect "Run command" (entries.map offer) 0
    return (picked.bind fun n => entries[n]?).map (·.2)

/-! ## Sending -/

/-- Show the terminal and send a text to it. -/
def deliver (text : String) (enter : Bool) : Attempt Unit := do
  match ← (Session.activeTerminal : Attempt (Option ActiveTerminal)) with
  | none => throw .noTerminal
  | some terminal =>
    Session.showTerminal terminal
    match ← (Session.send terminal text enter : Attempt (Except SendError Unit)) with
    | .ok () => return ()
    | .error e => throw (.sending e)

/-- Fill in the variables of a command and send it. -/
def launch (settings : Settings) (c : Command) : Attempt Unit := do
  let outcome ← (dispatch (lookUp settings.vars) c settings.sendNewLine : SessionM Dispatch)
  match outcome with
  | .failed missing =>
    Session.log .debug .dispatch
      ("Command " ++ shownKey c.title ++ " has unresolved variables: " ++
        Failure.quotedList missing)
    throw (.missingVariables missing)
  | .dispatched text enter => deliver text enter

/-- Run a command, or the one that the user picks. -/
def runCommand (c : Option Command) : Attempt Unit := do
  let settings ← readSettings
  match c with
  | some c => launch settings c
  | none =>
    match ← (pick settings : Attempt (Option Command)) with
    | some c => launch settings c
    | none => return ()

/-- Run the command with a title. -/
def runTitled (title : String) : Attempt Unit := do
  match Command.last? (← readSettings).commands title with
  | some c => runCommand (some c)
  | none => throw (.unknownCommand title)

end CommandLauncher.Attempt
