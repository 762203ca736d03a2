/-
  SENDING — showing the terminal of a session and sending a text to it.

  A terminal that runs a shell is there only if the shell is found.  With enter, the text is
  announced and run in the directory of the settings; without, it is only written, and the user
  presses enter.
-/
import CommandLauncher.Session.Storage
import CommandLauncher.Shell

namespace CommandLauncher.Session

/-- The shell to be used; unreadable settings name none. -/
def currentShell : SessionM String := do
  let settings ← readSettings
  match settings with
  | .error e => log .debug .terminal ("Using the default shell: " ++ e.message)
  | .ok _ => pure ()
  return shellFor settings.toOption (← get).environment

/-- The terminal, if there is one. -/
def activeTerminal : SessionM (Option ActiveTerminal) := do
  match (← get).terminal with
  | .absent => return none
  | .ready => return some .ready
  | .failing e => return some (.failing e)
  | .shell =>
    let program ← currentShell
    let s ← get
    match findProgram? s.files s.environment program with
    | some path => return some (.shell path s.store.directory)
    | none =>
      log .warn .terminal ("Shell '" ++ program ++ "' not found")
      return none

/-- Bring a terminal to the user's attention. -/
def showTerminal : ActiveTerminal → SessionM Unit
  | .shell program directory =>
    log .debug .terminal ("Using shell " ++ program ++ " in " ++ directory)
  | _ => record [.shown]

/-- What came out of a shell. -/
def outputEvents (output : List (Bool × String)) : List Event :=
  output.map fun o => if o.1 then .complained o.2 else .printed o.2

/-- Run a text in a shell. -/
def runShell (program directory text : String) : SessionM (Except SendError Unit) := do
  record [.printed (announcement text)]
  let s ← get
  match Shell.start s.files s.environment program directory text with
  | .error e => return .error (.notStarted program e.message)
  | .ok run =>
    set { s with files := run.files }
    record (outputEvents run.output)
    if run.status = 0 then log .info .terminal ("Command finished: " ++ text)
    else
      log .warn .terminal
        ("Command exited with exit status: " ++ toString run.status ++ ": " ++ text)
    return .ok ()

/-- Send a text to a terminal. -/
def send (terminal : ActiveTerminal) (text : String) (enter : Bool) :
    SessionM (Except SendError Unit) := do
  match terminal with
  | .ready =>
    record [.sent text enter]
    return .ok ()
  | .failing e => return .error e
  | .shell program directory =>
    if enter then runShell program directory text
    else
      record [.printed text]
      return .ok ()

end CommandLauncher.Session
