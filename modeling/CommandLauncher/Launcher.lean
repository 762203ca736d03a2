/-
  LAUNCHER — the actions that a user can ask for.

  1. **Actions** — variables and commands are added, edited and removed, commands are run,
     groups are opened and closed, and views are refreshed.

  2. **Failures stay inside** — `perform` runs an action to its end.  If it fails, the failure is
     noted in the log and the user is told; nothing is handed on to the caller.

  3. **Groups** — opening or closing a group changes the state file only if it changes the state,
     and only then are the subscribers told.
-/
import CommandLauncher.Launcher.Running

namespace CommandLauncher

/-! ## Groups -/

/-- Change the expansion state. -/
def Attempt.changeExpansion (change : Expansion → Expansion) : Attempt Unit := do
  let before ← (Session.readExpansion : Attempt Expansion)
  let after := change before
  if after ≠ before then
    onSettings (Session.writeExpansion after)
    emit .commands

/-! ## Actions -/

/-- What a user can ask for. -/
inductive Action where
  | add (part : Part)
  | edit (part : Part) (key : String)
  | remove (part : Part) (key : String)
  /-- Run the given command, or one that the user picks. -/
  | run (c : Option Command)
  | runTitled (title : String)
  | expand (path : String)
  | collapse (path : String)
  | refresh (part : Part)
deriving DecidableEq, Repr

namespace Action

/-- What an action tries to do. -/
def attempt : Action → Attempt Unit
  | add .vars => Attempt.add .vars Form.variableForm
  | add .commands => Attempt.add .commands Form.commandForm
  | edit .vars key => Attempt.edit .vars Form.variableForm key
  | edit .commands key => Attempt.edit .commands Form.commandForm key
  | remove .vars key => Attempt.remove .vars key
  | remove .commands key => Attempt.remove .commands key
  | run c => Attempt.runCommand c
  | runTitled title => Attempt.runTitled title
  | expand path => Attempt.changeExpansion (·.expand path)
  | collapse path => Attempt.changeExpansion (·.collapse path)
  | refresh part => Attempt.emit part

end Action

/-- Note a failure and tell the user. -/
def report (f : Failure) : SessionM Unit := do
  Session.log .debug .launcher ("Action failed: " ++ f.anatomy)
  Session.notify .error f.message

/-- Perform an action. -/
def perform (a : Action) : SessionM Unit := do
  match ← ExceptT.run a.attempt with
  | .ok () => return ()
  | .error f => report f

/-! ## Running it -/

example :
    let s : Session := { store := { path := "/s.json" } }
    ((perform (.runTitled "x")).run s).2.events =
      [.logged ⟨.debug, .launcher, "Action failed: Settings(SettingsNotFound(\"/s.json\"))"⟩,
        .notified ⟨.error,
          "No settings file found in current directory or its parents: /s.json"⟩] := by
  decide +kernel

end CommandLauncher
