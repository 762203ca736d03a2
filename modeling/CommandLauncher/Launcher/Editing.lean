/-
  EDITING — adding, changing and removing variables and commands.

  1. **Saving** — the entry to be changed is the first one with its key.  When its form has been
     filled in, the settings are read once more, so that what was changed meanwhile is not lost;
     an entry that has gone meanwhile is not brought back.

  2. **Removing** — after a confirmation, all entries with the key are taken out.

  3. **Reports** — the user is told of a saved entry, and the subscribers of every change.
-/
import CommandLauncher.Dialog.Forms
import CommandLauncher.Launcher.Failure
import CommandLauncher.Session.Storage

namespace CommandLauncher

/-- What an action tries to do. -/
abbrev Attempt := ExceptT Failure SessionM

namespace Attempt

/-- A step that can fail for the settings. -/
def onSettings {α : Type} (step : SessionM (Except SettingsError α)) : Attempt α := do
  match ← (step : Attempt (Except SettingsError α)) with
  | .ok a => return a
  | .error e => throw (.settings e)

/-- Read the settings. -/
def readSettings : Attempt Settings := onSettings Session.readSettings

/-- Tell the subscribers of a change. -/
def emit (part : Part) : Attempt Unit := do
  Session.refresh part (← readSettings)

section Editing

variable {α : Type} (c : Catalog α)

/-- A key as messages show it. -/
def shownKey (key : String) : String := "'" ++ key ++ "'"

/-- Put the entry that a form gave into the list as it is now. -/
def store (edited : Option String) (entry : α) : Attempt Unit := do
  let entries := c.entries (← readSettings)
  let index := edited.bind fun key => position? c.key key entries
  if edited.isSome && index.isNone then
    Session.log .debug .launcher (c.title ++ " removed while editing, dropping the edit")
  else
    onSettings (Session.replaceEntries c (upsert c.key index entry entries))
    let message := "Saved " ++ c.noun ++ " " ++ shownKey (c.key entry)
    Session.log .info .launcher message
    Session.notify .info message
    emit c.part

/-- Fill in a form and store its entry. -/
def fillIn (form : Form α) (edited : Option String) : Attempt Unit := do
  match ← (form.run : Attempt (Except Stop α)) with
  | .ok entry => store c edited entry
  | .error .cancelled => Session.log .debug .launcher (c.title ++ " input cancelled")
  | .error (.refused problem) =>
    Session.log .warn .launcher (c.title ++ " input rejected: " ++ problem.message)

/-- Note that an entry is not there. -/
def noteAbsence (key : String) : Attempt Unit :=
  Session.log .debug .launcher (c.title ++ " " ++ shownKey key ++ " no longer exists")

/-- Add an entry. -/
def add (form : Option α → Form α) : Attempt Unit := do
  let _ ← readSettings
  fillIn c (form none) none

/-- Change the first entry with a key. -/
def edit (form : Option α → Form α) (key : String) : Attempt Unit := do
  match c.find? key (← readSettings) with
  | some entry => fillIn c (form (some entry)) (some key)
  | none => noteAbsence c key

/-- Remove all entries with a key. -/
def remove (key : String) : Attempt Unit := do
  let entries := c.entries (← readSettings)
  if entries.any fun e => c.key e = key then
    let confirmed ← Session.askConfirm ("Remove " ++ c.noun ++ " " ++ shownKey key ++ "?") false
    if confirmed = some true then
      onSettings (Session.replaceEntries c (entries.filter fun e => c.key e ≠ key))
      Session.log .info .launcher ("Removed " ++ c.noun ++ " " ++ shownKey key)
      emit c.part
  else
    noteAbsence c key

end Editing

end Attempt

end CommandLauncher
