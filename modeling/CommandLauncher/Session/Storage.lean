/-
  STORAGE — reading and writing the files of a session.

  1. **Settings** — they are read anew whenever they are needed, and each reading notes the
     remarks on the document.  A list is replaced in the document as it is at that moment.

  2. **Expansion** — the state file is read without complaint.

  3. **Refreshing** — subscribers are told of a change with the settings as they are then; those
     that print a view do so at once.
-/
import CommandLauncher.Display.View
import CommandLauncher.Expansion
import CommandLauncher.Session

namespace CommandLauncher.Session

/-! ## Settings -/

/-- Note the remarks on a document. -/
def noteRemarks (remarks : List Settings.Remark) : SessionM Unit :=
  record (remarks.map fun r => .logged { level := .warn, topic := .settings, message := r.message })

/-- Read the settings. -/
def readSettings : SessionM (Except SettingsError Settings) := do
  let s ← get
  let (result, remarks) := s.store.read s.files
  noteRemarks remarks
  return result

/-- Write the settings. -/
def writeSettings (settings : Settings) : SessionM (Except SettingsError Unit) := do
  let s ← get
  match settings.save s.files s.store.path with
  | .ok files =>
    set { s with files }
    return .ok ()
  | .error e => return .error e

/-- Replace a list of the settings, and keep the rest as it is on disk. -/
def replaceEntries {α : Type} (c : Catalog α) (entries : List α) :
    SessionM (Except SettingsError Unit) := do
  match ← readSettings with
  | .error e => return .error e
  | .ok settings =>
    log .debug .settings ("Writing " ++ toString entries.length ++ " " ++ c.noun ++ "s")
    writeSettings (c.replace entries settings)

/-! ## Expansion -/

/-- What is noted about a state file that is ignored. -/
def ignoredNote (path : String) (fault : Document.Fault) : String :=
  "Ignoring unreadable state file " ++ path ++ ": " ++ Format.json.explain fault

/-- Read the expansion state. -/
def readExpansion : SessionM Expansion := do
  let s ← get
  let path := Expansion.pathFor s.store
  let (expansion, fault) := Expansion.load s.files path
  match fault with
  | some fault => log .debug .expansion (ignoredNote path fault)
  | none => pure ()
  return expansion

/-- Write the expansion state. -/
def writeExpansion (e : Expansion) : SessionM (Except SettingsError Unit) := do
  let s ← get
  match e.save s.files (Expansion.pathFor s.store) with
  | .ok files =>
    set { s with files }
    return .ok ()
  | .error e => return .error e

/-! ## Refreshing -/

/-- Lines on the standard output. -/
def printLines (lines : List String) : SessionM Unit :=
  record (lines.map fun line => .printed (line ++ "\n"))

/-- What a subscriber does when it is told of a change. -/
def react (part : Part) (settings : Settings) : Subscriber → SessionM Unit
  | .observer => pure ()
  | .variableView =>
    match part with
    | .vars => printLines (settings.variableLines false)
    | .commands => pure ()
  | .treeView everythingOpen =>
    match part with
    | .vars => pure ()
    | .commands => do
      let saved ← readExpansion
      let tree := Group.ofCommands settings.commands settings.sortOrder
      let isOpen := if everythingOpen then fun _ => true else saved.isExpanded
      printLines (tree.lines isOpen settings.commandIconColor false)

/-- Tell the subscribers of a change; the first of them has the given number. -/
def tell (part : Part) (settings : Settings) : Nat → List Subscriber → SessionM Unit
  | _, [] => pure ()
  | n, subscriber :: rest => do
    record [.refreshed n part settings]
    react part settings subscriber
    tell part settings (n + 1) rest

/-- Tell every subscriber of a change. -/
def refresh (part : Part) (settings : Settings) : SessionM Unit := do
  tell part settings 0 (← get).subscribers

/-- Add a subscriber. -/
def subscribe (subscriber : Subscriber) : SessionM Unit :=
  modify fun s => { s with subscribers := s.subscribers ++ [subscriber] }

end CommandLauncher.Session
