/-
  TERMINALS — where the text of a command is sent.

  1. **Programs** — a program that is named with a slash is a path; any other name is looked for
     in the directories that the environment lists.

  2. **The shell** — commands go to the shell that the settings name, else to the one that the
     environment names, else to the standard one.  A name that is blank, or empty in the
     environment, names nothing.

  3. **Kinds of terminals** — besides the one that runs a shell there are terminals that only
     take the text, or refuse it, so that the launcher can be driven by another program.
-/
import CommandLauncher.Display.Theme
import CommandLauncher.Settings
import CommandLauncher.Files.FileSystem

namespace CommandLauncher

/-! ## The environment -/

/-- The variables of the environment in which the program runs. -/
abbrev Environment := List (String × String)

/-- The value of a variable. -/
def Environment.get? (e : Environment) (name : String) : Option String :=
  (e.find? fun v => v.1 = name).map (·.2)

/-! ## Programs -/

/-- The directories in which programs are looked for. -/
def Environment.programDirectories (e : Environment) : List String :=
  match e.get? "PATH" with
  | some list => Text.split ':' list
  | none => []

/-- The path of a program. -/
def findProgram? (fs : FileSystem) (e : Environment) (program : String) : Option String :=
  if program.toList.contains '/' then (if fs.isFile program then some program else none)
  else (e.programDirectories.map fun d => Path.join d program).find? fs.isFile

/-! ## The shell -/

/-- The shell that is used where none is named. -/
def standardShell : String := "/bin/sh"

/-- The shell that the environment names. -/
def Environment.shell? (e : Environment) : Option String :=
  (e.get? "SHELL").filter fun s => !s.isEmpty

/-- The shell that settings name. -/
def Settings.shell? (s : Settings) : Option String :=
  s.shell.filter fun name => !Text.isBlankText name

/-- The shell to be used, with the settings where they can be read. -/
def shellFor (settings : Option Settings) (e : Environment) : String :=
  ((settings.bind Settings.shell?).or e.shell?).getD standardShell

/-! ## Kinds of terminals -/

/-- Why a text could not be sent. -/
inductive SendError where
  | notStarted (shell cause : String)
  | notWritten (cause : String)
deriving DecidableEq, Repr

/-- The wording of a failure. -/
def SendError.message : SendError → String
  | notStarted shell cause => "Unable to start " ++ shell ++ ": " ++ cause
  | notWritten cause => "Unable to write to the terminal: " ++ cause

/-- The terminal of a session. -/
inductive Terminal where
  /-- There is none. -/
  | absent
  /-- It takes every text. -/
  | ready
  /-- It refuses every text. -/
  | failing (error : SendError)
  /-- It runs the shell in the directory of the settings. -/
  | shell
deriving DecidableEq, Repr, Inhabited

/-- A terminal that can be shown. -/
inductive ActiveTerminal where
  | ready
  | failing (error : SendError)
  | shell (program directory : String)
deriving DecidableEq, Repr

/-- The line that announces a command which is about to be run. -/
def announcement (text : String) : String :=
  ({ color := some Theme.accent } : Style).paint "❱" ++ " " ++ text ++ "\n"

/-! ## Running it -/

example :
    let fs := (({} : FileSystem).place "/b/tool" (.file (.text "") true)).place "/a/tool/x"
      (.file (.text "") true)
    findProgram? fs [("PATH", "/a:/b")] "tool" = some "/b/tool" ∧
      findProgram? fs [] "tool" = none ∧ findProgram? fs [] "/b/tool" = some "/b/tool" := by
  decide +kernel
example : shellFor (some { shell := some " " }) [("SHELL", "")] = "/bin/sh" := by decide +kernel

end CommandLauncher
