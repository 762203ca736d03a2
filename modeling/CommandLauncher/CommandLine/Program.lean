/-
  PROGRAM — a whole run, from the command line to what is left behind.

  1. **Start** — the log file is made first.  Then the schema is printed, if that is what is asked
     for; everything else needs a settings file.  What goes wrong up to here ends the run with a
     failure.

  2. **Action** — nobody can be asked, and texts are sent to a shell.  Whatever becomes of the
     action, the run succeeds.

  3. **Outputs** — the events of the session are written out: entries of the log as far as the
     threshold lets them through, notifications, and what was printed.  The log file gets the same
     entries, each behind the time since the start.
-/
import CommandLauncher.CommandLine.Invocation
import CommandLauncher.Settings.Schema

namespace CommandLauncher

/-- What is left behind by a run. -/
structure Outcome where
  code : Nat
  output : String := ""
  errors : String := ""
  files : FileSystem
deriving Repr

namespace Program

/-! ## Outputs -/

/-- What an event writes to the standard output. -/
def outputOf : Event → String
  | .printed text => text
  | _ => ""

/-- What an event writes to the standard error output. -/
def errorsOf (threshold : Threshold) : Event → String
  | .logged entry => if threshold.admits entry.level then entry.line ++ "\n" else ""
  | .notified n => n.line false ++ "\n"
  | .complained text => text
  | _ => ""

/-- What an event writes to a log file. -/
def fileLineOf (threshold : Threshold) (elapsed : String) : Event → String
  | .logged entry =>
    if threshold.admits entry.level then entry.fileLine elapsed ++ "\n" else ""
  | _ => ""

/-- Write out events. -/
def writeOut (write : Event → String) (events : List Event) : String :=
  String.join (events.map write)

/-! ## Start -/

/-- Find the store, and note where it was looked for. -/
def openStore (fs : FileSystem) : Option String → Except SettingsError Store × List Event
  | some path => (Store.at? fs path, [])
  | none =>
    let start := Shell.workingPath fs
    let note (level : Level) (message : String) : Event :=
      .logged { level, topic := .settings, message }
    let searching := note .debug ("Searching for settings file in " ++ start)
    match Store.find fs start with
    | .ok path => (.ok { path }, [searching, note .info ("Found settings file: " ++ path)])
    | .error e => (.error e, [searching])

/-- Make the log file, if one is asked for. -/
def makeLogFile (fs : FileSystem) : Option String → Except FileError FileSystem
  | some path => fs.write path (.text "")
  | none => .ok fs

/-! ## A run -/

/-- A run that fails before anything is done. -/
def failure (fs : FileSystem) (errors message : String) : Outcome :=
  { code := 1, errors := errors ++ "Error: " ++ message ++ "\n", files := fs }

/-- The session in which an action is performed. -/
def session (fs : FileSystem) (environment : Environment) (store : Store)
    (view : Option Subscriber) (events : List Event) : Session :=
  { store, files := fs, environment, attended := false, terminal := .shell,
    subscribers := view.toList, events }

/-- Put what was noted into the log file. -/
def fillLogFile (fs : FileSystem) (logFile : Option String) (text : String) : FileSystem :=
  match logFile with
  | none => fs
  | some path =>
    match fs.write path (.text text) with
    | .ok fs => fs
    | .error _ => fs

/-- Perform an action on the store that the command line names. -/
def act (fs : FileSystem) (environment : Environment) (elapsed : String) (i : Invocation)
    (view : Option Subscriber) (action : Action) : Outcome :=
  let threshold := Threshold.ofEnvironment (environment.get? "RUST_LOG")
  let (store, events) := openStore fs i.config
  match store with
  | .error e =>
    failure (fillLogFile fs i.logFile (writeOut (fileLineOf threshold elapsed) events))
      (writeOut (errorsOf threshold) events) e.message
  | .ok store =>
    let after := ((perform action).run (session fs environment store view events)).2
    { code := 0
      output := writeOut outputOf after.events
      errors := writeOut (errorsOf threshold) after.events
      files :=
        fillLogFile after.files i.logFile
          (writeOut (fileLineOf threshold elapsed) after.events) }

/-- A whole run. -/
def run (fs : FileSystem) (environment : Environment) (elapsed : String) (words : List String) :
    Outcome :=
  match Invocation.parse words with
  | none => { code := 2, errors := "error: the command line was not understood\n", files := fs }
  | some i =>
    match makeLogFile fs i.logFile with
    | .error e => failure fs "" e.message
    | .ok fs =>
      match i.request with
      | .publishSchema =>
        { code := 0, output := Settings.schema.publish.toJson ++ "\n", files := fs }
      | .act view action => act fs environment elapsed i view action

end Program

/-! ## Running it -/

example :
    let fs := ({} : FileSystem).place "/s.json" (.file (.text "\x7b\x7d") false)
    let outcome := Program.run fs [] "0s" ["-c", "/s.json", "run"]
    outcome.code = 0 ∧ outcome.errors = "info: No commands configured\n" := by decide +kernel

end CommandLauncher
