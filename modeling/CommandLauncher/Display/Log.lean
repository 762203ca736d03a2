/-
  LOG — what the program notes about its own doings.

  1. **Levels** — an entry has a level; a threshold lets through the entries that are at least as
     serious.  The threshold is named in the environment, in any case of letters; it is
     `warn` where nothing, or no name of a threshold, is given.

  2. **Topics** — an entry belongs to the part of the program that made it, which is named in log
     files.
-/
import CommandLauncher.Display.Style
import CommandLauncher.Text.Case

namespace CommandLauncher

/-! ## Levels -/

/-- How serious an entry is, the most serious first. -/
inductive Level where
  | error
  | warn
  | info
  | debug
  | trace
deriving DecidableEq, Repr

namespace Level

/-- The rank of a level; the most serious has the lowest. -/
def rank : Level → Nat
  | error => 1
  | warn => 2
  | info => 3
  | debug => 4
  | trace => 5

/-- The name of a level. -/
def name : Level → String
  | error => "ERROR"
  | warn => "WARN"
  | info => "INFO"
  | debug => "DEBUG"
  | trace => "TRACE"

/-- All levels. -/
def all : List Level := [error, warn, info, debug, trace]

/-- How a level's name looks. -/
def style : Level → Style
  | error => { color := some (.basic .red) }
  | warn => { color := some (.basic .yellow) }
  | info => { color := some (.basic .blue) }
  | debug => .dim
  | trace => .dim

end Level

/-- The least serious level that is let through; none lets nothing through. -/
abbrev Threshold := Option Level

namespace Threshold

/-- The threshold that holds where none is asked for. -/
def standard : Threshold := some .warn

/-- The threshold with a name. -/
def ofName? (s : String) : Option Threshold :=
  let name := Text.lowerAscii s
  if name = "off" then some none
  else (Level.all.find? fun l => Text.lowerAscii l.name = name).map some

/-- The threshold that the environment asks for. -/
def ofEnvironment (value : Option String) : Threshold := (value.bind ofName?).getD standard

/-- Whether entries of a level are let through. -/
def admits (t : Threshold) (l : Level) : Bool :=
  match t with
  | none => false
  | some least => l.rank ≤ least.rank

end Threshold

/-! ## Entries -/

/-- The parts of the program that make entries. -/
inductive Topic where
  | settings
  | launcher
  | terminal
  | prompt
  | expansion
  | dispatch
  | resolution
deriving DecidableEq, Repr

/-- The name of a part in log files. -/
def Topic.name : Topic → String
  | settings => "termdeck::settings"
  | launcher => "termdeck::launcher"
  | terminal => "termdeck::sink"
  | prompt => "termdeck::prompt"
  | expansion => "termdeck::state"
  | dispatch => "termdeck::dispatch"
  | resolution => "termdeck::variables::resolve"

/-- An entry of the log. -/
structure LogEntry where
  level : Level
  topic : Topic
  message : String
deriving DecidableEq, Repr

namespace LogEntry

/-- An entry as it is shown to the user. -/
def line (e : LogEntry) : String := "[" ++ e.level.name ++ "] " ++ e.message

/-- An entry as it stands in a log file, behind the time that has passed since the start. -/
def fileLine (elapsed : String) (e : LogEntry) : String :=
  "[" ++ elapsed ++ "] [" ++ e.level.name ++ "] " ++ e.topic.name ++ " - " ++ e.message

end LogEntry

/-! ## Running it -/

example : (Threshold.ofEnvironment (some "Info")).admits .info = true ∧
    (Threshold.ofEnvironment (some "x")).admits .info = false ∧
    (Threshold.ofEnvironment (some "OFF")).admits .error = false := by decide +kernel

end CommandLauncher
