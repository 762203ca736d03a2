/-
  EXPANSION — which groups of the command tree are shown open.

  1. **A list of paths** — the paths stand in the order in which they were expanded.  Expanding
     appends a path unless it is there; collapsing drops all its occurrences and keeps the order
     of the rest.

  2. **The state file** — the list is kept beside the settings file.  A missing or unreadable
     state file means that nothing is expanded.
-/
import CommandLauncher.Store

namespace CommandLauncher

open Document

/-- The expanded paths. -/
structure Expansion where
  paths : List String := []
deriving DecidableEq, Repr, Inhabited

namespace Expansion

/-! ## A list of paths -/

/-- Whether a path is expanded. -/
def isExpanded (e : Expansion) (path : String) : Bool := e.paths.contains path

/-- Append a path unless it is there. -/
def expand (e : Expansion) (path : String) : Expansion :=
  if e.isExpanded path then e else { paths := e.paths ++ [path] }

/-- Drop all occurrences of a path. -/
def collapse (e : Expansion) (path : String) : Expansion :=
  { paths := e.paths.filter fun p => p ≠ path }

/-! ## The state file -/

/-- The name of the state file. -/
def fileName : String := ".termdeck-state.json"

/-- The state file that belongs to a store. -/
def pathFor (s : Store) : String := Path.join s.directory fileName

/-- Read the state from its text. -/
def parse (text : String) : Except Fault Expansion :=
  (Json.readRecord (expansionShape Json.dialect) text).map fun paths => { paths }

/-- Write the state as a text. -/
def print (e : Expansion) : String := (encodeExpansion e.paths).toJson

/-- The state in a file, and the fault that made its text be ignored. -/
def load (fs : FileSystem) (path : String) : Expansion × Option Fault :=
  match fs.readText? path with
  | none => ({}, none)
  | some text =>
    match parse text with
    | .ok e => (e, none)
    | .error fault => ({}, some fault)

/-- The file system after the state has been written to a file. -/
def save (e : Expansion) (fs : FileSystem) (path : String) : Except SettingsError FileSystem :=
  (fs.write path (.text e.print)).mapError (.unwritable path)

end Expansion

/-! ## Running it -/

example : (({} : Expansion).expand "a" |>.expand "b" |>.expand "a" |>.collapse "a").paths = ["b"] := by
  decide +kernel
example : Expansion.pathFor { path := "s.yaml" } = "./.termdeck-state.json" := by decide +kernel

end CommandLauncher
