/-
  STORES — where the settings of a project are kept.

  1. **Finding** — a directory's settings file is the first of three names that exists in it.
     From a start directory the search goes up through the parents, as the path spells them, and
     the nearest directory with a settings file wins.

  2. **Directory** — commands run in the directory of the settings file, and the expansion state
     stands beside it.  A bare file name stands in the working directory.

  3. **Replacing a list** — a list is never patched in place: the document is read once more, one
     of its lists is replaced, and the whole document is written.
-/
import CommandLauncher.Settings.File

namespace CommandLauncher

/-- The settings file of a project. -/
structure Store where
  path : String
deriving DecidableEq, Repr, Inhabited

namespace Store

/-! ## Finding -/

/-- The names that a settings file may have, the preferred one first. -/
def fileNames : List String := [".termdeck.json", ".termdeck.yaml", ".termdeck.yml"]

/-- The settings file in a directory. -/
def inDirectory? (fs : FileSystem) (directory : String) : Option String :=
  (fileNames.map (Path.join directory)).find? fs.contains

/-- The settings file in the nearest of the directories from `start` upwards. -/
def nearest? (fs : FileSystem) (start : String) : Option String :=
  (Path.ancestors start).findSome? (inDirectory? fs)

/-- Search for a settings file from `start` upwards. -/
def find (fs : FileSystem) (start : String) : Except SettingsError String :=
  match nearest? fs start with
  | some path => .ok path
  | none => .error (.notFound start)

/-- The store at a path, which has to exist. -/
def at? (fs : FileSystem) (path : String) : Except SettingsError Store :=
  if fs.contains path then .ok { path } else .error (.notFound path)

/-! ## Directory -/

/-- The directory of the settings file. -/
def directory (s : Store) : String :=
  match Path.parent? s.path with
  | none => "."
  | some d => if d.isEmpty then "." else d

/-! ## Reading and replacing -/

/-- The document in the settings file, and the remarks on it. -/
def read (s : Store) (fs : FileSystem) : Except SettingsError Settings × List Settings.Remark :=
  Settings.load fs s.path

end Store

/-! ## Running it -/

example : Store.directory { path := ".termdeck.json" } = "." ∧
    Store.directory { path := "a/b.yaml" } = "a" ∧ Store.directory { path := "/b.yaml" } = "/" := by
  decide +kernel
example :
    let fs := (({} : FileSystem).place "/p/.termdeck.yml" (.file (.text "") false)).place "/p/q"
      .directory
    (Store.find fs "/p/q").toOption = some "/p/.termdeck.yml" := by decide +kernel

end CommandLauncher
