/-
  SETTINGS FILES — how settings are loaded and saved.

  1. **Formats** — a file whose extension is exactly `json` holds JSON, any other one YAML.

  2. **Loading** — a file that cannot be read as text counts as not found.  A blank text is the
     document in which everything is left out.  Any other text has to be a document of the
     format, then a document of the right shape, then one without unusable commands.  `load`
     also gives the remarks on the document, which are made even when it is refused for a
     command.

  3. **Saving** — the whole document is written, and a failing write leaves all files as they
     were.
-/
import CommandLauncher.Document.Json.Printing
import CommandLauncher.Document.Json.Reading
import CommandLauncher.Document.Yaml.Printing
import CommandLauncher.Document.Yaml.Reading
import CommandLauncher.Files.FileSystem
import CommandLauncher.Settings.Encoding
import CommandLauncher.Settings.Shape

namespace CommandLauncher

open Document

/-! ## Formats -/

/-- How a settings file is written. -/
inductive Format where
  | json
  | yaml
deriving DecidableEq, Repr

/-- The format of the file at a path. -/
def Format.ofPath (path : String) : Format :=
  if Path.extension? path = some "json" then .json else .yaml

/-- The name of a format. -/
def Format.name : Format → String
  | json => "JSON"
  | yaml => "YAML"

/-! ## Failures -/

/-- Why settings could not be loaded or saved. -/
inductive SettingsError where
  | notFound (path : String)
  | unknownDirectory (cause : FileError)
  | malformed (format : Format) (path : String) (fault : Fault)
  | unwritable (path : String) (cause : FileError)
  | invalid (problem : Settings.Problem)
deriving DecidableEq, Repr

/-- The wording of a fault.  Only YAML's wording names the place of a wrong shape. -/
def Format.explain : Format → Fault → String
  | _, .syntaxError => "not a document of this format"
  | json, .shape _ problem => problem.message
  | yaml, .shape place problem =>
    if place = [] then problem.message else Place.text place ++ ": " ++ problem.message

/-- The wording of a failure. -/
def SettingsError.message : SettingsError → String
  | notFound path => "No settings file found in current directory or its parents: " ++ path
  | unknownDirectory cause => "Unknown working directory: " ++ cause.message
  | malformed format path fault =>
    "Unable to parse " ++ format.name ++ " settings file " ++ path ++ ": " ++ format.explain fault
  | unwritable path cause =>
    "Unable to write settings file " ++ path ++ ": " ++ cause.message
  | invalid problem => "Invalid settings: " ++ problem.message

/-! ## Documents as texts -/

namespace Settings

/-- Read a document from its text. -/
def parse (format : Format) (text : String) : Except Fault Settings :=
  if Text.isBlankText text then .ok {}
  else
    match format with
    | .json => Json.readRecord (shape Json.dialect) text
    | .yaml => Yaml.readRecord shape text

/-- Write a document as a text. -/
def print (s : Settings) : Format → String
  | .json => s.encode.toJson ++ "\n"
  | .yaml => s.encode.toYaml

/-! ## Loading and saving -/

/-- The document behind a text from the file at `path`, and the remarks on it. -/
def accept (path text : String) : Except SettingsError Settings × List Remark :=
  let format := Format.ofPath path
  match parse format text with
  | .error fault => (.error (.malformed format path fault), [])
  | .ok s =>
    match s.problem? with
    | some problem => (.error (.invalid problem), s.remarks)
    | none => (.ok s, s.remarks)

/-- The document in a file, and the remarks on it. -/
def load (fs : FileSystem) (path : String) : Except SettingsError Settings × List Remark :=
  match fs.readText? path with
  | none => (.error (.notFound path), [])
  | some text => accept path text

/-- The file system after the document has been written to a file. -/
def save (s : Settings) (fs : FileSystem) (path : String) : Except SettingsError FileSystem :=
  (fs.write path (.text (s.print (Format.ofPath path)))).mapError (.unwritable path)

/-- A document is accepted unchanged or not at all. -/
theorem accept_eq_ok {path text : String} {s : Settings} {remarks : List Remark}
    (h : accept path text = (.ok s, remarks)) :
    parse (Format.ofPath path) text = .ok s ∧ s.problem? = none ∧ remarks = s.remarks := by
  unfold accept at h
  dsimp only at h
  split at h
  · simp at h
  · rename_i s' hs
    split at h
    · simp at h
    · rename_i hp
      obtain ⟨h₁, h₂⟩ := Prod.mk.inj h
      obtain rfl := Except.ok.inj h₁
      exact ⟨hs, hp, h₂.symm⟩

end Settings

/-! ## Running it -/

example : Format.ofPath "a/.launcher.json" = .json ∧ Format.ofPath "a/.json" = .yaml ∧
    Format.ofPath "a.JSON" = .yaml := by decide +kernel

end CommandLauncher
