/-
  FILE SYSTEM — files and directories as a value.

  1. **Entries** — a file has a content, which is text or bytes that are no text, and may be
     executable.  An entry stands at a location, the list of the names that lead to it from the
     root.  The root itself is always a directory.

  2. **Walking** — a path is walked name by name from the root or from the working directory.
     Every place on the way has to be a directory; the end may be missing.  A slash at the end
     asks for a directory too.

  3. **Refusals** — a file can be there, and be read, and yet not be written: for lack of rights,
     because the disk is full or because nothing on it may be changed.  The file system keeps the
     locations at which this is so, with the causes.  A write that is refused leaves everything as
     it was.

  4. **Failures** — the causes are those of the operating system, and `FileError.message` gives
     its wording and number for them.
-/
import CommandLauncher.Files.Path
import CommandLauncher.Text.Parts

namespace CommandLauncher

/-! ## Entries -/

/-- What is in a file. -/
inductive Content where
  | text (s : String)
  | bytes (data : List UInt8)
deriving DecidableEq, Repr, Inhabited

/-- Bytes, which are text where they are well-formed UTF-8. -/
def Content.ofBytes (data : List UInt8) : Content :=
  match String.fromUTF8? ⟨data.toArray⟩ with
  | some s => .text s
  | none => .bytes data

inductive Entry where
  | file (content : Content) (executable : Bool)
  | directory
deriving DecidableEq, Repr

/-- The names that lead to an entry from the root. -/
abbrev Location := List String

/-- Why something could not be done with a path. -/
inductive FileError where
  | notFound
  | permissionDenied
  | notDirectory
  | isDirectory
  | noSpace
  | readOnly
  | nameTooLong
  | zeroInName
deriving DecidableEq, Repr

/-- The wording of a failure. -/
def FileError.message : FileError → String
  | notFound => "No such file or directory (os error 2)"
  | permissionDenied => "Permission denied (os error 13)"
  | notDirectory => "Not a directory (os error 20)"
  | isDirectory => "Is a directory (os error 21)"
  | noSpace => "No space left on device (os error 28)"
  | readOnly => "Read-only file system (os error 30)"
  | nameTooLong => "File name too long (os error 36)"
  | zeroInName => "file name contained an unexpected NUL byte"

structure FileSystem where
  entries : List (Location × Entry) := []
  /-- Where relative paths start. -/
  workingDirectory : Location := []
  /-- Where no file is written, and why not. -/
  refusals : List (Location × FileError) := []
deriving Repr, Inhabited

namespace FileSystem

/-- The entry at a location. -/
def get? (fs : FileSystem) (at' : Location) : Option Entry :=
  if at' = [] then some .directory
  else (fs.entries.find? fun e => e.1 = at').map (·.2)

/-- Why no file is written at a location, if none is. -/
def refusal? (fs : FileSystem) (at' : Location) : Option FileError :=
  (fs.refusals.find? fun r => r.1 = at').map (·.2)

/-- Replace the entry at a location, or append a new one. -/
def putEntry (at' : Location) (entry : Entry) : List (Location × Entry) → List (Location × Entry)
  | [] => [(at', entry)]
  | e :: es => if e.1 = at' then (at', entry) :: es else e :: putEntry at' entry es

/-- Put an entry at a location. -/
def put (fs : FileSystem) (at' : Location) (entry : Entry) : FileSystem :=
  { fs with entries := putEntry at' entry fs.entries }

/-- Take away the entry at a location. -/
def remove (fs : FileSystem) (at' : Location) : FileSystem :=
  { fs with entries := fs.entries.filter fun e => e.1 ≠ at' }

theorem find?_putEntry (at' other : Location) (entry : Entry) (es : List (Location × Entry)) :
    ((putEntry at' entry es).find? fun e => e.1 = other) =
      if at' = other then some (at', entry) else es.find? fun e => e.1 = other := by
  induction es with
  | nil =>
    simp only [putEntry, List.find?_cons, List.find?_nil]
    by_cases h : at' = other <;> simp [h]
  | cons e es ih =>
    unfold putEntry
    by_cases he : e.1 = at'
    · simp only [he, if_true, List.find?_cons]
      by_cases h : at' = other <;> simp [h]
    · simp only [he, if_false, List.find?_cons, ih]
      by_cases h : at' = other
      · have : ¬ e.1 = other := fun h' => he (h'.trans h.symm)
        simp [h, this]
      · by_cases h' : e.1 = other <;> simp [h, h']

/-- What is found after putting an entry: the entry at its place, and nothing new elsewhere. -/
theorem get?_put (fs : FileSystem) (at' other : Location) (entry : Entry) (h : at' ≠ []) :
    (fs.put at' entry).get? other = if at' = other then some entry else fs.get? other := by
  unfold get? put
  by_cases ho : other = []
  · have : at' ≠ other := fun h' => h (h'.trans ho)
    simp [ho, h]
  · simp only [ho, if_false, find?_putEntry]
    by_cases he : at' = other <;> simp [he]

/-! ## Walking -/

/-- The names of a path; a slash at the end gives an empty one. -/
def names (path : String) : List String := Text.split '/' path

/-- Walk the names from a location.  Every place at which a name is looked up has to be a
    directory; where the walk ends there may be anything or nothing. -/
def walkFrom (fs : FileSystem) : Location → List String → Except FileError Location
  | at', [] => .ok at'
  | at', name :: rest =>
    match fs.get? at' with
    | none => .error .notFound
    | some (.file _ _) => .error .notDirectory
    | some .directory =>
      if name = "" ∨ name = "." then walkFrom fs at' rest
      else if name = ".." then walkFrom fs at'.dropLast rest
      else if 255 < name.utf8ByteSize then .error .nameTooLong
      else walkFrom fs (at' ++ [name]) rest

/-- The location of a path. -/
def locate (fs : FileSystem) (path : String) : Except FileError Location :=
  if path.isEmpty then .error .notFound
  else if path.toList.contains '\x00' then .error .zeroInName
  else walkFrom fs (if Path.isRooted path.toList then [] else fs.workingDirectory) (names path)

/-- The entry that a path leads to. -/
def find (fs : FileSystem) (path : String) : Except FileError Entry := do
  let at' ← fs.locate path
  match fs.get? at' with
  | some entry => return entry
  | none => .error .notFound

/-- Whether anything is there. -/
def contains (fs : FileSystem) (path : String) : Bool := (fs.find path).isOk

/-- Whether a file is there. -/
def isFile (fs : FileSystem) (path : String) : Bool :=
  match fs.find path with
  | .ok (.file _ _) => true
  | _ => false

/-! ## Reading and writing -/

/-- What is in a file. -/
def read (fs : FileSystem) (path : String) : Except FileError Content := do
  match ← fs.find path with
  | .file content _ => return content
  | .directory => .error .isDirectory

/-- The text of a file, if it is one. -/
def readText? (fs : FileSystem) (path : String) : Option String :=
  match fs.read path with
  | .ok (.text s) => some s
  | _ => none

/-- Put a content into a file, unless that is refused; a new file is not executable. -/
def writeAt (fs : FileSystem) (at' : Location) (content : Content) : Except FileError FileSystem :=
  match fs.get? at', fs.refusal? at' with
  | some .directory, _ => .error .isDirectory
  | _, some cause => .error cause
  | some (.file _ executable), none => .ok (fs.put at' (.file content executable))
  | none, none => .ok (fs.put at' (.file content false))

/-- Write a file, which is made if it is missing. -/
def write (fs : FileSystem) (path : String) (content : Content) : Except FileError FileSystem := do
  if path.toList.getLast? = some '/' then
    -- A slash at the end asks for a directory, and a directory is never written.
    match fs.find path with
    | .ok _ => .error .isDirectory
    | .error .notFound =>
      match fs.locate (String.ofList (path.toList.dropLast)) with
      | .ok _ => .error .isDirectory
      | .error e => .error e
    | .error e => .error e
  else
    let at' ← fs.locate path
    fs.writeAt at' content

/-- Make a directory at a location, and those it needs. -/
def makeDirectories (fs : FileSystem) (at' : Location) : FileSystem :=
  (List.range at'.length).foldl
    (fun fs n =>
      let here := at'.take (n + 1)
      if (fs.get? here).isSome then fs else fs.put here .directory) fs

/-- Put an entry below the working directory, and make the directories it needs. -/
def place (fs : FileSystem) (path : String) (entry : Entry) : FileSystem :=
  let start := if Path.isRooted path.toList then [] else fs.workingDirectory
  let at' := (names path).foldl
    (fun at' name =>
      if name = "" ∨ name = "." then at' else if name = ".." then at'.dropLast else at' ++ [name])
    start
  match entry with
  | .directory => fs.makeDirectories at'
  | .file _ _ => (fs.makeDirectories at'.dropLast).put at' entry

/-- Refuse to write the file at a path. -/
def refuse (fs : FileSystem) (path : String) (cause : FileError) : FileSystem :=
  match fs.locate path with
  | .ok at' => { fs with refusals := (at', cause) :: fs.refusals }
  | .error _ => fs

/-- Delete a file, if it is there; a directory stays. -/
def delete (fs : FileSystem) (path : String) : FileSystem :=
  match fs.locate path with
  | .ok at' =>
    match fs.get? at' with
    | some (.file _ _) => fs.remove at'
    | _ => fs
  | .error _ => fs

/-- Make a directory the one where relative paths start. -/
def enter (fs : FileSystem) (path : String) : Except FileError FileSystem := do
  let at' ← fs.locate path
  match fs.get? at' with
  | some .directory => return { fs with workingDirectory := at' }
  | some _ => .error .notDirectory
  | none => .error .notFound

end FileSystem

/-! ## Running it -/

example :
    let fs : FileSystem := ({} : FileSystem).place "/a/b.txt" (.file (.text "x") false)
    fs.readText? "/a/./b.txt" = some "x" ∧ fs.contains "/a/c" = false ∧
      fs.isFile "/a" = false ∧ fs.contains "/a/b.txt/" = false := by decide +kernel
example :
    let fs := (({} : FileSystem).place "/a" (.file (.text "x") false)).refuse "/a" .readOnly
    fs.readText? "/a" = some "x" ∧ (fs.write "/a" (.text "y")).isOk = false := by decide +kernel

end CommandLauncher
