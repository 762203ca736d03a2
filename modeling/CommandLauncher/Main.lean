/-
  The command line of the launcher.

  The files that a run can need are read into a value, with those that cannot be written marked as
  such, the run is performed on that value, and the files that it changed are written back.  A run
  needs the settings files from the working directory upwards, the state file beside the settings,
  and the shell.
-/
import CommandLauncher.CommandLine.Program

open CommandLauncher

namespace CommandLauncher.Main

/-- The environment variables that a run looks at. -/
def variableNames : List String := ["PATH", "SHELL", "RUST_LOG", "HOME", "USER", "PWD"]

/-- Read the environment. -/
def readEnvironment : IO Environment := do
  let values ← variableNames.mapM fun name => do
    return (← IO.getEnv name).map fun value => (name, value)
  return values.filterMap id

/-- Whether a file or directory can be opened. -/
def canOpen (path : String) : IO Bool := do
  match ← (IO.FS.Handle.mk path .read).toBaseIO with
  | .ok _ => return true
  | .error _ => return false

/-- Why a file that is there cannot be opened for writing. -/
def refusalOf? (path : String) : IO (Option FileError) := do
  match ← (IO.FS.Handle.mk path .readWrite).toBaseIO with
  | .ok _ => return none
  | .error (.permissionDenied _ 30 _) => return some .readOnly
  | .error _ => return some .permissionDenied

/-- Put a file with its content into the value, if it can be read. -/
def fetch (fs : FileSystem) (path : String) : IO FileSystem := do
  match ← (IO.FS.readBinFile path).toBaseIO with
  | .ok data =>
    let fs := fs.place path (.file (.ofBytes data.toList) false)
    match ← refusalOf? path with
    | some cause => return fs.refuse path cause
    | none => return fs
  | .error _ => return fs

/-- Put a program into the value, if it is there; its content does not matter. -/
def fetchProgram (fs : FileSystem) (path : String) : IO FileSystem := do
  return if ← canOpen path then fs.place path (.file (.text "") true) else fs

/-- Put a directory into the value, if it is there. -/
def fetchDirectory (fs : FileSystem) (path : String) : IO FileSystem := do
  return if ← canOpen path then fs.place path .directory else fs

/-- The settings files that a run may choose from. -/
def settingsPaths (current : String) (i : Invocation) : List String :=
  match i.config with
  | some path => [path]
  | none => (Path.ancestors current).flatMap fun d => Store.fileNames.map (Path.join d)

/-- The places at which the shell may be found. -/
def shellPaths (fs : FileSystem) (environment : Environment) (store : Store) : List String :=
  let program := shellFor (store.read fs).1.toOption environment
  if program.toList.contains '/' then [program]
  else environment.programDirectories.map fun d => Path.join d program

/-- Read everything that a run can need. -/
def gather (environment : Environment) (i : Invocation) : IO FileSystem := do
  let current := toString (← IO.currentDir)
  let fs := ({} : FileSystem).place current .directory
  let fs := { fs with workingDirectory := FileSystem.names current |>.filter (!·.isEmpty) }
  let fs ← (i.logFile.bind Path.parent?).toList.foldlM fetchDirectory fs
  let fs ← (settingsPaths current i).foldlM fetch fs
  match (Program.openStore fs i.config).1 with
  | .error _ => return fs
  | .ok store =>
    let fs ← fetch fs (Expansion.pathFor store)
    (shellPaths fs environment store).foldlM fetchProgram fs

/-- The bytes of a content. -/
def bytesOf : Content → ByteArray
  | .text s => s.toUTF8
  | .bytes data => ⟨data.toArray⟩

/-- Write back one changed entry. -/
def writeBack (before : FileSystem) (entry : Location × Entry) : IO Unit := do
  if before.get? entry.1 ≠ some entry.2 then
    match entry.2 with
    | .file content _ => IO.FS.writeBinFile ("/" ++ Text.join "/" entry.1) (bytesOf content)
    | .directory => pure ()

/-- Perform a run. -/
def perform (words : List String) : IO UInt32 := do
  let environment ← readEnvironment
  let before ← match Invocation.parse words with
    | some i => gather environment i
    | none => pure {}
  let outcome := Program.run before environment "0.000s" words
  outcome.files.entries.forM (writeBack before)
  IO.print outcome.output
  IO.eprint outcome.errors
  return outcome.code.toUInt32

end CommandLauncher.Main

/-- The program. -/
def main (words : List String) : IO UInt32 := CommandLauncher.Main.perform words
