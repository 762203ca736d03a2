/-
  SHELL — running the text of a command.

  Commands are run by a small shell: words with quotes and parameters, lists of commands, files
  in place of the standard input and outputs, and the few programs that need nothing else.

  1. **Reading** — a script is cut into words and signs.  A word is a list of pieces, literal or
     a parameter, each quoted or not.

  2. **Running** — the commands of a list are run one after another; `&&` and `||` look at the
     status of the one before.  What comes out is a list of texts on the two standard outputs,
     together with the last status and the files afterwards.

  3. **Words** — a parameter stands for its value; where it is not quoted the value is cut at its
     blanks.
-/
import CommandLauncher.Terminal

namespace CommandLauncher.Shell

/-! ## Reading a script -/

/-- A piece of a word. -/
inductive WordPiece where
  | literal (cs : List Char)
  | parameter (name : String) (quoted : Bool)
deriving DecidableEq, Repr

/-- What a script consists of. -/
inductive Token where
  | word (pieces : List WordPiece)
  /-- The end of a command. -/
  | separator
  | andThen
  | orElse
  /-- A file takes the place of the standard input. -/
  | input
  /-- A file takes the place of an output, and is emptied first or not. -/
  | output (descriptor : Nat) (append : Bool)
  /-- An output goes where another one goes. -/
  | duplicate (descriptor target : Nat)
  /-- Something else, which this shell does not know. -/
  | unknown (c : Char)
deriving DecidableEq, Repr

/-- A blank between words. -/
def isGap (c : Char) : Bool := c == ' ' || c == '\t'

/-- A character that ends a word. -/
def endsWord (c : Char) : Bool := isGap c || "\n;&|<>()".toList.contains c

/-- A character of a parameter's name. -/
def isParameterChar (c : Char) : Bool := c.isAlphanum || c == '_'

/-- The name of a parameter behind its dollar sign, and the rest. -/
def parameter? : List Char → Option (String × List Char)
  | '{' :: cs =>
    let name := cs.takeWhile (· ≠ '}')
    match cs.dropWhile (· ≠ '}') with
    | '}' :: rest => if name.isEmpty then none else some (String.ofList name, rest)
    | _ => none
  | c :: cs =>
    if c == '?' || c.isDigit then some (String.singleton c, cs)
    else if isParameterChar c then
      some (String.ofList (c :: cs.takeWhile isParameterChar), cs.dropWhile isParameterChar)
    else none
  | [] => none

/-- Put a literal character in front of the pieces. -/
def consLiteral (c : Char) : List WordPiece → List WordPiece
  | .literal cs :: rest => .literal (c :: cs) :: rest
  | pieces => .literal [c] :: pieces

/-- The pieces between double quotes, and what follows the closing quote. -/
def quotedPieces : Nat → List Char → Option (List WordPiece × List Char)
  | 0, _ => none
  | _ + 1, [] => none
  | _ + 1, '"' :: rest => some ([.literal []], rest)
  | fuel + 1, '\\' :: c :: rest => do
    let (pieces, rest) ← quotedPieces fuel rest
    return (if "$`\"\\".toList.contains c then (consLiteral c pieces, rest)
      else if c == '\n' then (pieces, rest) else (consLiteral '\\' (consLiteral c pieces), rest))
  | fuel + 1, '$' :: rest =>
    match parameter? rest with
    | some (name, rest) => do
      let (pieces, rest) ← quotedPieces fuel rest
      return (.parameter name true :: pieces, rest)
    | none => do
      let (pieces, rest) ← quotedPieces fuel rest
      return (consLiteral '$' pieces, rest)
  | fuel + 1, c :: rest => do
    let (pieces, rest) ← quotedPieces fuel rest
    return (consLiteral c pieces, rest)

/-- The pieces of a word, and what follows it. -/
def wordPieces : Nat → List Char → Option (List WordPiece × List Char)
  | 0, _ => none
  | _ + 1, [] => some ([], [])
  | fuel + 1, '\'' :: rest => do
    match rest.dropWhile (· ≠ '\'') with
    | [] => none
    | _ :: after =>
      let (pieces, after) ← wordPieces fuel after
      return (.literal (rest.takeWhile (· ≠ '\'')) :: pieces, after)
  | fuel + 1, '"' :: rest => do
    let (quoted, rest) ← quotedPieces fuel rest
    let (pieces, rest) ← wordPieces fuel rest
    return (quoted ++ pieces, rest)
  | fuel + 1, '\\' :: c :: rest => do
    let (pieces, rest) ← wordPieces fuel rest
    return (if c == '\n' then (pieces, rest) else (consLiteral c pieces, rest))
  | fuel + 1, '$' :: rest =>
    match parameter? rest with
    | some (name, rest) => do
      let (pieces, rest) ← wordPieces fuel rest
      return (.parameter name false :: pieces, rest)
    | none => do
      let (pieces, rest) ← wordPieces fuel rest
      return (consLiteral '$' pieces, rest)
  | fuel + 1, c :: rest =>
    if endsWord c then some ([], c :: rest)
    else do
      let (pieces, rest) ← wordPieces fuel rest
      return (consLiteral c pieces, rest)

/-- The tokens of a script; nothing where a quote is not closed. -/
def tokens? : Nat → List Char → Option (List Token)
  | 0, _ => some []
  | _ + 1, [] => some []
  | fuel + 1, '&' :: '&' :: rest => (tokens? fuel rest).map (.andThen :: ·)
  | fuel + 1, '|' :: '|' :: rest => (tokens? fuel rest).map (.orElse :: ·)
  | fuel + 1, '2' :: '>' :: '&' :: '1' :: rest => (tokens? fuel rest).map (.duplicate 2 1 :: ·)
  | fuel + 1, '2' :: '>' :: '>' :: rest => (tokens? fuel rest).map (.output 2 true :: ·)
  | fuel + 1, '2' :: '>' :: rest => (tokens? fuel rest).map (.output 2 false :: ·)
  | fuel + 1, '1' :: '>' :: '&' :: '2' :: rest => (tokens? fuel rest).map (.duplicate 1 2 :: ·)
  | fuel + 1, '>' :: '&' :: '2' :: rest => (tokens? fuel rest).map (.duplicate 1 2 :: ·)
  | fuel + 1, '>' :: '>' :: rest => (tokens? fuel rest).map (.output 1 true :: ·)
  | fuel + 1, '>' :: rest => (tokens? fuel rest).map (.output 1 false :: ·)
  | fuel + 1, '<' :: rest => (tokens? fuel rest).map (.input :: ·)
  | fuel + 1, c :: rest =>
    if isGap c then tokens? fuel rest
    else if c == ';' || c == '\n' then (tokens? fuel rest).map (.separator :: ·)
    else if c == '#' then tokens? fuel (rest.dropWhile (· ≠ '\n'))
    else if endsWord c then (tokens? fuel rest).map (.unknown c :: ·)
    else
      match wordPieces (rest.length + 2) (c :: rest) with
      | some (pieces, rest) => (tokens? fuel rest).map (.word pieces :: ·)
      | none => none

/-- The tokens of a script; nothing where a quote is not closed. -/
def tokens (script : String) : Option (List Token) :=
  tokens? (script.length + 1) script.toList

/-! ## The state of a run -/

/-- Where an output goes. -/
inductive Target where
  | standardOutput
  | standardError
  | file (path : String)
deriving DecidableEq, Repr

/-- A run so far. -/
structure Run where
  files : FileSystem
  environment : Environment
  /-- How the shell was called. -/
  name : String
  status : Nat := 0
  exited : Bool := false
  /-- The texts on the standard outputs; those on the error output are marked. -/
  output : List (Bool × String) := []

namespace Run

/-- The value of a parameter. -/
def parameter (r : Run) (name : String) : String :=
  if name = "0" then r.name
  else if name = "?" then toString r.status
  else (r.environment.get? name).getD ""

/-- Write a text to a target. -/
def write (r : Run) (target : Target) (text : String) : Run :=
  if text.isEmpty then r
  else
    match target with
    | .standardOutput => { r with output := r.output ++ [(false, text)] }
    | .standardError => { r with output := r.output ++ [(true, text)] }
    | .file path =>
      let before := (r.files.readText? path).getD ""
      match r.files.write path (.text (before ++ text)) with
      | .ok files => { r with files }
      | .error _ => r

end Run

/-! ## Words -/

/-- The fields of the pieces.  `current` is the field under construction. -/
def fieldsOf (r : Run) : List WordPiece → Option (List Char) → List (List Char)
  | [], none => []
  | [], some current => [current]
  | .literal cs :: rest, current => fieldsOf r rest (some (current.getD [] ++ cs))
  | .parameter name true :: rest, current =>
    fieldsOf r rest (some (current.getD [] ++ (r.parameter name).toList))
  | .parameter name false :: rest, current =>
    let value := (r.parameter name).toList
    let parts := (Text.split ' ' (String.ofList (value.map fun c =>
      if isGap c || c == '\n' then ' ' else c))).map String.toList
    match parts with
    | [] => fieldsOf r rest current
    | [only] => if only.isEmpty then fieldsOf r rest current
                else fieldsOf r rest (some (current.getD [] ++ only))
    | first :: others =>
      let head := (match current with
        | some c => [c ++ first]
        | none => if first.isEmpty then [] else [first])
      let middle := others.dropLast.filter (!·.isEmpty)
      let last := others.getLast?.getD []
      head ++ middle ++ fieldsOf r rest (if last.isEmpty then none else some last)

/-- The fields of a word. -/
def fields (r : Run) (pieces : List WordPiece) : List String :=
  (fieldsOf r pieces none).map String.ofList

/-! ## Programs -/

/-- The value of an octal escape of up to three digits, and the rest. -/
def octal (cs : List Char) : Char × List Char :=
  let digits := (cs.take 3).takeWhile fun c => '0' ≤ c && c ≤ '7'
  (Char.ofNat ((digits.foldl (fun n c => 8 * n + (c.toNat - 48)) 0) % 256), cs.drop digits.length)

/-- A text with its escapes replaced; whether the text goes on to its end. -/
def unescape : Nat → List Char → List Char × Bool
  | 0, cs => (cs, true)
  | _ + 1, [] => ([], true)
  | fuel + 1, '\\' :: c :: rest =>
    let go (d : Char) (rest : List Char) :=
      let (text, whole) := unescape fuel rest
      (d :: text, whole)
    match c with
    | 'a' => go '\x07' rest
    | 'b' => go '\x08' rest
    | 'c' => ([], false)
    | 'f' => go '\x0c' rest
    | 'n' => go '\n' rest
    | 'r' => go '\r' rest
    | 't' => go '\t' rest
    | 'v' => go '\x0b' rest
    | '\\' => go '\\' rest
    | '0' =>
      let (d, rest) := octal rest
      go d rest
    | _ =>
      let (text, whole) := unescape fuel (c :: rest)
      ('\\' :: text, whole)
  | fuel + 1, c :: rest =>
    let (text, whole) := unescape fuel rest
    (c :: text, whole)

/-- What `echo` writes. -/
def echo (arguments : List String) : String :=
  let (quiet, words) := (match arguments with
    | "-n" :: rest => (true, rest)
    | words => (false, words))
  let joined := Text.join " " words
  let (text, whole) := unescape (joined.length + 1) joined.toList
  String.ofList text ++ (if quiet || !whole then "" else "\n")

/-- Write files one after another. -/
def cat (input : String) (out err : Target) : List String → Run → Run
  | [], r => r
  | "-" :: rest, r => cat input out err rest (r.write out input)
  | path :: rest, r =>
    match r.files.read path with
    | .ok (.text s) => cat input out err rest (r.write out s)
    | .ok (.bytes _) => cat input out err rest r
    | .error e =>
      let cause := String.ofList (e.message.toList.takeWhile (· ≠ '('))
      cat input out err rest
        { (r.write err ("cat: " ++ path ++ ": " ++ Text.trim cause ++ "\n")) with status := 1 }

/-- The path of the working directory. -/
def workingPath (fs : FileSystem) : String := "/" ++ Text.join "/" fs.workingDirectory

/-- The number that decimal digits stand for. -/
def decimal? (s : String) : Option Nat :=
  if s.isEmpty || !s.toList.all Char.isDigit then none
  else some (s.toList.foldl (fun n c => 10 * n + (c.toNat - 48)) 0)

/-- Run a program by its name. -/
def runProgram (r : Run) (input : String) (out err : Target) : List String → Run
  | [] => { r with status := 0 }
  | program :: arguments =>
    match program with
    | ":" | "true" => { r with status := 0 }
    | "false" => { r with status := 1 }
    | "echo" => { (r.write out (echo arguments)) with status := 0 }
    | "pwd" => { (r.write out (workingPath r.files ++ "\n")) with status := 0 }
    | "cat" =>
      cat input out err (if arguments.isEmpty then ["-"] else arguments) { r with status := 0 }
    | "exit" =>
      { r with
        exited := true
        status := ((arguments.head?.bind decimal?).map (· % 256)).getD r.status }
    | _ =>
      { (r.write err (r.name ++ ": 1: " ++ program ++ ": not found\n")) with status := 127 }

/-! ## Commands -/

/-- A command under construction. -/
structure Draft where
  words : List String := []
  input : String := ""
  out : Target := .standardOutput
  err : Target := .standardError

/-- The target that a descriptor of a draft has. -/
def Draft.target (d : Draft) (descriptor : Nat) : Target :=
  if descriptor = 2 then d.err else d.out

/-- Give a descriptor of a draft a target. -/
def Draft.redirect (d : Draft) (descriptor : Nat) (target : Target) : Draft :=
  if descriptor = 2 then { d with err := target } else { d with out := target }

/-- Complain about a file that cannot be opened. -/
def Run.refuseFile (r : Run) (verb path : String) (e : FileError) : Run :=
  let cause := match e with
    | .notFound => if verb = "open" then "No such file" else "Directory nonexistent"
    | other => Text.trim (String.ofList (other.message.toList.takeWhile (· ≠ '(')))
  { (r.write .standardError
      (r.name ++ ": 1: cannot " ++ verb ++ " " ++ path ++ ": " ++ cause ++ "\n")) with status := 2 }

/-- Take the words and files up to the end of a command; the draft is missing when a file could
    not be opened.  The rest starts with the token that ended the command. -/
def takeCommand : Nat → List Token → Option Draft → Run → Option Draft × List Token × Run
  | 0, ts, d, r => (d, ts, r)
  | fuel + 1, ts, d, r =>
    match ts with
    | .word pieces :: rest =>
      takeCommand fuel rest (d.map fun d => { d with words := d.words ++ fields r pieces }) r
    | .duplicate descriptor target :: rest =>
      takeCommand fuel rest (d.map fun d => d.redirect descriptor (d.target target)) r
    | .input :: .word pieces :: rest =>
      let path := Text.join " " (fields r pieces)
      match d, r.files.read path with
      | some d, .ok (.text s) => takeCommand fuel rest (some { d with input := s }) r
      | some d, .ok (.bytes _) => takeCommand fuel rest (some d) r
      | some _, .error e => takeCommand fuel rest none (r.refuseFile "open" path e)
      | none, _ => takeCommand fuel rest none r
    | .output descriptor append :: .word pieces :: rest =>
      let path := Text.join " " (fields r pieces)
      let content := if append then (r.files.readText? path).getD "" else ""
      match d, r.files.write path (.text content) with
      | some d, .ok files =>
        takeCommand fuel rest (some (d.redirect descriptor (.file path))) { r with files }
      | some _, .error e => takeCommand fuel rest none (r.refuseFile "create" path e)
      | none, _ => takeCommand fuel rest none r
    | _ => (d, ts, r)

/-- Pass the command at the front without running it. -/
def skipCommand : List Token → List Token
  | .separator :: ts => .separator :: ts
  | .andThen :: ts => .andThen :: ts
  | .orElse :: ts => .orElse :: ts
  | _ :: ts => skipCommand ts
  | [] => []

/-- Run the commands of a list; `active` says whether the one at the front is to be run. -/
def runList : Nat → Bool → List Token → Run → Run
  | 0, _, _, r => r
  | fuel + 1, active, ts, r =>
    if r.exited then r
    else
      match ts with
      | [] => r
      | .separator :: rest => runList fuel true rest r
      | .andThen :: rest => runList fuel (r.status == 0) rest r
      | .orElse :: rest => runList fuel (r.status != 0) rest r
      | _ =>
        if !active then runList fuel true (skipCommand ts) r
        else
          let (draft, rest, r) := takeCommand fuel ts (some {}) r
          let r := (match draft with
            | some d => runProgram r d.input d.out d.err d.words
            | none => r)
          if rest.length < ts.length then runList fuel true rest r
          else { (r.write .standardError (r.name ++ ": 1: Syntax error\n")) with status := 2 }

/-- Run a script. -/
def run (script : String) (r : Run) : Run :=
  match tokens script with
  | some ts => runList (2 * ts.length + 1) true ts r
  | none =>
    { (r.write .standardError (r.name ++ ": 1: Syntax error: Unterminated quoted string\n")) with
      status := 2 }

/-- Start a shell in a directory and run a script.  The files keep their own working directory. -/
def start (fs : FileSystem) (environment : Environment) (program directory script : String) :
    Except FileError Run := do
  let inside ← fs.enter directory
  match ← inside.find program with
  | .file _ true =>
    let r := run script { files := inside, environment, name := program }
    return { r with files := { r.files with workingDirectory := fs.workingDirectory } }
  | _ => .error .permissionDenied

/-! ## Running it -/

example :
    let fs := ({} : FileSystem).place "/p" .directory |>.place "/bin/sh" (.file (.text "") true)
    let r := (start fs [] "/bin/sh" "/p" "echo x > made; cat made && false || echo \"$?\"; exit 3").toOption
    r.map (·.output) = some [(false, "x\n"), (false, "1\n")] ∧ r.map (·.status) = some 3 ∧
      (r.bind fun r => r.files.readText? "/p/made") = some "x\n" := by decide +kernel

end CommandLauncher.Shell
