/-
  ARGUMENTS — reading the words behind a program's or a command's name.

  1. **Rules** — options have a long name and perhaps a letter, and some of them take a value.
     A level of the command line has options, a number of operands and names of commands, at
     which the reading of the level ends.

  2. **Values** — the value of an option is attached to it, behind an equals sign or right behind
     the letter, or is the next word.  A next word that looks like an option is no value; a single
     hyphen looks like a word.

  3. **Operands** — behind `--` every word is an operand.  An option may be given once, and there
     may be no more operands than the level takes.
-/
import CommandLauncher.Text.Parts

namespace CommandLauncher.Arguments

/-! ## Rules -/

/-- An option. -/
structure OptionRule where
  long : String
  letter : Option Char := none
  takesValue : Bool
deriving DecidableEq, Repr

/-- What may be written at a level of the command line. -/
structure Grammar where
  options : List OptionRule := []
  commands : List String := []
  /-- How many operands there may be. -/
  operands : Nat := 0
deriving Repr

/-- What has been given at a level. -/
structure Given where
  options : List (String × String) := []
  operands : List String := []
deriving DecidableEq, Repr

namespace Given

/-- The value of an option. -/
def value? (g : Given) (long : String) : Option String :=
  (g.options.find? fun o => o.1 = long).map (·.2)

/-- Whether an option is given. -/
def has (g : Given) (long : String) : Bool := (g.value? long).isSome

/-- Add an option, unless it is given already. -/
def addOption (g : Given) (long value : String) : Option Given :=
  if g.has long then none else some { g with options := g.options ++ [(long, value)] }

/-- Add operands, unless they are too many. -/
def addOperands (level : Grammar) (g : Given) (words : List String) : Option Given :=
  if g.operands.length + words.length ≤ level.operands then
    some { g with operands := g.operands ++ words }
  else none

end Given

/-! ## Words -/

/-- What a word is. -/
inductive Word where
  | escape
  | long (name : String) (attached : Option String)
  | letter (c : Char) (rest : List Char)
  | operand
deriving DecidableEq, Repr

/-- What a word is, by its looks. -/
def Word.of (s : String) : Word :=
  match s.toList with
  | ['-', '-'] => .escape
  | '-' :: '-' :: cs =>
    match cs.dropWhile (· ≠ '=') with
    | [] => .long (String.ofList cs) none
    | _ :: value => .long (String.ofList (cs.takeWhile (· ≠ '='))) (some (String.ofList value))
  | '-' :: c :: rest => .letter c rest
  | _ => .operand

/-- The value attached behind a letter. -/
def attachedValue : List Char → Option String
  | [] => none
  | '=' :: value => some (String.ofList value)
  | value => some (String.ofList value)

/-! ## Reading a level -/

/-- Read the words of a level; nothing where they break a rule.  If a command is named, its name
    and the words behind it are left over. -/
def readWords (level : Grammar) : List String → Given → Option (Given × Option (String × List String))
  | [], g => some (g, none)
  | [word], g =>
    match Word.of word with
    | .escape => some (g, none)
    | .operand =>
      if word ∈ level.commands then some (g, some (word, []))
      else (g.addOperands level [word]).map fun g => (g, none)
    | .long name attached => do
      let rule ← level.options.find? fun r => r.long = name
      let g ← match rule.takesValue, attached with
        | true, some value => g.addOption name value
        | false, none => g.addOption name ""
        | _, _ => none
      return (g, none)
    | .letter c rest => do
      let rule ← level.options.find? fun r => r.letter = some c
      let value ← attachedValue rest
      let g ← if rule.takesValue then g.addOption rule.long value else none
      return (g, none)
  | word :: next :: words, g =>
    match Word.of word with
    | .escape => (g.addOperands level (next :: words)).map fun g => (g, none)
    | .operand =>
      if word ∈ level.commands then some (g, some (word, next :: words))
      else do readWords level (next :: words) (← g.addOperands level [word])
    | .long name attached => do
      let rule ← level.options.find? fun r => r.long = name
      match rule.takesValue, attached with
      | true, some value => readWords level (next :: words) (← g.addOption name value)
      | true, none =>
        if Word.of next = .operand then readWords level words (← g.addOption name next) else none
      | false, none => readWords level (next :: words) (← g.addOption name "")
      | false, some _ => none
    | .letter c rest => do
      let rule ← level.options.find? fun r => r.letter = some c
      if !rule.takesValue then none
      else
        match attachedValue rest with
        | some value => readWords level (next :: words) (← g.addOption rule.long value)
        | none =>
          if Word.of next = .operand then readWords level words (← g.addOption rule.long next) else none

/-! ## Running it -/

example :
    let level : Grammar := { options := [⟨"config", some 'c', true⟩], commands := ["run"] }
    readWords level ["-c=a", "run", "-x"] {} = some (⟨[("config", "a")], []⟩, some ("run", ["-x"])) ∧
      readWords level ["--config", "run"] {} = some (⟨[("config", "run")], []⟩, none) ∧
      readWords level ["--config", "-x"] {} = none ∧ readWords level ["-ca", "-cb"] {} = none := by
  decide +kernel

end CommandLauncher.Arguments
