/-
  INVOCATIONS — what a command line asks the program to do.

  The options come before the command.  A command that shows something is an action of the
  launcher with a view that subscribes to it beforehand; without a command the user picks one of
  the configured commands and runs it.
-/
import CommandLauncher.CommandLine.Arguments
import CommandLauncher.Launcher

namespace CommandLauncher

open Arguments

/-- What the program is asked to do. -/
inductive Request where
  | publishSchema
  | act (view : Option Subscriber) (action : Action)
deriving DecidableEq, Repr

/-- A whole command line. -/
structure Invocation where
  config : Option String := none
  logFile : Option String := none
  request : Request
deriving DecidableEq, Repr

/-! ## Commands -/

/-- A command of the command line: what may follow its name, how many operands have to, and what
    it asks for. -/
structure CommandRule where
  name : String
  level : Grammar := {}
  required : Nat := 0
  request : Given → Request

namespace CommandRule

/-- A command without operands. -/
def plain (name : String) (request : Request) : CommandRule :=
  { name, request := fun _ => request }

/-- A command with one operand. -/
def unary (name : String) (request : String → Request) : CommandRule :=
  { name, level := { operands := 1 }, required := 1,
    request := fun g => request (g.operands.headD "") }

/-- The option that opens every group. -/
def everythingOpen : OptionRule := { long := "expand-all", takesValue := false }

/-- All commands. -/
def all : List CommandRule := [
  plain "variables" (.act (some .variableView) (.refresh .vars)),
  { name := "commands", level := { options := [everythingOpen] },
    request := fun g => .act (some (.treeView (g.has everythingOpen.long))) (.refresh .commands) },
  { name := "run", level := { operands := 1 },
    request := fun g =>
      .act none (match g.operands with
        | [] => .run none
        | title :: _ => .runTitled title) },
  plain "add-variable" (.act none (.add .vars)),
  unary "edit-variable" fun name => .act none (.edit .vars name),
  unary "remove-variable" fun name => .act none (.remove .vars name),
  plain "add-command" (.act none (.add .commands)),
  unary "edit-command" fun title => .act none (.edit .commands title),
  unary "remove-command" fun title => .act none (.remove .commands title),
  unary "expand" fun path => .act (some (.treeView false)) (.expand path),
  unary "collapse" fun path => .act (some (.treeView false)) (.collapse path),
  plain "schema" .publishSchema]

/-- What a command with the given words behind it asks for. -/
def interpret (rule : CommandRule) (words : List String) : Option Request := do
  let (given, _) ← readWords rule.level words {}
  if given.operands.length < rule.required then none else return rule.request given

end CommandRule

/-! ## The whole command line -/

namespace Invocation

/-- The option that names the settings file. -/
def configOption : OptionRule := { long := "config", letter := some 'c', takesValue := true }

/-- The option that names a log file. -/
def logFileOption : OptionRule := { long := "log-file", takesValue := true }

/-- What may be written in front of a command. -/
def topLevel : Grammar :=
  { options := [configOption, logFileOption], commands := CommandRule.all.map (·.name) }

/-- Understand a command line; nothing where it breaks a rule. -/
def parse (words : List String) : Option Invocation := do
  let (given, command) ← readWords topLevel words {}
  let request ← match command with
    | none => some (Request.act none (.run none))
    | some (name, rest) =>
      (CommandRule.all.find? fun rule => rule.name = name).bind fun rule => rule.interpret rest
  return {
    config := given.value? configOption.long
    logFile := given.value? logFileOption.long
    request }

end Invocation

/-! ## Running it -/

example : (Invocation.parse ["-c", "x.json", "run", "--", "-x"]) =
    some { config := some "x.json", request := .act none (.runTitled "-x") } := by decide +kernel
example : Invocation.parse ["run", "-x"] = none ∧ Invocation.parse ["edit-variable"] = none ∧
    Invocation.parse ["commands", "--expand"] = none ∧ Invocation.parse ["--", "run"] = none := by
  decide +kernel

end CommandLauncher
