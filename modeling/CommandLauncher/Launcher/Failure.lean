/-
  FAILURES — why an action of the launcher does not do what it was asked to.

  A failure is shown to the user by its message.  The log keeps its anatomy as well.
-/
import CommandLauncher.Settings.File
import CommandLauncher.Terminal

namespace CommandLauncher

/-- Why an action failed. -/
inductive Failure where
  | settings (e : SettingsError)
  | missingVariables (names : List String)
  | noTerminal
  | sending (e : SendError)
  | unknownCommand (title : String)
deriving DecidableEq, Repr

namespace Failure

/-- The names as they are written in a text. -/
def tokens (names : List String) : String := Text.join ", " (names.map Variable.token)

/-- The wording of a failure. -/
def message : Failure → String
  | settings e => e.message
  | missingVariables names => "Missing variables: " ++ tokens names
  | noTerminal => "No active terminal to send the command to"
  | sending e => e.message
  | unknownCommand title => "No command titled '" ++ title ++ "'"

/-! ## Anatomy -/

/-- A list of quoted texts. -/
def quotedList (xs : List String) : String :=
  "[" ++ Text.join ", " (xs.map Text.quoted) ++ "]"

/-- The anatomy of a failure, as the log keeps it. -/
def anatomy : Failure → String
  | settings (.notFound path) => "Settings(SettingsNotFound(" ++ Text.quoted path ++ "))"
  | settings (.invalid problem) =>
    "Settings(Validation(" ++ Text.quoted problem.message ++ "))"
  | settings e => "Settings(" ++ e.message ++ ")"
  | missingVariables names => "MissingVariables(" ++ quotedList names ++ ")"
  | noTerminal => "NoActiveSink"
  | sending e => "Sink(" ++ e.message ++ ")"
  | unknownCommand title => "UnknownCommand(" ++ Text.quoted title ++ ")"

end Failure

/-! ## Running it -/

example : (Failure.missingVariables ["a", "b"]).message =
    "Missing variables: $\x7ba\x7d, $\x7bb\x7d" := by decide +kernel

end CommandLauncher
