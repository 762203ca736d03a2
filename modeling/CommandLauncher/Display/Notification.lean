/-
  NOTIFICATIONS — what the user is told about the outcome of an action.

  A notification is a message with a severity.  It is shown on a line of its own behind the name
  of its severity, which is the only part of it that is coloured.
-/
import CommandLauncher.Display.Style

namespace CommandLauncher

/-- How prominent a notification is. -/
inductive Severity where
  | info
  | error
deriving DecidableEq, Repr

/-- The name of a severity. -/
def Severity.name : Severity → String
  | info => "info"
  | error => "error"

/-- How the name of a severity looks. -/
def Severity.style : Severity → Style
  | info => { color := some (.basic .blue) }
  | error => { color := some (.basic .red), bold := true }

/-- A message to the user. -/
structure Notification where
  severity : Severity
  message : String
deriving DecidableEq, Repr

/-- A notification as a line. -/
def Notification.line (n : Notification) (color : Bool) : String :=
  writeLine color [⟨n.severity.name, n.severity.style⟩, ⟨": " ++ n.message, .ordinary⟩]

/-! ## Running it -/

example : (Notification.mk .error "Broken").line true = "\x1b[1m\x1b[31merror\x1b[0m: Broken" := by
  decide +kernel

end CommandLauncher
