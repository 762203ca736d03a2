/-
  THEMES — colours by the names that settings give them.

  A colour is named as in an editor's theme: `terminal.ansi` or `charts.`, followed by the name
  of a basic or bright colour in any case of letters.  Other names mean no colour.
-/
import CommandLauncher.Display.Style
import CommandLauncher.Text.Case

namespace CommandLauncher.Theme

/-- The colour of the arrow in front of a command that is run. -/
def accent : Color := .mixed 207 106 76

/-- What follows a fixed start of a text. -/
def after? (start s : String) : Option String :=
  if start.toList.isPrefixOf s.toList then some (String.ofList (s.toList.drop start.length))
  else none

/-- A colour by its own name, in lower case. -/
def named? (name : String) : Option Color :=
  match name with
  | "black" => some (.basic .black)
  | "red" => some (.basic .red)
  | "green" => some (.basic .green)
  | "yellow" => some (.basic .yellow)
  | "blue" => some (.basic .blue)
  | "magenta" | "purple" => some (.basic .magenta)
  | "cyan" => some (.basic .cyan)
  | "white" => some (.basic .white)
  | "brightblack" => some (.bright .black)
  | "brightred" | "orange" => some (.bright .red)
  | "brightgreen" => some (.bright .green)
  | "brightyellow" => some (.bright .yellow)
  | "brightblue" => some (.bright .blue)
  | "brightmagenta" => some (.bright .magenta)
  | "brightcyan" => some (.bright .cyan)
  | "brightwhite" => some (.bright .white)
  | _ => none

/-- The colour with a name in a theme. -/
def color? (id : String) : Option Color :=
  ((after? "terminal.ansi" id).or (after? "charts." id)).bind fun name =>
    named? (Text.lowerAscii name)

/-! ## Running it -/

example : color? "terminal.ansiBrightCyan" = some (.bright .cyan) ∧
    color? "charts.PURPLE" = some (.basic .magenta) ∧ color? "editor.foreground" = none := by
  decide +kernel

end CommandLauncher.Theme
