/-
  VIEWS — the command tree and the variables as lines of text.

  1. **Rows** — what the tree shows is a list of rows: a group with its depth, its label, how
     many commands are below it and whether it is open, or a command with its depth.  A closed
     group hides everything below it.  The root has no row, and its children have depth zero.

  2. **Lines** — a row is shown as a line of spans, indented by two spaces for each level.

  3. **Variables** — they are listed in the order that the settings ask for, each with the number
     of the commands that refer to it.
-/
import CommandLauncher.CommandTree
import CommandLauncher.Display.Theme
import CommandLauncher.Settings

namespace CommandLauncher

/-! ## Rows -/

/-- A row of the tree view. -/
inductive Row where
  | group (depth : Nat) (expanded : Bool) (label : String) (count : Nat)
  | command (depth : Nat) (c : Command)
deriving DecidableEq, Repr

namespace Row

mutual
/-- The rows of a group: its own, and if it is open those below it. -/
def ofGroup (isOpen : String → Bool) (depth : Nat) : Group → List Row
  | ⟨label, path, gs, cs⟩ =>
    .group depth (isOpen path) label (Group.count ⟨label, path, gs, cs⟩) ::
      (if isOpen path then ofGroups isOpen (depth + 1) gs ++ cs.map (.command (depth + 1)) else [])

/-- The rows of groups, one after another. -/
def ofGroups (isOpen : String → Bool) (depth : Nat) : List Group → List Row
  | [] => []
  | g :: gs => ofGroup isOpen depth g ++ ofGroups isOpen depth gs
end

/-- The rows below a root. -/
def ofTree (isOpen : String → Bool) (root : Group) : List Row :=
  ofGroups isOpen 0 root.groups ++ root.commands.map (.command 0)

/-! ## Lines -/

/-- The spaces in front of a row. -/
def indent (depth : Nat) : String := String.ofList (List.replicate (2 * depth) ' ')

/-- A text that may be missing or empty, behind two spaces. -/
def remark (text : Option String) : List Span :=
  match text with
  | none => []
  | some t => if t.isEmpty then [] else [⟨"  ", .ordinary⟩, ⟨t, .dim⟩]

/-- The colour name that counts for a command: its own unless it is empty, else the general one. -/
def colorName (general : String) (c : Command) : String :=
  match c.iconColor with
  | some own => if own.isEmpty then general else own
  | none => general

/-- A row as a line. -/
def spans (iconColor : String) : Row → List Span
  | group depth expanded label count =>
    [⟨indent depth ++ (if expanded then "▾ " else "▸ "), .ordinary⟩, ⟨label, .strong⟩,
      ⟨" ", .ordinary⟩, ⟨"(" ++ toString count ++ ")", .dim⟩]
  | command depth c =>
    [⟨indent depth, .ordinary⟩, ⟨"•", { color := Theme.color? (colorName iconColor c) }⟩,
      ⟨" " ++ c.title, .ordinary⟩] ++ remark c.description

end Row

/-- The lines of the tree view. -/
def Group.lines (root : Group) (isOpen : String → Bool) (iconColor : String) (color : Bool) :
    List String :=
  (Row.ofTree isOpen root).map fun row => writeLine color (row.spans iconColor)

/-! ## Variables -/

namespace Settings

/-- How many commands refer to a name. -/
def uses (s : Settings) (name : String) : Nat :=
  (s.commands.filter fun c => (Template.references c.command).contains name).length

/-- How the number of uses is shown. -/
def usesText (n : Nat) : String :=
  "(used by " ++ toString n ++ (if n = 1 then " command)" else " commands)")

end Settings

/-- A variable as a line. -/
def Variable.spans (v : Variable) (uses : Nat) : List Span :=
  [⟨v.name, .strong⟩,
    ⟨match v.choices with
      | some options => " ∈ [" ++ Text.join ", " options ++ "] (default: " ++ v.value ++ ")"
      | none => " = " ++ v.value, .ordinary⟩] ++
    Row.remark v.description ++
    Row.remark (if uses = 0 then none else some (Settings.usesText uses))

/-- The lines of the variable view. -/
def Settings.variableLines (s : Settings) (color : Bool) : List String :=
  (arrange Variable.name s.vars s.sortOrder).map fun v =>
    writeLine color (v.spans (s.uses v.name))

/-! ## Running it -/

example :
    let tree := Group.ofCommands
      [{ title := "a", command := "x", group := some "B/C" }, { title := "b", command := "y" }] .settings
    tree.lines (fun p => p = "B") "" false = ["▾ B (1)", "  ▸ C (1)", "▸ Ungrouped (1)"] := by
  decide +kernel

end CommandLauncher
