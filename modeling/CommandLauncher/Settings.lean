/-
  SETTINGS — the document that the launcher keeps: variables, commands and a few choices.

  1. **The document** — every field may be left out of a settings file; what is left out has the
     value that `Settings` gives it.

  2. **Usable commands** — a document is refused when a command has a blank title or a blank
     text; the first such command in the document decides what is said (`problem?`).

  3. **Remarks** — everything else is accepted as it stands, with remarks: on names that no text
     can refer to, and on names and titles that were already defined further up.  A refused
     document gets only the remarks on names.
-/
import CommandLauncher.Command
import CommandLauncher.SortOrder

namespace CommandLauncher

/-- The settings document. -/
structure Settings where
  sortOrder : SortOrder := .settings
  commandIconColor : String := ""
  sendNewLine : Option Bool := none
  shell : Option String := none
  vars : List Variable := []
  commands : List Command := []
deriving DecidableEq, Repr, Inhabited

namespace Settings

/-! ## Usable commands -/

/-- Why a command cannot be used. -/
inductive Problem where
  | blankTitle (command : String)
  | blankCommand (title : String)
deriving DecidableEq, Repr

/-- The wording of a problem. -/
def Problem.message : Problem → String
  | blankTitle command => "Command '" ++ command ++ "' has an empty title"
  | blankCommand title => "Command '" ++ title ++ "' has an empty command string"

/-- What is wrong with a command. -/
def problemOf? (c : Command) : Option Problem :=
  if Text.isBlankText c.title then some (.blankTitle c.command)
  else if Text.isBlankText c.command then some (.blankCommand c.title)
  else none

/-- What is wrong with the first unusable command. -/
def problem? (s : Settings) : Option Problem := s.commands.findSome? problemOf?

/-- A document is usable exactly when no command has a blank title or text. -/
theorem problem?_eq_none_iff {s : Settings} :
    s.problem? = none ↔
      ∀ c ∈ s.commands, Text.isBlankText c.title = false ∧ Text.isBlankText c.command = false := by
  unfold problem?
  rw [List.findSome?_eq_none_iff]
  refine forall_congr' fun c => forall_congr' fun _ => ?_
  unfold problemOf?
  split
  · simp_all
  · split <;> simp_all

/-! ## Remarks -/

/-- What is remarked on an accepted entry. -/
inductive Remark where
  | badName (name : String)
  | repeatedVariable (name : String)
  | repeatedCommand (title : String)
deriving DecidableEq, Repr

/-- The wording of a remark. -/
def Remark.message : Remark → String
  | badName name =>
    "Variable name '" ++ name ++ "' may only contain letters, digits, '_' and '-'"
  | repeatedVariable name => "Duplicate variable '" ++ name ++ "', the last definition wins"
  | repeatedCommand title => "Duplicate command '" ++ title ++ "', the last definition wins"

/-- The keys that occurred further up or are among `seen`, one for each further occurrence. -/
def repeats (seen : List String) : List String → List String
  | [] => []
  | k :: ks => if k ∈ seen then k :: repeats seen ks else repeats (k :: seen) ks

/-- The variables that no text can refer to. -/
def nameRemarks (s : Settings) : List Remark :=
  (s.vars.filter fun v => !Variable.isName v.name).map fun v => .badName v.name

/-- The definitions that come after another one of the same name or title. -/
def repeatRemarks (s : Settings) : List Remark :=
  (repeats [] (s.vars.map (·.name))).map .repeatedVariable ++
    (repeats [] (s.commands.map (·.title))).map .repeatedCommand

/-- All remarks on a document, in the order in which they are made. -/
def remarks (s : Settings) : List Remark :=
  match s.problem? with
  | some _ => s.nameRemarks
  | none => s.nameRemarks ++ s.repeatRemarks

end Settings

/-! ## Running it -/

example : Settings.repeats [] ["a", "b", "a", "a"] = ["a", "a"] := by decide
example : ({ commands := [⟨"t", " ", none, none, none, none, none⟩] } : Settings).problem? =
    some (.blankCommand "t") := by decide +kernel

end CommandLauncher
