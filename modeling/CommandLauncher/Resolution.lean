/-
  RESOLUTION — finding values for the references of a text.

  Looking a name up may need the user, and the user is a process with a state of its own.  So
  lookups live in a monad `m`, which the pure operations take to be a state monad over a list of
  prepared answers and a session takes to be its own.

  1. **One lookup per name** — `fill` asks for each referenced name once, in the order of the
     first occurrences, and goes on after a name for which there is no value.  Only then is the
     text substituted, with all answers together.

  2. **Where values come from** — `valueIn` finds the definition of a name that counts.  If it
     has choices the user picks one of them, and what the user says is taken as it is; otherwise
     its value is used.

  3. **What is missing** — the names without value, in the order of their first occurrence.  A
     resolution is complete when there are none.
-/
import CommandLauncher.Template

namespace CommandLauncher

/-- A choice put to the user. -/
structure Choice where
  message : String
  options : List String
deriving DecidableEq, Repr

/-- Who answers choices; `none` when the user cancels. -/
abbrev Chooser (m : Type → Type) := Choice → m (Option String)

/-- Where a name gets its value from; `none` when it has none. -/
abbrev Lookup (m : Type → Type) := String → m (Option String)

/-- A text after substitution, and the names that had no value. -/
structure Resolution where
  result : String
  missing : List String
deriving DecidableEq, Repr

/-- Whether every reference got a value. -/
def Resolution.isComplete (r : Resolution) : Bool := r.missing.isEmpty

/-! ## The choice that a variable puts to the user -/

namespace Variable

/-- The variable as a text refers to it. -/
def token (name : String) : String := "$\x7b" ++ name ++ "\x7d"

/-- The question for a value; a description that is not blank is added in parentheses. -/
def choiceMessage (v : Variable) : String :=
  let question := "Select a value for " ++ token v.name
  match v.description.bind Text.nonBlank with
  | some description => question ++ " (" ++ description ++ ")"
  | none => question

/-- The value of `name`: picked by the user where the definition that counts has choices. -/
def valueIn {m : Type → Type} [Monad m] (choose : Chooser m) (vs : List Variable) : Lookup m :=
  fun name =>
    match last? vs name with
    | none => pure none
    | some v =>
      match v.choices with
      | some options => choose { message := v.choiceMessage, options }
      | none => pure (some v.value)

end Variable

/-! ## Resolving a text -/

/-- What each name was found to be. -/
abbrev Findings := List (String × Option String)

namespace Findings

/-- The value found for a name. -/
def value? (fs : Findings) (name : String) : Option String :=
  match fs.find? (fun f => f.1 = name) with
  | some f => f.2
  | none => none

/-- The names for which nothing was found. -/
def missing (fs : Findings) : List String :=
  (fs.filter (fun f => f.2.isNone)).map (·.1)

end Findings

/-- Look the names up one after another. -/
def findAll {m : Type → Type} [Monad m] (lookup : Lookup m) : List String → m Findings
  | [] => pure []
  | name :: names => do
    let value ← lookup name
    let rest ← findAll lookup names
    return (name, value) :: rest

/-- Look each reference of the text up once, then replace those that have a value. -/
def fill {m : Type → Type} [Monad m] (lookup : Lookup m) (text : String) : m Resolution := do
  let findings ← findAll lookup (Template.references text)
  return { result := Template.substitute findings.value? text, missing := findings.missing }

/-- Resolve a text against a list of definitions. -/
def resolve {m : Type → Type} [Monad m] (choose : Chooser m) (vs : List Variable)
    (text : String) : m Resolution :=
  fill (Variable.valueIn choose vs) text

/-! ## Running it -/

/-- A chooser that takes prepared answers one after another and notes the choices put to it. -/
def Chooser.prepared : Chooser (StateM (List (Option String) × List Choice)) :=
  fun choice => modifyGet fun (answers, asked) =>
    match answers with
    | [] => (none, ([], asked ++ [choice]))
    | a :: rest => (a, (rest, asked ++ [choice]))

example :
    ((resolve Chooser.prepared [.fixed "x" "1", .selectable "y" ["a", "b"]]
      "$\x7bx\x7d $\x7by\x7d $\x7bz\x7d $\x7by\x7d").run ([some "b"], [])).1 =
      { result := "1 b $\x7bz\x7d b", missing := ["z"] } := by decide +kernel

end CommandLauncher
