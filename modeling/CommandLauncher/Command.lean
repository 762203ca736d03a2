/-
  COMMANDS — the templates of shell commands, and what becomes of one when it is run.

  1. **Commands** — a command has a title, by which the user knows it, and a text with references
     to variables.  It may name the group it belongs to, and it may say whether enter is pressed
     after its text has been sent.

  2. **Dispatch** — `dispatch` resolves the text.  If some name has no value the outcome is
     `failed` and lists those names; otherwise it is `dispatched` with the text to send.  Enter
     is pressed as the command says; where it says nothing, as the settings say; where they say
     nothing either, it is pressed.
-/
import CommandLauncher.Resolution

namespace CommandLauncher

/-- A command as it stands in a settings file. -/
structure Command where
  title : String
  command : String
  group : Option String := none
  description : Option String := none
  icon : Option String := none
  iconColor : Option String := none
  sendNewLine : Option Bool := none
deriving DecidableEq, Repr, Inhabited

namespace Command

/-- The definition of a title that counts: the last one in the list. -/
def last? (cs : List Command) (title : String) : Option Command :=
  cs.reverse.find? (fun c => c.title = title)

theorem last?_eq_none_iff {cs : List Command} {title : String} :
    last? cs title = none ↔ ∀ c ∈ cs, c.title ≠ title := by
  simp [last?]

/-- What stands in the second list hides what stands in the first one. -/
theorem last?_append (cs ds : List Command) (title : String) :
    last? (cs ++ ds) title = (last? ds title).or (last? cs title) := by
  rw [last?, List.reverse_append, List.find?_append]
  rfl

section Followed

variable {earlier later : List Command} {c : Command}

/-- Where no command with its title stands further down, a command counts. -/
theorem last?_of_not_followed (h : ∀ d ∈ later, d.title ≠ c.title) :
    last? (earlier ++ c :: later) c.title = some c := by
  have hself : last? [c] c.title = some c := List.find?_cons_of_pos (by simp)
  rw [← List.singleton_append, last?_append, last?_append, last?_eq_none_iff.mpr h, hself]
  rfl

end Followed

/-- Whether enter follows the text: the command's own word, else the general one, else yes. -/
def pressesEnter (c : Command) (general : Option Bool) : Bool :=
  (c.sendNewLine.or general).getD true

end Command

/-- What running a command came to. -/
inductive Dispatch where
  | dispatched (text : String) (sendNewLine : Bool)
  | failed (missing : List String)
deriving DecidableEq, Repr

/-- The outcome for a command whose text has been resolved. -/
def Dispatch.of (c : Command) (general : Option Bool) (r : Resolution) : Dispatch :=
  if r.isComplete then .dispatched r.result (c.pressesEnter general) else .failed r.missing

/-- Resolve the command's text and say what is to be sent. -/
def dispatch {m : Type → Type} [Monad m] (lookup : Lookup m) (c : Command)
    (general : Option Bool) : m Dispatch := do
  let resolution ← fill lookup c.command
  return Dispatch.of c general resolution

end CommandLauncher
