/-
  PARTS — the two lists of the settings, with their catalogs and their forms.

  1. **Parts** — variables and commands are added, edited and removed alike.  What tells them
     apart is the catalog of the part and its form.

  2. **Usable entries** — a form gives only well-formed entries, and these may stand in usable
     settings.  So settings stay usable when an entry from a form comes into them, or some of the
     entries go.
-/
import CommandLauncher.Proofs.Forms
import CommandLauncher.Proofs.Placing
import CommandLauncher.Proofs.Rewriting

namespace CommandLauncher

namespace Part

/-- The entries of a part. -/
def Entry : Part → Type
  | vars => Variable
  | commands => Command

/-- The catalog of a part. -/
def catalog : (p : Part) → Catalog p.Entry
  | vars => Catalog.vars
  | commands => Catalog.commands

/-- The form of a part. -/
def form : (p : Part) → Option p.Entry → Form p.Entry
  | vars => Form.variableForm
  | commands => Form.commandForm

/-- Whether an entry is as its form leaves it. -/
def WellFormed : {p : Part} → p.Entry → Prop
  | vars, v => Variable.WellFormed v
  | commands, c => Command.WellFormed c

/-- Whether an entry may stand in usable settings. -/
def Usable : {p : Part} → p.Entry → Prop
  | vars, _ => True
  | commands, c =>
    Text.isBlankText (Command.title c) = false ∧ Text.isBlankText (Command.command c) = false

/-- Whether an entry has the icon of another one; only commands have icons. -/
def SameIcon : {p : Part} → p.Entry → p.Entry → Prop
  | vars, _, _ => True
  | commands, old, new =>
    Command.icon new = Command.icon old ∧ Command.iconColor new = Command.iconColor old

theorem entries_replace (p : Part) (entries : List p.Entry) (s : Settings) :
    p.catalog.entries (p.catalog.replace entries s) = entries := by
  cases p <;> rfl

/-- Replacing the entries of another part leaves those of this one. -/
theorem entries_replace_ne {p q : Part} (h : p ≠ q) (entries : List q.Entry) (s : Settings) :
    p.catalog.entries (q.catalog.replace entries s) = p.catalog.entries s := by
  cases p with
  | vars =>
    cases q with
    | vars => exact absurd rfl h
    | commands => rfl
  | commands =>
    cases q with
    | vars => rfl
    | commands => exact absurd rfl h

/-! ## Usable entries -/

/-- Well-formed entries are usable. -/
theorem WellFormed.usable {p : Part} {e : p.Entry} (h : WellFormed e) : Usable e := by
  cases p with
  | vars => trivial
  | commands => exact ⟨h.title.2, h.command.2⟩

/-- An entry from a form is well-formed, and has the icon of the one that the form started from. -/
theorem gives_form (p : Part) (start : Option p.Entry) :
    Gives (fun e => WellFormed e ∧ ∀ old, start = some old → SameIcon old e) (p.form start) := by
  cases p with
  | vars => exact (Gives.variableForm start).weaken fun _ hv => ⟨hv, fun _ _ => trivial⟩
  | commands => exact Gives.commandForm start

/-- Usable settings stay usable when usable entries come into a list. -/
theorem problem?_replace {p : Part} {now : Settings} (hnow : now.problem? = none)
    {entries : List p.Entry}
    (h : ∀ e ∈ entries, e ∈ p.catalog.entries now ∨ Usable e) :
    (p.catalog.replace entries now).problem? = none := by
  cases p with
  | vars => exact hnow
  | commands =>
    refine Settings.problem?_eq_none_iff.mpr fun c hc => ?_
    rcases h c hc with hc | hc
    · exact Settings.problem?_eq_none_iff.mp hnow c hc
    · exact hc

end Part

end CommandLauncher
