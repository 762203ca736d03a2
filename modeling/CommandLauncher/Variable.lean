/-
  VARIABLES — the named values that command texts refer to.

  A variable has a name, a value and perhaps a description.  It may also list options: then the
  user picks one of them each time a command needs the variable, and the value is only the one
  that the options dialog proposes.

  1. **Choices** — an empty list of options is no list at all: `choices` is the options where
     there are any, and a variable is selectable exactly when it has choices.

  2. **Names** — a name that a text can refer to consists of ASCII letters, digits, `_` and `-`
     (`isName`).  Other names are kept in a settings file, with a warning, and are never found.

  3. **Lookup** — where a list defines a name twice, the last definition counts (`last?`).  The
     small lemmas say what `last?` does to an appended, a dropped and an unrelated definition.
-/
import CommandLauncher.Text.Parts

namespace CommandLauncher

/-- A variable as it stands in a settings file. -/
structure Variable where
  name : String
  value : String := ""
  description : Option String := none
  options : Option (List String) := none
deriving DecidableEq, Repr, Inhabited

namespace Variable

/-! ## Making variables -/

/-- A variable with one value. -/
def fixed (name value : String) : Variable := { name, value }

/-- A variable whose value is picked from `options`; the first one is proposed. -/
def selectable (name : String) (options : List String) : Variable :=
  { name, value := options.headD "", options := some options }

/-! ## Choices -/

/-- The options to pick from, where there are any. -/
def choices (v : Variable) : Option (List String) :=
  match v.options with
  | some (o :: os) => some (o :: os)
  | _ => none

/-- Whether a value has to be picked. -/
def isSelectable (v : Variable) : Bool := v.choices.isSome

theorem choices_eq_some_iff {v : Variable} {os : List String} :
    v.choices = some os ↔ v.options = some os ∧ os ≠ [] := by
  unfold choices
  split
  · rename_i o os' h
    constructor
    · intro e
      obtain rfl := Option.some.inj e
      exact ⟨h, by simp⟩
    · rintro ⟨e, _⟩
      rw [h] at e
      exact e
  · rename_i h
    constructor
    · intro e
      cases e
    · rintro ⟨e, hne⟩
      cases os with
      | nil => exact absurd rfl hne
      | cons o os => exact absurd e (h o os)

/-! ## Names -/

/-- The characters of a name: ASCII letters and digits, `_` and `-`. -/
def isNameChar (c : Char) : Bool := c.isAlphanum || c == '_' || c == '-'

/-- Whether a text can be referred to as a name. -/
def isName (s : String) : Bool := !s.toList.isEmpty && s.toList.all isNameChar

/-! ## Lookup -/

/-- The definition of `name` that counts: the last one in the list. -/
def last? (vs : List Variable) (name : String) : Option Variable :=
  vs.reverse.find? (fun v => v.name = name)

theorem last?_append_singleton (vs : List Variable) (v : Variable) (name : String) :
    last? (vs ++ [v]) name = if v.name = name then some v else last? vs name := by
  simp only [last?, List.reverse_append, List.reverse_cons, List.reverse_nil, List.nil_append,
    List.singleton_append, List.find?_cons]
  split <;> simp_all

theorem name_of_last? {vs : List Variable} {v : Variable} {name : String}
    (h : last? vs name = some v) : v.name = name := by
  have := List.find?_some h
  simpa using this

theorem mem_of_last? {vs : List Variable} {v : Variable} {name : String}
    (h : last? vs name = some v) : v ∈ vs := by
  have := List.mem_of_find?_eq_some h
  simpa using this

theorem last?_eq_none_iff {vs : List Variable} {name : String} :
    last? vs name = none ↔ ∀ v ∈ vs, v.name ≠ name := by
  simp [last?, List.find?_eq_none]

end Variable

/-! ## Running it -/

example : (Variable.selectable "env" ["dev", "prod"]).choices = some ["dev", "prod"] := by decide
example : (Variable.selectable "env" []).choices = none := by decide
example : Variable.isName "a_B-9" = true ∧ Variable.isName "a b" = false ∧
    Variable.isName "" = false ∧ Variable.isName "é" = false := by decide +kernel
example : (Variable.last? [.fixed "x" "1", .fixed "y" "2", .fixed "x" "3"] "x").map (·.value) =
    some "3" := by decide

end CommandLauncher
