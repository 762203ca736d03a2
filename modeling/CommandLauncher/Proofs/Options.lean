/-
  OPTIONS — the options of a variable in the one line in which the user may change them.

  1. **Pieces** — the form shows the options with commas between them, and takes the trimmed
     pieces between the commas that are not blank for options.  Of a line that is left as it is
     it reads the pieces of each option (`parseOptions_join`).  These are the options themselves
     exactly if every option is its own only piece (`pieces_eq_self_iff`).

  2. **The line** — in the dialog of a variable with options only one question is for the line.
     Behind it the pieces are offered for the default value, and any entry that the dialog comes
     to has them as its options (`optionLine_read`).

  3. **Accepting the line** — `options_accepted` follows them into the settings file.
-/
import CommandLauncher.Proofs.Accepting

namespace CommandLauncher

open Session Text

/-! ## Pieces -/

namespace Variable

/-- What is read from the line in which some options are shown. -/
def pieces (options : List String) : List String := options.flatMap (parts ',')

theorem parseOptions_join (options : List String) :
    parseOptions (join ", " options) = pieces options := parts_join_flatMap options

/-- Options are their own pieces exactly if they are tidy and have no comma. -/
theorem pieces_eq_self_iff {options : List String} :
    pieces options = options ↔ ∀ o ∈ options, IsTidy o ∧ ',' ∉ o.toList := by
  constructor
  · intro hsame o ho
    rw [← hsame] at ho
    obtain ⟨whole, -, hpart⟩ := List.mem_flatMap.mp ho
    exact isTidy_of_mem_parts hpart
  · intro htidy
    rw [← parseOptions_join]
    exact parts_join htidy

/-- There are no pieces exactly if there is nothing but commas and blanks. -/
theorem pieces_eq_nil_iff {options : List String} :
    pieces options = [] ↔ ∀ o ∈ options, ∀ c ∈ o.toList, c = ',' ∨ isBlank c = true := by
  rw [pieces, List.flatMap_eq_nil_iff]
  exact forall₂_congr fun o _ => parts_eq_nil_iff

end Variable

/-- The line of some options is refused exactly if there are no pieces. -/
theorem Check.options_join {options : List String} :
    Check.options (join ", " options) = none ↔ Variable.pieces options ≠ [] := by
  rw [Check.options, Variable.parseOptions_join]
  cases Variable.pieces options with
  | nil => simp
  | cons piece pieces => simp

/-! ## The line -/

namespace Dialog

/-- The question for the default value among some options. -/
def defaultPrompt (v : Variable) (options : List String) : Prompt :=
  .select "Default value" options (Variable.defaultPosition (some v) options) true

section OptionLine

variable {v : Variable} {options : List String} {s : Session} {earlier later : List Exchange}
  {initial : Option String} {check : Check} {refused : List InputProblem} {input : String}
  (hchoices : v.choices = some options)
  (hput : (variableForm (some v)).exchanges s =
    earlier ++ ⟨.text "Options (comma separated)" initial check, refused, some input⟩ :: later)

include hchoices hput

/-- **The line of options** is asked for once, with the options as they are; behind it those that
    are read from it are offered for the default value, and are the options of the variable that
    the form gives. -/
theorem optionLine_read :
    initial = some (join ", " options) ∧ check = Check.options ∧
    (check input = none → ∃ next rest, later = next :: rest ∧
      next.prompt = defaultPrompt v (Variable.parseOptions input)) ∧
    ∀ entry, (tryOn (variableForm (some v)).form s).1 = .ok entry →
      entry.options = some (Variable.parseOptions input) := by
  obtain ⟨name, _, _, hput, hform⟩ := exchanges_behind hput rfl (by simp [Prompt.question])
  obtain ⟨kind, s', _, hput, hform⟩ := exchanges_behind hput hform (by simp [Prompt.question])
  by_cases hkind : kind = Variable.selectableKind
  · subst hkind
    obtain ⟨he, hbehind⟩ := exchanges_here hput hform fun _ => by
      rintro (h | ⟨_, h | ⟨_, ⟨⟩⟩⟩)
      · simp [Prompt.question] at h
      · simp [Prompt.question] at h
    rw [Prompt.exchange, Exchange.mk.injEq] at he
    obtain ⟨hprompt, -, htold⟩ := he
    obtain ⟨-, rfl, rfl⟩ := Prompt.text.inj hprompt
    have hbehind := hbehind input (eq_of_heq htold).symm
    rw [Prompt.objection?] at hbehind
    refine ⟨by rw [Option.bind_some, hchoices, Option.map_some], rfl, ?_⟩
    cases hcheck : Check.options input with
    | some problem =>
      rw [hcheck] at hbehind
      refine ⟨fun hnone => ?_, fun entry hentry => ?_⟩
      · cases hnone
      · rw [show (tryOn (variableForm (some v)).form s).1 = _ from hbehind] at hentry
        cases hentry
    | none =>
      rw [hcheck] at hbehind
      obtain ⟨s'', hlater, hrest⟩ := hbehind
      refine ⟨fun _ => ?_, fun entry hentry => ?_⟩
      · rw [← hlater]
        exact exchanges_ask (defaultPrompt v (Variable.parseOptions input)) _ s''
      · have hresult := (congrArg Prod.fst hrest).trans hentry
        refine of_endsIn (P := fun v : Variable => v.options = some (Variable.parseOptions input)) _
          ?_ hresult
        exact fun picked description => rfl
  · change (variableValue (some v) kind >>= _).exchanges s' = _ at hput
    rw [variableValue, if_neg hkind] at hput
    obtain h | ⟨_, h | ⟨_, ⟨⟩⟩⟩ := mayPut_of_exchanges _ hput
    · simp [Prompt.question] at h
    · simp [Prompt.question] at h

end OptionLine

end Dialog

/-! ## Accepting the line -/

/-- A saved entry is what is found with its key. -/
theorem Update.find?_saved {u : Update} {s s₁ : Session} {before now : Settings}
    {start : Option u.part.Entry} {entry : u.part.Entry} (hread : s.onDisk = .ok before)
    (hopen : u.initial? before = some start)
    (hform : tryOn (u.part.form start) (readSettings.run s).2 = (.ok entry, s₁))
    (hnow : s₁.onDisk = .ok now) (hthere : ¬ u.IsGone now)
    (hwritable : s₁.files.Writable s.store.path)
    (hyaml : (s.after u.action).files.YamlReadsBack s.store.path) :
    ∃ saved, (s.after u.action).onDisk = .ok saved ∧
      u.part.catalog.find? (u.part.catalog.key entry) saved = some entry := by
  obtain ⟨-, -, earlier, later, -, hsaved, hunique⟩ :=
    found hread hopen hform hnow hthere hwritable hyaml
  refine ⟨_, hsaved, ?_⟩
  rw [Catalog.find?, u.part.entries_replace]
  exact find?_of_unique hunique

/-- **Accepting the options of a variable as its edit shows them** keeps them exactly if each of
    them is trimmed, not blank, and without a comma.  In any case what is offered for the default
    value, and saved with the variable where the file can be written, is the trimmed pieces of the
    options between the commas, without the blank ones.  The line is refused only where there is
    no piece at all. -/
theorem options_accepted (s : Session) (before : Settings) (key : String) (v : Variable)
    (options : List String) (hread : s.onDisk = .ok before)
    (hfind : Catalog.vars.find? key before = some v) (hchoices : v.choices = some options) :
    let line := join ", " options
    let kept := Variable.pieces options
    let after := s.after (.edit .vars key)
    (kept = options ↔ ∀ o ∈ options, IsTidy o ∧ ',' ∉ o.toList) ∧
    (Check.options line = none ↔ ¬ ∀ o ∈ options, ∀ c ∈ o.toList, c = ',' ∨ isBlank c = true) ∧
    ∀ (earlier later : List Exchange) (initial : Option String) (check : Check)
      (refused : List InputProblem),
      (Dialog.variableForm (some v)).exchanges s =
        earlier ++ ⟨.text "Options (comma separated)" initial check, refused, some line⟩ :: later →
      (initial = some line ∧ check = Check.options) ∧
      (check line = none → ∃ next rest, later = next :: rest ∧
        next.prompt = Dialog.defaultPrompt v kept) ∧
      ∀ (entry : Variable) (s₁ : Session),
        tryOn (Form.variableForm (some v)) (readSettings.run s).2 = (.ok entry, s₁) →
        entry.options = some kept ∧
        ∀ now, s₁.onDisk = .ok now → (∃ w ∈ now.vars, w.name = key) →
          s₁.files.Writable s.store.path → after.files.YamlReadsBack s.store.path →
          ∃ saved, after.onDisk = .ok saved ∧ Catalog.vars.find? entry.name saved = some entry := by
  intro line kept after
  refine ⟨Variable.pieces_eq_self_iff, ?_, fun earlier later initial check refused hput => ?_⟩
  · rw [Check.options_join, ne_eq, Variable.pieces_eq_nil_iff]
  have hread' := Adds.readSettings s
  rw [← (Dialog.variableForm (some v)).exchanges_eq hread'] at hput
  obtain ⟨hinitial, hcheck, hoffered, hoptions⟩ := Dialog.optionLine_read hchoices hput
  rw [Variable.parseOptions_join] at hoffered hoptions
  refine ⟨⟨hinitial, hcheck⟩, hoffered, fun entry s₁ hform => ⟨hoptions entry ?_, ?_⟩⟩
  · rw [Dialog.form_variableForm, hform]
  · intro now hnow hthere hwritable hyaml
    have hopen : (Update.mk .vars (some key)).initial? before = some (some v) :=
      congrArg (Option.map some) hfind
    refine Update.find?_saved (u := ⟨.vars, some key⟩) hread hopen hform hnow ?_ hwritable hyaml
    rintro ⟨_, hkey, hgone⟩
    obtain rfl := Option.some.inj hkey
    obtain ⟨w, hw, hname⟩ := hthere
    exact hgone w hw hname

/-- Two tidy options are kept, while the name of the variable is changed. -/
theorem options_accepted_tidy :
    let v : Variable := { name := "env", value := "dev", options := some ["dev", "prod"] }
    let before : Settings := { vars := [{ name := "host" }, v] }
    let s := alone before [.text "stage", .index 1, .text "dev, prod", .index 1, .text ""]
    let entry : Variable := { name := "stage", value := "prod", options := some ["dev", "prod"] }
    (s.onDisk = .ok before ∧ Catalog.vars.find? "env" before = some v ∧
      v.choices = some ["dev", "prod"]) ∧
    (∃ earlier next later, (Dialog.variableForm (some v)).exchanges s = earlier ++
      ⟨.text "Options (comma separated)" (some "dev, prod") Check.options, [],
        some "dev, prod"⟩ :: next :: later ∧
      next.prompt = Dialog.defaultPrompt v ["dev", "prod"]) ∧
    ∃ saved, (s.after (.edit .vars "env")).onDisk = .ok saved ∧
      Catalog.vars.find? "stage" saved = some entry := by
  intro v before s entry
  have hread : s.onDisk = .ok before := onDisk_alone _ rfl
  have hfind : Catalog.vars.find? "env" before = some v := rfl
  have hchoices : v.choices = some ["dev", "prod"] := rfl
  obtain ⟨-, -, haccepted⟩ := options_accepted s before "env" v _ hread hfind hchoices
  have hput : (Dialog.variableForm (some v)).exchanges s = [
      ⟨.text "Variable name" (some "env") Check.name, [], some "stage"⟩,
      ⟨.select "Variable type" Variable.kinds 1 false, [], some 1⟩] ++
      ⟨.text "Options (comma separated)" (some "dev, prod") Check.options, [],
        some "dev, prod"⟩ :: [
      ⟨.select "Default value" ["dev", "prod"] 0 true, [], some 1⟩,
      ⟨.text "Description (optional)" none Check.anything, [], some ""⟩] := rfl
  obtain ⟨-, -, hgives⟩ := haccepted _ _ _ _ _ hput
  obtain ⟨s₁, hform, hsame, hfiles⟩ := completed_after_reading
    (x := Form.variableForm (some v)) (a := entry) s (s.answered 5) fun es => ⟨rfl, rfl, rfl⟩
  obtain ⟨-, hsaved⟩ := hgives entry s₁ hform
  refine ⟨⟨hread, hfind, hchoices⟩, ?_, ?_⟩
  · exact ⟨_, _, _, hput, rfl⟩
  · exact hsaved before (hsame.trans hread) ⟨v, by decide, rfl⟩ (hfiles ▸ writable_alone before _)
      (FileSystem.yamlReadsBack_of_json format_meanwhile _)

/-- An option with a comma comes back as two, though its line is accepted as it is shown; and the
    value is one of them afterwards. -/
theorem options_accepted_divided :
    let v : Variable := { name := "a", value := "x,y", options := some ["x,y", "z"] }
    let before : Settings := { vars := [v] }
    let s := alone before [.text "a", .index 1, .text "x,y, z", .index 0, .text ""]
    let entry : Variable := { name := "a", value := "x", options := some ["x", "y", "z"] }
    (s.onDisk = .ok before ∧ Catalog.vars.find? "a" before = some v ∧
      v.choices = some ["x,y", "z"]) ∧
    (∃ earlier next later, (Dialog.variableForm (some v)).exchanges s = earlier ++
      ⟨.text "Options (comma separated)" (some "x,y, z") Check.options, [],
        some "x,y, z"⟩ :: next :: later ∧
      next.prompt = Dialog.defaultPrompt v ["x", "y", "z"]) ∧
    (∃ saved, (s.after (.edit .vars "a")).onDisk = .ok saved ∧
      Catalog.vars.find? "a" saved = some entry) ∧
    entry.options ≠ v.options := by
  intro v before s entry
  have hread : s.onDisk = .ok before := onDisk_alone _ rfl
  have hput : (Dialog.variableForm (some v)).exchanges s = [
      ⟨.text "Variable name" (some "a") Check.name, [], some "a"⟩,
      ⟨.select "Variable type" Variable.kinds 1 false, [], some 1⟩] ++
      ⟨.text "Options (comma separated)" (some "x,y, z") Check.options, [], some "x,y, z"⟩ :: [
      ⟨.select "Default value" ["x", "y", "z"] 0 true, [], some 0⟩,
      ⟨.text "Description (optional)" none Check.anything, [], some ""⟩] := rfl
  obtain ⟨s₁, hform, hsame, hfiles⟩ := completed_after_reading
    (x := Form.variableForm (some v)) (a := entry) s (s.answered 5) fun es => ⟨rfl, rfl, rfl⟩
  have hopen : (Update.mk .vars (some "a")).initial? before = some (some v) := rfl
  refine ⟨⟨hread, rfl, rfl⟩, ⟨_, _, _, hput, rfl⟩, ?_, by decide⟩
  exact Update.find?_saved (u := ⟨.vars, some "a"⟩) hread hopen hform (hsame.trans hread)
    (Update.not_isGone hopen) (hfiles ▸ writable_alone before _)
    (FileSystem.yamlReadsBack_of_json format_meanwhile _)

end CommandLauncher
