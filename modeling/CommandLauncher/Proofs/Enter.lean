/-
  ENTER — what becomes of the answer to the question about enter.

  1. **The flag** — a yes is not stored unless the command said so before; whoever runs the
     command then takes the general flag of the settings for it.  So the answer is honoured unless
     it is such a yes and the settings say no (`pressesEnter_storedFlag`).

  2. **The question** — it is put once in the form of a command, and what it is told is all that
     decides about the flag (`sendNewLine_of_told`).

  3. **Running it** — the saved command is the one with its title, so a run that finds all of its
     variables delivers its text with the flag that was stored (`delivered_titled`).
-/
import CommandLauncher.Proofs.Accepting

namespace CommandLauncher

open Session

/-! ## The flag -/

/-- Whether a stored answer is what counts for a run, given what the command said before and what
    the settings say now. -/
def Honoured (current general : Option Bool) (answer : Bool) : Prop :=
  answer = false ∨ current = some true ∨ general ≠ some false

/-- Enter is pressed as it was answered exactly if the answer is honoured. -/
theorem pressesEnter_storedFlag {c : Command} {current : Option Bool} {answer : Bool}
    (general : Option Bool) (h : c.sendNewLine = Form.storedFlag current answer) :
    c.pressesEnter general = answer ↔ Honoured current general answer := by
  rw [Command.pressesEnter, h, Honoured]
  by_cases hcurrent : current = some answer
  · -- the answer is stored as it is
    rw [Form.storedFlag, if_pos hcurrent, hcurrent]
    cases answer <;> simp
  · rw [Form.storedFlag, if_neg hcurrent]
    cases answer with
    | false => simp
    | true =>
      -- nothing is stored, and the settings decide
      rw [if_pos rfl, Option.none_or]
      cases general with
      | none => simp
      | some flag => cases flag <;> simp [hcurrent]

/-! ## The question -/

/-- What the form stores about enter is what its question was told. -/
theorem Dialog.sendNewLine_of_told {start : Option Command} {s s₁ : Session} {c : Command}
    {proposed answer : Bool} {refused : List InputProblem}
    (hput : Exchange.mk (.confirm "Press enter after sending the command?" proposed) refused
      (some answer) ∈ (commandForm start).exchanges s)
    (hform : tryOn (commandForm start).form s = (.ok c, s₁)) :
    c.sendNewLine = Form.storedFlag (start.bind Command.sendNewLine) answer := by
  obtain ⟨earlier, later, h⟩ := List.append_of_mem hput
  obtain ⟨title, _, _, h, hform⟩ := exchanges_behind h hform nofun
  obtain ⟨command, _, _, h, hform⟩ := exchanges_behind h hform nofun
  obtain ⟨group, _, _, h, hform⟩ := exchanges_behind h hform nofun
  obtain ⟨description, _, _, h, hform⟩ := exchanges_behind h hform nofun
  obtain ⟨he, hbehind⟩ := exchanges_here h hform nofun
  rw [Prompt.exchange, Exchange.mk.injEq] at he
  obtain ⟨hprompt, -, htold⟩ := he
  obtain ⟨-, rfl⟩ := Prompt.confirm.inj hprompt
  obtain ⟨s', -, hdone⟩ := hbehind answer (eq_of_heq htold).symm
  obtain rfl := Except.ok.inj (Prod.mk.inj hdone).1
  rfl

/-! ## Running it -/

/-- A resolution without missing names is dispatched. -/
theorem dispatch_run (lookup : Lookup SessionM) (c : Command) (general : Option Bool) {s : Session}
    (h : ((fill lookup c.command).run s).1.missing = []) :
    ((dispatch lookup c general).run s).1 =
      .dispatched ((fill lookup c.command).run s).1.result (c.pressesEnter general) := by
  show Dispatch.of c general ((fill lookup c.command).run s).1 = _
  rw [Dispatch.of, Resolution.isComplete, if_pos (by simpa using h)]

/-- The only command with a title is the last one. -/
theorem Command.last?_of_unique {earlier later : List Command} {c : Command}
    (hunique : ∀ d ∈ earlier ++ later, d.title ≠ c.title) :
    last? (earlier ++ c :: later) c.title = some c :=
  last?_of_not_followed fun d hd => hunique d (List.mem_append_right earlier hd)

/-- A run of a command by its title, with all its names found, delivers its text with enter as the
    command and the settings say. -/
theorem delivered_titled {settings : Settings} {c : Command} {s : Session}
    (hread : s.onDisk = .ok settings) (hlast : Command.last? settings.commands c.title = some c)
    (hfound : (findingsWith settings.vars s.picks (Template.references c.command)).missing = []) :
    ∃ text s₁, Delivered text (c.pressesEnter settings.sendNewLine) s₁
      (s.after (.runTitled c.title)) := by
  have hpreamble := Start.Asks.preamble settings (.titled c.title) s
  have hfindings := lookUpNames_fst settings c (((Start.titled c.title).preamble settings).run s).2
  rw [hpreamble.picks_eq] at hfindings
  -- no question is put before the command is known
  have hcomplete := (congrArg Findings.missing hfindings).trans hfound
  exact ⟨_, _, @Start.run_complete (.titled c.title) s settings c hread hlast hcomplete⟩

/-- **The answer about enter**, given while a command was added or edited, is what counts for the
    saved command with the settings that are now on disk, unless it is a yes that the command did
    not say itself before while the settings say no.  The flag of the settings is that behind the
    last question, where the file has to be one that can be written. -/
theorem enter_honoured (edited : Option String) (s s₁ : Session) (before now : Settings)
    (start : Option Command) (c : Command) (proposed answer : Bool) (refused : List InputProblem)
    (hread : s.onDisk = .ok before)
    (hopen : (Update.mk .commands edited).initial? before = some start)
    (hform : tryOn (Form.commandForm start) (readSettings.run s).2 = (.ok c, s₁))
    (hput : Exchange.mk (.confirm "Press enter after sending the command?" proposed) refused
      (some answer) ∈ (Dialog.commandForm start).exchanges s)
    (hnow : s₁.onDisk = .ok now) (hthere : ¬ (Update.mk .commands edited).IsGone now)
    (hwritable : s₁.files.Writable s.store.path)
    (hyaml : (s.after (Update.mk .commands edited).action).files.YamlReadsBack s.store.path) :
    ∃ (saved : Settings) (enter : Bool),
      (s.after (Update.mk .commands edited).action).onDisk = .ok saved ∧
      Command.last? saved.commands c.title = some c ∧ saved.sendNewLine = now.sendNewLine ∧
      (enter = answer ↔ Honoured (start.bind Command.sendNewLine) saved.sendNewLine answer) ∧
      (∀ (lookup : Lookup SessionM) (t : Session),
        ((fill lookup c.command).run t).1.missing = [] →
        ((dispatch lookup c saved.sendNewLine).run t).1 =
          .dispatched ((fill lookup c.command).run t).1.result enter) ∧
      ∀ t : Session, t.onDisk = .ok saved →
        (findingsWith saved.vars t.picks (Template.references c.command)).missing = [] →
        ∃ text t₁, Delivered text enter t₁ (t.after (.runTitled c.title)) := by
  let u : Update := { part := .commands, edited }
  obtain ⟨-, -, (earlier : List Command), (later : List Command), -, hsaved, hunique⟩ :=
    Update.found (u := u) hread hopen hform hnow hthere hwritable hyaml
  have hlast : Command.last? (earlier ++ c :: later) c.title = some c :=
    Command.last?_of_unique hunique
  have hflag : c.sendNewLine = Form.storedFlag (start.bind Command.sendNewLine) answer := by
    rw [← Dialog.form_commandForm] at hform
    rw [← (Dialog.commandForm start).exchanges_eq (Adds.readSettings s)] at hput
    exact Dialog.sendNewLine_of_told hput hform
  refine ⟨_, _, hsaved, hlast, rfl, pressesEnter_storedFlag _ hflag, ?_, ?_⟩
  · exact fun lookup t hfilled => dispatch_run lookup c _ hfilled
  · exact fun t ht hfound => delivered_titled ht hlast hfound

/-- A command that says no is edited, and is to press enter from now on; the settings say nothing
    of it. -/
theorem enter_honoured_edit :
    let old : Command := { title := "t", command := "echo hi", sendNewLine := some false }
    let before : Settings := { commands := [old] }
    let s := alone before [.text "t", .text "echo hi", .text "", .text "", .flag true]
    let c : Command := { title := "t", command := "echo hi" }
    (s.onDisk = .ok before ∧
      Exchange.mk (.confirm "Press enter after sending the command?" false) [] (some true) ∈
        (Dialog.commandForm (some old)).exchanges s) ∧
    ∃ saved, (s.after (.edit .commands "t")).onDisk = .ok saved ∧
      Command.last? saved.commands "t" = some c ∧
      ∀ (lookup : Lookup SessionM) (t : Session),
        ((fill lookup c.command).run t).1.missing = [] →
        ((dispatch lookup c saved.sendNewLine).run t).1 =
          .dispatched ((fill lookup c.command).run t).1.result true := by
  intro old before s c
  have hread : s.onDisk = .ok before := onDisk_alone _ (by decide +kernel)
  have hopen : (Update.mk .commands (some "t")).initial? before = some (some old) := rfl
  obtain ⟨s₁, hform, hsame, hfiles⟩ := completed_after_reading (x := Form.commandForm (some old))
    (a := c) s (s.answered 5) fun es => ⟨rfl, rfl, rfl⟩
  have hput : Exchange.mk (.confirm "Press enter after sending the command?" false) [] (some true) ∈
      (Dialog.commandForm (some old)).exchanges s :=
    List.mem_of_getElem? (show _[4]? = _ from rfl)
  obtain ⟨saved, enter, hsaved, hlast, hgeneral, henter, hdispatch, -⟩ :=
    enter_honoured (some "t") s s₁ before before (some old) c false true [] hread hopen hform hput
      (hsame.trans hread) (Update.not_isGone hopen) (hfiles ▸ writable_alone before _)
      (FileSystem.yamlReadsBack_of_json format_meanwhile _)
  have hnone : saved.sendNewLine ≠ some false := by
    rw [hgeneral]
    decide
  obtain rfl : enter = true := henter.mpr (.inr (.inr hnone))
  exact ⟨⟨hread, hput⟩, saved, hsaved, hlast, hdispatch⟩

/-- A command is added and is to press enter, while the settings say no; its text is sent without
    enter. -/
theorem enter_not_pressed :
    let before : Settings := { sendNewLine := some false }
    let s := alone before [.text "t", .text "echo hi", .text "", .text "", .flag true]
    let c : Command := { title := "t", command := "echo hi" }
    (s.onDisk = .ok before ∧
      Exchange.mk (.confirm "Press enter after sending the command?" true) [] (some true) ∈
        (Dialog.commandForm none).exchanges s) ∧
    ∃ saved, (s.after (.add .commands)).onDisk = .ok saved ∧
      Command.last? saved.commands "t" = some c ∧
      ∀ t : Session, ((dispatch (Attempt.lookUp saved.vars) c saved.sendNewLine).run t).1 =
        .dispatched "echo hi" false := by
  intro before s c
  have hread : s.onDisk = .ok before := onDisk_alone _ rfl
  have hopen : (Update.mk .commands none).initial? before = some none := rfl
  obtain ⟨s₁, hform, hsame, hfiles⟩ := completed_after_reading (x := Form.commandForm none)
    (a := c) s (s.answered 5) fun es => ⟨rfl, rfl, rfl⟩
  obtain ⟨-, -, (earlier : List Command), (later : List Command), -, hsaved, hunique⟩ :=
    Update.found (u := ⟨.commands, none⟩) hread hopen hform (hsame.trans hread)
      (Update.not_isGone hopen) (hfiles ▸ writable_alone before _)
      (FileSystem.yamlReadsBack_of_json format_meanwhile _)
  have hput : Exchange.mk (.confirm "Press enter after sending the command?" true) [] (some true) ∈
      (Dialog.commandForm none).exchanges s :=
    List.mem_of_getElem? (show _[4]? = _ from rfl)
  refine ⟨⟨hread, hput⟩, _, hsaved, Command.last?_of_unique hunique, fun t => ?_⟩
  have hreferences : Template.references c.command = [] := by decide +kernel
  have htext : Template.substitute (Findings.value? []) c.command = "echo hi" := by decide +kernel
  rw [dispatch, fill, hreferences]
  show Dispatch.dispatched (Template.substitute (Findings.value? []) c.command) false = _
  rw [htext]

end CommandLauncher
