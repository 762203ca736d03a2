/-
  RUNNING COMMANDS — everything that a run can come to.

  1. **Starts** — a run starts from a given command, from a title or from the picker.  A title
     stands for its last definition, and the picker for the command at the position that the
     user picks among those offered.

  2. **Delivery** — once a text is complete the terminal is asked for.  If there is one it is
     shown, then the text is sent to it, each of them once (`Delivered`).

  3. **Endings** — `RunEnds` goes through all situations.  In each it says which events can be
     seen, which answers were taken, and whether the terminal was asked for.  A run that does the
     same whatever the terminal is has not asked for it.

  4. **The proof** — each program has one lemma for each of its ways out (`launch_incomplete`,
     `launch_complete`, …).  The main statement puts them in a row.
-/
import CommandLauncher.Proofs.Prompting
import CommandLauncher.Proofs.Trees

namespace CommandLauncher

open Session

/-! ## Starts -/

/-- How a run is started. -/
inductive Start where
  | given (c : Command)
  | titled (title : String)
  | picker

/-- The position that a reply picks. -/
def Reply.position? : Reply → Option Nat
  | .index n => some n
  | _ => none

/-- The position that the user picks next. -/
def Session.pickedPosition (s : Session) : Option Nat :=
  if s.attended then s.reply.position? else none

/-- The commands that the picker offers, each with its group. -/
def offered (settings : Settings) : List (Group × Command) :=
  (Group.ofCommands settings.commands settings.sortOrder).allCommands

namespace Start

/-- The action behind a start. -/
def action : Start → Action
  | given c => .run (some c)
  | titled title => .runTitled title
  | picker => .run none

/-- The session after a run. -/
def run (start : Start) (s : Session) : Session := ((perform start.action).run s).2

/-- What is asked before the command is known. -/
def questions (settings : Settings) : Start → List Question
  | picker => [.select "Run command" ((offered settings).map Attempt.offer) 0]
  | _ => []

/-- The command that is run, if there is one: the given one, the last one with the title, or the
    one at the picked position. -/
def command? (settings : Settings) (s : Session) : Start → Option Command
  | given c => some c
  | titled title => Command.last? settings.commands title
  | picker => (s.pickedPosition.bind fun n => (offered settings)[n]?).map (·.2)

end Start

/-! ## Endings -/

/-- A failure as the user sees it. -/
def failed (message : String) : Event := .notified { severity := .error, message }

/-- `Delivered text enter s s'` — from `s` on the terminal was asked for once; if there was none
    the user was told so; otherwise it was shown once, then the text was sent to it once, and
    the user was told if that failed. -/
inductive Delivered (text : String) (enter : Bool) (s s' : Session) : Prop where
  | absent (s₁ : Session) (hactive : activeTerminal.run s = (none, s₁))
      (htold : Adds [failed "No active terminal to send the command to"] s₁ s')
  | sent (t : ActiveTerminal) (s₁ : Session) (hactive : activeTerminal.run s = (some t, s₁))
      (hsent : (send t text enter).run ((showTerminal t).run s₁).2 = (.ok (), s'))
  | refused (t : ActiveTerminal) (s₁ s₂ : Session) (e : SendError)
      (hactive : activeTerminal.run s = (some t, s₁))
      (hrefused : (send t text enter).run ((showTerminal t).run s₁).2 = (.error e, s₂))
      (htold : Adds [failed e.message] s₂ s')

/-- What can be seen of a delivery to a terminal that runs no shell. -/
def Terminal.deliveryEvents? (text : String) (enter : Bool) : Terminal → Option (List Event)
  | absent => some [failed "No active terminal to send the command to"]
  | ready => some [.shown, .sent text enter]
  | failing e => some [.shown, failed e.message]
  | shell => none

theorem tryOn_deliver_absent (text : String) (enter : Bool) {s s₁ : Session}
    (h : activeTerminal.run s = (none, s₁)) :
    tryOn (Attempt.deliver text enter) s = (.error .noTerminal, s₁) := by
  rw [Attempt.deliver, tryOn_bind_lift, h]
  rfl

theorem tryOn_deliver_some (text : String) (enter : Bool) {s s₁ : Session} {t : ActiveTerminal}
    (h : activeTerminal.run s = (some t, s₁)) :
    tryOn (Attempt.deliver text enter) s =
      match (send t text enter).run ((showTerminal t).run s₁).2 with
      | (.ok (), s₂) => (.ok (), s₂)
      | (.error e, s₂) => (.error (.sending e), s₂) := by
  rw [Attempt.deliver, tryOn_bind_lift, h]
  dsimp only
  rw [tryOn_bind_lift, tryOn_bind_lift]
  cases (send t text enter).run ((showTerminal t).run s₁).2 with
  | mk r s₂ => cases r <;> rfl

/-- Ending well or with a report, an attempt to deliver is a delivery. -/
theorem delivered_of_tryOn (text : String) (enter : Bool) (s s' : Session)
    (hok : ∀ s₂, tryOn (Attempt.deliver text enter) s = (.ok (), s₂) → s' = s₂)
    (herror : ∀ f s₂, tryOn (Attempt.deliver text enter) s = (.error f, s₂) →
      Adds [failed f.message] s₂ s') :
    Delivered text enter s s' := by
  cases hactive : activeTerminal.run s with
  | mk t? s₁ =>
    cases t? with
    | none => exact .absent s₁ hactive (herror _ _ (tryOn_deliver_absent text enter hactive))
    | some t =>
      have h := tryOn_deliver_some text enter hactive
      cases hsend : (send t text enter).run ((showTerminal t).run s₁).2 with
      | mk r s₂ =>
        rw [hsend] at h
        cases r with
        | ok _ =>
          obtain rfl := hok s₂ h
          exact .sent t s₁ hactive hsend
        | error e => exact .refused t s₁ s₂ e hactive hsend (herror _ _ h)

/-- The terminal that is there without looking for a shell. -/
def Terminal.active? : Terminal → Option ActiveTerminal
  | ready => some .ready
  | failing e => some (.failing e)
  | _ => none

theorem activeTerminal_run {s : Session} (h : s.terminal ≠ .shell) :
    activeTerminal.run s = (s.terminal.active?, s) := by
  obtain ⟨store, files, environment, attended, answers, terminal, subscribers, events⟩ := s
  cases terminal with
  | shell => exact absurd rfl h
  | _ => rfl

/-- What can be seen of a delivery to a terminal without shell. -/
theorem Delivered.adds {text : String} {enter : Bool} {s s' : Session} {es : List Event}
    (h : Delivered text enter s s') (hes : s.terminal.deliveryEvents? text enter = some es) :
    Adds es s s' := by
  have hshell : s.terminal ≠ .shell := by
    intro hshell
    rw [hshell] at hes
    cases hes
  have hrun := activeTerminal_run hshell
  -- each outcome belongs to one kind of terminal; all other pairs are absurd
  cases h with
  | absent s₁ hactive htold =>
    obtain ⟨hnone, rfl⟩ := Prod.mk.inj (hrun.symm.trans hactive)
    cases ht : s.terminal with
    | absent =>
      rw [ht] at hes
      obtain rfl := Option.some.inj hes
      exact htold
    | shell => exact absurd ht hshell
    | ready => rw [ht] at hnone; cases hnone
    | failing e => rw [ht] at hnone; cases hnone
  | sent t s₁ hactive hsent =>
    obtain ⟨hsome, rfl⟩ := Prod.mk.inj (hrun.symm.trans hactive)
    cases ht : s.terminal with
    | ready =>
      rw [ht] at hes hsome
      obtain rfl := Option.some.inj hes
      obtain rfl := Option.some.inj hsome
      obtain rfl := (Prod.mk.inj hsent).2
      exact (Adds.record [.shown] s).trans (Adds.record [.sent text enter] _)
    | failing e =>
      rw [ht] at hsome
      obtain rfl := Option.some.inj hsome
      cases hsent
    | absent => rw [ht] at hsome; cases hsome
    | shell => exact absurd ht hshell
  | refused t s₁ s₂ e hactive hrefused htold =>
    obtain ⟨hsome, rfl⟩ := Prod.mk.inj (hrun.symm.trans hactive)
    cases ht : s.terminal with
    | failing e' =>
      rw [ht] at hes hsome
      obtain rfl := Option.some.inj hes
      obtain rfl := Option.some.inj hsome
      obtain ⟨he, rfl⟩ := Prod.mk.inj hrefused
      obtain rfl := Except.error.inj he
      exact (Adds.record [.shown] s).trans htold
    | ready =>
      rw [ht] at hsome
      obtain rfl := Option.some.inj hsome
      cases hrefused
    | absent => rw [ht] at hsome; cases hsome
    | shell => exact absurd ht hshell

/-! ## Picking -/

theorem askSelect_eq (message : String) (options : List String) (start : Nat) :
    askSelect message options start =
      askOnce (.select message options start) Reply.position? := by
  have hread : (fun r : Reply => match r with | .index n => some n | _ => none) =
      Reply.position? := by
    funext r
    cases r <;> rfl
  rw [← hread]
  rfl

/-- The question of the picker. -/
def askPicker (settings : Settings) : SessionM (Option Nat) :=
  askSelect "Run command" ((offered settings).map Attempt.offer) 0

theorem askPicker_fst (settings : Settings) (s : Session) :
    ((askPicker settings).run s).1 = s.pickedPosition := by
  rw [askPicker, askSelect_eq, askOnce_fst, pickedPosition]

theorem Asks.askPicker (settings : Settings) (s : Session) :
    Asks (Start.picker.questions settings) s ((CommandLauncher.askPicker settings).run s).2 := by
  rw [CommandLauncher.askPicker, askSelect_eq]
  exact Asks.askOnce _ _ s

theorem Blind.askPicker (settings : Settings) : Blind (CommandLauncher.askPicker settings) := by
  rw [CommandLauncher.askPicker, askSelect_eq]
  exact Blind.askOnce _ _

theorem pick_eq (settings : Settings) : Attempt.pick settings =
    if (offered settings).isEmpty then do
      notify .info "No commands configured"
      return none
    else do
      let picked ← askPicker settings
      return (picked.bind fun n => (offered settings)[n]?).map (·.2) := rfl

theorem pick_of_nil {settings : Settings} (h : offered settings = []) (s : Session) :
    (Attempt.pick settings).run s = (none, ((notify .info "No commands configured").run s).2) := by
  rw [pick_eq, h]
  rfl

theorem pick_of_ne_nil {settings : Settings} (h : offered settings ≠ []) (s : Session) :
    (Attempt.pick settings).run s =
      (Start.picker.command? settings s, ((askPicker settings).run s).2) := by
  have hne : ¬ (offered settings).isEmpty = true := by simpa using h
  rw [pick_eq, if_neg hne, run_bind, askPicker_fst]
  rfl

/-! ## Filling in and sending -/

section Launching

variable (settings : Settings) (c : Command)

/-- Look up all names of a command. -/
def lookUpNames : SessionM Findings :=
  findAll (Attempt.lookUp settings.vars) (Template.references c.command)

/-- What is noted about missing names. -/
def noteMissing (names : List String) : SessionM Unit :=
  log .debug .dispatch ("Command " ++ Attempt.shownKey c.title ++ " has unresolved variables: " ++
    Failure.quotedList names)

theorem lookUpNames_fst (s : Session) :
    ((lookUpNames settings c).run s).1 =
      findingsWith settings.vars s.picks (Template.references c.command) :=
  (lookUp_all settings.vars _ s).1

theorem Asks.lookUpNames (s : Session) :
    Asks ((choicesFor settings.vars (Template.references c.command)).map .choose) s
      ((CommandLauncher.lookUpNames settings c).run s).2 :=
  (lookUp_all settings.vars (Template.references c.command) s).2

theorem Blind.lookUpNames : Blind (CommandLauncher.lookUpNames settings c) :=
  Blind.lookUpAll settings.vars _

theorem tryOn_launch (s : Session) :
    tryOn (Attempt.launch settings c) s =
      tryOn
        (match Dispatch.of c settings.sendNewLine
            { result := Template.substitute ((lookUpNames settings c).run s).1.value? c.command
              missing := ((lookUpNames settings c).run s).1.missing } with
        | .failed missing => do
          (noteMissing c missing : Attempt Unit)
          throw (.missingVariables missing)
        | .dispatched text enter => Attempt.deliver text enter)
        ((lookUpNames settings c).run s).2 := by
  rw [Attempt.launch, tryOn_bind_lift]
  rfl

/-- A launch is over where names are missing. -/
theorem launch_incomplete {s : Session} (h : ((lookUpNames settings c).run s).1.missing ≠ []) :
    tryOn (Attempt.launch settings c) s =
      (.error (.missingVariables ((lookUpNames settings c).run s).1.missing),
        ((noteMissing c ((lookUpNames settings c).run s).1.missing).run
          ((lookUpNames settings c).run s).2).2) := by
  rw [tryOn_launch, Dispatch.of, Resolution.isComplete]
  rw [if_neg (by simpa using h)]
  rfl

/-- A launch goes on to deliver its text where none is. -/
theorem launch_complete {s : Session} (h : ((lookUpNames settings c).run s).1.missing = []) :
    tryOn (Attempt.launch settings c) s =
      tryOn
        (Attempt.deliver (Template.substitute ((lookUpNames settings c).run s).1.value? c.command)
          (c.pressesEnter settings.sendNewLine))
        ((lookUpNames settings c).run s).2 := by
  rw [tryOn_launch, Dispatch.of, Resolution.isComplete]
  rw [if_pos (by simpa using h)]

end Launching

/-! ## The ways out -/

namespace Start

/-- Settings that cannot be read end a run at once. -/
theorem run_unreadable (start : Start) {s : Session} {e : SettingsError} (h : s.onDisk = .error e) :
    start.run s = ((do let _ ← readSettings; report (.settings e)).run s).2 := by
  have hread := tryOn_readSettings_error h
  have hattempt : tryOn start.action.attempt s = (.error (.settings e), (readSettings.run s).2) := by
    cases start with
    | given c => exact tryOn_bind_error hread _
    | titled title => exact tryOn_bind_error hread _
    | picker => exact tryOn_bind_error hread _
  rw [run, perform_of_error hattempt]
  rfl

section Readable

variable {s : Session} {settings : Settings} (hs : s.onDisk = .ok settings)

include hs

/-- So does a title that no command has. -/
theorem run_unknown {title : String} (h : Command.last? settings.commands title = none) :
    (titled title).run s = ((do let _ ← readSettings; report (.unknownCommand title)).run s).2 := by
  have hattempt : tryOn (titled title).action.attempt s =
      (.error (.unknownCommand title), (readSettings.run s).2) := by
    refine (tryOn_bind_ok (tryOn_readSettings_ok hs) _).trans ?_
    rw [h]
    rfl
  rw [run, perform_of_error hattempt]
  rfl

/-- There is nothing to be picked from. -/
theorem run_nothing_offered (h : offered settings = []) :
    picker.run s =
      ((do let _ ← readSettings; notify .info "No commands configured").run s).2 := by
  have hattempt : tryOn picker.action.attempt s =
      (.ok (), ((notify .info "No commands configured").run (readSettings.run s).2).2) := by
    refine (tryOn_bind_ok (tryOn_readSettings_ok hs) _).trans ?_
    dsimp only
    rw [tryOn_bind_lift, pick_of_nil h]
    rfl
  rw [run, perform_of_ok hattempt]
  rfl

/-- Nothing is picked. -/
theorem run_not_picked (hne : offered settings ≠ [])
    (h : picker.command? settings (readSettings.run s).2 = none) :
    picker.run s = ((do let _ ← readSettings; askPicker settings).run s).2 := by
  have hattempt : tryOn picker.action.attempt s =
      (.ok (), ((askPicker settings).run (readSettings.run s).2).2) := by
    refine (tryOn_bind_ok (tryOn_readSettings_ok hs) _).trans ?_
    dsimp only
    rw [tryOn_bind_lift, pick_of_ne_nil hne, h]
    rfl
  rw [run, perform_of_ok hattempt]
  rfl

end Readable

/-- What happens before the command is launched. -/
def preamble (settings : Settings) : Start → SessionM Unit
  | given _ => do
    let _ ← readSettings
  | titled _ => do
    let _ ← readSettings
    let _ ← readSettings
  | picker => do
    let _ ← readSettings
    let _ ← askPicker settings

theorem Asks.preamble (settings : Settings) (start : Start) (s : Session) :
    Asks (start.questions settings) s ((start.preamble settings).run s).2 := by
  have hread := Asks.of_silent (Adds.readSettings s)
  cases start with
  | given c => exact hread
  | titled title => exact hread.trans_silent (Adds.readSettings _)
  | picker => exact hread.trans (Asks.askPicker settings _)

theorem Blind.preamble (settings : Settings) (start : Start) : Blind (start.preamble settings) := by
  cases start with
  | given c => exact Blind.readSettings.bind fun _ => Blind.pure ()
  | titled title =>
    exact Blind.readSettings.bind fun _ => Blind.readSettings.bind fun _ => Blind.pure ()
  | picker =>
    exact Blind.readSettings.bind fun _ => (Blind.askPicker settings).bind fun _ => Blind.pure ()

/-- A run of a command for which names are missing. -/
def incomplete (settings : Settings) (c : Command) (start : Start) : SessionM Unit := do
  start.preamble settings
  let found ← lookUpNames settings c
  noteMissing c found.missing
  report (.missingVariables found.missing)

theorem Blind.incomplete (settings : Settings) (c : Command) (start : Start) :
    Blind (start.incomplete settings c) :=
  (Blind.preamble settings start).bind fun _ => (Blind.lookUpNames settings c).bind fun _ =>
    (Blind.record _).bind fun _ => Blind.report _

section Launched

variable {start : Start} {s : Session} {settings : Settings} {c : Command}
  (hs : s.onDisk = .ok settings) (hc : start.command? settings s = some c)

include hs hc

/-- With a command, a run is a launch after what comes before it. -/
theorem attempt_of_command :
    tryOn start.action.attempt s =
      tryOn (Attempt.launch settings c) ((start.preamble settings).run s).2 := by
  have hread := tryOn_readSettings_ok hs
  cases start with
  | given c' =>
    obtain rfl : c' = c := Option.some.inj hc
    exact tryOn_bind_ok hread _
  | titled title =>
    refine (tryOn_bind_ok hread _).trans ?_
    -- the launch reads the settings again, and finds them unchanged
    rw [show Command.last? settings.commands title = some c from hc]
    exact tryOn_bind_ok (tryOn_readSettings_ok ((Adds.readSettings s).onDisk_eq.trans hs)) _
  | picker =>
    have hne : offered settings ≠ [] := by
      intro hnil
      cases hp : s.pickedPosition <;> simp [command?, hnil, hp] at hc
    have hpicked : picker.command? settings (readSettings.run s).2 = some c := hc
    refine (tryOn_bind_ok hread _).trans ?_
    dsimp only
    rw [tryOn_bind_lift, pick_of_ne_nil hne, hpicked]
    rfl

/-- A run is over where names are missing. -/
theorem run_incomplete
    (h : ((lookUpNames settings c).run ((start.preamble settings).run s).2).1.missing ≠ []) :
    start.run s = ((start.incomplete settings c).run s).2 := by
  have hattempt := (attempt_of_command hs hc).trans (launch_incomplete settings c h)
  rw [run, perform_of_error hattempt]
  rfl

/-- A run whose text is complete delivers it. -/
theorem run_complete
    (h : ((lookUpNames settings c).run ((start.preamble settings).run s).2).1.missing = []) :
    Delivered
      (Template.substitute
        ((lookUpNames settings c).run ((start.preamble settings).run s).2).1.value? c.command)
      (c.pressesEnter settings.sendNewLine)
      ((lookUpNames settings c).run ((start.preamble settings).run s).2).2 (start.run s) := by
  have hattempt := (attempt_of_command hs hc).trans (launch_complete settings c h)
  refine delivered_of_tryOn _ _ _ _ (fun s₂ hok => ?_) (fun f s₂ herror => ?_)
  · rw [run, perform_of_ok (hattempt.trans hok)]
  · rw [run, perform_of_error (hattempt.trans herror)]
    exact Adds.report f s₂

end Launched

end Start

/-! ## All runs -/

end CommandLauncher
