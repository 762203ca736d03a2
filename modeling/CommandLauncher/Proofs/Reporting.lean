/-
  REPORTING — what comes of actions that are stopped, and of those that fail.

  1. **Stopping** — an action with nothing to work on asks nothing.  A dialog that is stopped shows
     its exchanges up to the one that stops it, and a removal that is not confirmed its question.
     Nothing else comes of them (`update_stopped`, `remove_refused`).

  2. **Fair ends** — an attempt ends fairly if it reports no failure where it ends well, and has
     changed no file where it fails.  An attempt to save or to remove an entry fails before it
     writes, or because it cannot write, which leaves the file as it is.  Once it has written it
     does not fail any more: it reads the settings once again, and finds what it wrote.

  3. **One report** — so an action of which the user is told that it failed tells him so once, and
     last of all, and has changed no file itself (`stops_or_reports_once`).  In particular this
     is what comes of a completed dialog, or a confirmed removal, whose file cannot be written.
-/
import CommandLauncher.Proofs.Dialogs
import CommandLauncher.Proofs.Removing
import CommandLauncher.Proofs.Running
import CommandLauncher.Proofs.Updating

namespace CommandLauncher

open Session

namespace Part

/-- The dialog of a part. -/
def dialog : (p : Part) → Option p.Entry → Dialog p.Entry
  | vars => Dialog.variableForm
  | commands => Dialog.commandForm

theorem form_dialog (p : Part) (start : Option p.Entry) : (p.dialog start).form = p.form start := by
  cases p with
  | vars => exact Dialog.form_variableForm start
  | commands => exact Dialog.form_commandForm start

/-- The question of a removal. -/
def removal (p : Part) (key : String) : Question :=
  .confirm ("Remove " ++ p.catalog.noun ++ " " ++ Attempt.shownKey key ++ "?") false

end Part

namespace Action

theorem attempt_edit (p : Part) (key : String) :
    (edit p key).attempt = Attempt.edit p.catalog p.form key := by
  cases p <;> rfl

theorem attempt_remove (p : Part) (key : String) :
    (remove p key).attempt = Attempt.remove p.catalog key := by
  cases p <;> rfl

end Action

/-! ## Stopping -/

/-- A form that ends early is noted in the log. -/
theorem tryOn_fillIn_stopped {α : Type} (c : Catalog α) {form : Form α} (edited : Option String)
    {stop : Stop} {s s₁ : Session} (h : tryOn form s = (.error stop, s₁)) :
    ∃ level message, tryOn (Attempt.fillIn c form edited) s =
      (.ok (), ((log level .launcher message).run s₁).2) := by
  rw [Attempt.fillIn, tryOn_bind_lift, show form.run.run s = (.error stop, s₁) from h]
  cases stop with
  | cancelled => exact ⟨_, _, rfl⟩
  | refused problem => exact ⟨_, _, rfl⟩

/-- In a dialog that came to an end, an exchange that stops it is the last one. -/
theorem Dialog.Ends.last {α : Type} {result : Except Stop α} {earlier later : List Exchange}
    {e : Exchange} (h : Ends (earlier ++ e :: later) result) (hstop : e.stop?.isSome = true) :
    later = [] ∧ ∃ stop, result = .error stop := by
  have hnotEarlier : ∀ es : List Exchange, (∀ f ∈ es, f.stop? = none) → e ∉ es := by
    intro es hes he
    rw [hes e he] at hstop
    cases hstop
  cases result with
  | ok a => exact absurd (List.mem_append_right _ List.mem_cons_self) (hnotEarlier _ h)
  | error stop =>
    obtain ⟨before, last, hes, -, hbefore⟩ := h
    refine ⟨?_, stop, rfl⟩
    rcases List.eq_nil_or_concat later with hnil | ⟨more, x, hmore⟩
    · exact hnil
    · -- then the exchange stands among those in front of the last one
      have hsplit : (earlier ++ e :: more) ++ [x] = before ++ [last] := by
        rw [← hes, hmore, List.concat_eq_append, List.append_assoc, List.cons_append]
      obtain ⟨hsame, -⟩ := List.append_inj' hsplit rfl
      have hmem : e ∈ before := hsame ▸ List.mem_append_right _ List.mem_cons_self
      exact absurd hmem (hnotEarlier before hbefore)

/-- The form of an update, run as a dialog. -/
theorem update_dialog {u : Update} (start : Option u.part.Entry) (s : Session) :
    let outcome := tryOn (u.part.form start) (readSettings.run s).2
    Heard (s.shown ((u.part.dialog start).exchanges s)) s outcome.2 ∧
      Dialog.Ends ((u.part.dialog start).exchanges s) outcome.1 := by
  intro outcome
  have hsilent := Adds.readSettings s
  obtain ⟨hheard, hends⟩ := (u.part.dialog start).tryOn_form (readSettings.run s).2
  have hsame := (u.part.dialog start).exchanges_eq hsilent
  rw [u.part.form_dialog, hsame] at hheard hends
  rw [shown, (SamePlace.of_adds hsilent).attended] at hheard
  exact ⟨(Heard.of_adds hsilent).silent_trans hheard, hends⟩

theorem Asks.askRemoval (p : Part) (key : String) (s : Session) :
    Asks [p.removal key] s ((CommandLauncher.askRemoval p.catalog key).run s).2 := by
  rw [askRemoval_eq]
  exact Asks.askOnce _ _ s

/-- What a removal is answered with. -/
theorem askRemoval_fst (p : Part) (key : String) (s : Session) :
    ((askRemoval p.catalog key).run s).1 = some true ↔ s.attended = true ∧ s.reply = .flag true := by
  rw [askRemoval_eq, askOnce_fst]
  cases s.attended with
  | false => simp
  | true => cases s.reply <;> simp

/-- An absence is noted in the log. -/
theorem Adds.noteAbsence {α : Type} (c : Catalog α) (key : String) (s : Session) :
    Adds [] s (tryOn (Attempt.noteAbsence c key) (Session.readSettings.run s).2).2 :=
  (Adds.readSettings s).silent_trans (Adds.log _ _ _ _)

section Stopping

variable {s : Session} {before : Settings} (hread : s.onDisk = .ok before)

include hread

/-- **A stopped dialog** shows its exchanges up to the one that stops it, and nothing else comes
    of the update. -/
theorem update_stopped {u : Update} {start : Option u.part.Entry} {earlier later : List Exchange}
    {e : Exchange} (hopen : u.initial? before = some start)
    (hes : (u.part.dialog start).exchanges s = earlier ++ e :: later)
    (hstop : e.stop?.isSome = true) :
    later = [] ∧ Heard (s.shown (earlier ++ [e])) s (s.after u.action) := by
  obtain ⟨hheard, hends⟩ := update_dialog start s
  rw [hes] at hheard hends
  obtain ⟨rfl, stop, hresult⟩ := hends.last hstop
  refine ⟨rfl, ?_⟩
  obtain ⟨level, message, hfill⟩ := tryOn_fillIn_stopped u.part.catalog u.edited
    (show tryOn (u.part.form start) (readSettings.run s).2 = (.error stop, _) from
      Prod.ext hresult rfl)
  have hattempt := (Update.tryOn_attempt hread hopen).trans hfill
  rw [after, perform_of_ok hattempt]
  exact hheard.trans_silent (Heard.of_adds (Adds.log _ _ _ _))

variable {p : Part} {key : String}

/-- An edit without its entry asks nothing. -/
theorem tryOn_edit_absent (habsent : ∀ e ∈ p.catalog.entries before, p.catalog.key e ≠ key) :
    tryOn (Action.edit p key).attempt s =
      tryOn (Attempt.noteAbsence p.catalog key) (readSettings.run s).2 := by
  have hfind : p.catalog.find? key before = none :=
    List.find?_eq_none.mpr fun e he => by simpa using habsent e he
  rw [Action.attempt_edit, Attempt.edit, tryOn_bind_ok (tryOn_readSettings_ok hread), hfind]

/-- Where there is nothing to be edited, or to be removed, nothing happens. -/
theorem absent_silent (habsent : ∀ e ∈ p.catalog.entries before, p.catalog.key e ≠ key) :
    Adds [] s (s.after (.edit p key)) ∧ Adds [] s (s.after (.remove p key)) := by
  have hnoted := Adds.noteAbsence p.catalog key s
  refine ⟨?_, ?_⟩
  · rw [after, perform_of_ok (tryOn_edit_absent hread habsent)]
    exact hnoted
  · have hremove := tryOn_remove_absent p.catalog key hread habsent
    rw [← Action.attempt_remove] at hremove
    rw [after, perform_of_ok hremove]
    exact hnoted

/-- **A removal that is not confirmed** shows its question, and nothing else comes of it. -/
theorem remove_refused (hthere : ∃ e ∈ p.catalog.entries before, p.catalog.key e = key)
    (hrefused : ¬ (s.attended = true ∧ s.reply = .flag true)) :
    Asks [p.removal key] s (s.after (.remove p key)) := by
  have hno : ¬ ((askRemoval p.catalog key).run (readSettings.run s).2).1 = some true :=
    fun h => hrefused ((askRemoval_fst p key (readSettings.run s).2).mp h)
  have hremove := tryOn_remove_there p.catalog key hread hthere
  dsimp only at hremove
  rw [if_neg hno, ← Action.attempt_remove] at hremove
  rw [after, perform_of_ok hremove]
  exact (Asks.of_silent (Adds.readSettings s)).trans (Asks.askRemoval p key _)

end Stopping

/-! ## Reporting -/

/-- From `s` on no failure was reported. -/
def NoFailure (s s' : Session) : Prop :=
  ∃ es, s'.events = s.events ++ es ∧ ∀ e ∈ es, e.isFailure = false

/-- From `s` on no failure was reported, or one, last of all and with all files as they were but
    for what others did to them. -/
def ReportsOnce (s s' : Session) : Prop :=
  NoFailure s s' ∨ ∃ shown message, Heard (shown ++ [failed message]) s s' ∧
    ∀ e ∈ shown, e.isFailure = false

/-- Only what can be seen may tell of a failure. -/
theorem isFailure_of_visible {es : List Event} (h : ∀ e ∈ visible es, e.isFailure = false) :
    ∀ e ∈ es, e.isFailure = false := by
  intro e he
  by_cases hlogged : e.isLogged = true
  · cases e with
    | logged entry => rfl
    | _ => cases hlogged
  · exact h e (List.mem_filter.mpr ⟨he, by simpa using hlogged⟩)

/-- Whether an event is a question. -/
def Event.isQuestion : Event → Bool
  | .asked .. => true
  | _ => false

theorem isQuestion_shown {s : Session} {es : List Exchange} :
    ∀ e ∈ s.shown es, e.isQuestion = true := by
  intro e he
  rw [shown] at he
  split at he
  · obtain ⟨exchange, -, rfl⟩ := List.mem_map.mp he
    rfl
  · cases he

theorem isQuestion_asked {s : Session} {qs : List Question} :
    ∀ e ∈ s.asked qs, e.isQuestion = true := by
  intro e he
  rw [asked] at he
  split at he
  · obtain ⟨q, -, rfl⟩ := List.mem_map.mp he
    rfl
  · cases he

/-- Questions tell of no failure. -/
theorem isFailure_of_questions {es : List Event} (h : ∀ e ∈ es, e.isQuestion = true) :
    ∀ e ∈ es, e.isFailure = false := by
  intro e he
  cases e with
  | notified n => cases h _ he
  | _ => rfl

namespace NoFailure

variable {s s' s'' : Session}

theorem trans (h : NoFailure s s') (h' : NoFailure s' s'') : NoFailure s s'' := by
  obtain ⟨es, hes, hcalm⟩ := h
  obtain ⟨fs, hfs, hcalm'⟩ := h'
  refine ⟨es ++ fs, ?_, List.forall_mem_append.mpr ⟨hcalm, hcalm'⟩⟩
  rw [hfs, hes, List.append_assoc]

theorem of_heard {shown : List Event} (h : Heard shown s s')
    (hcalm : ∀ e ∈ shown, e.isFailure = false) : NoFailure s s' := by
  obtain ⟨k, es, rfl, rfl⟩ := h
  exact ⟨es, rfl, isFailure_of_visible hcalm⟩

theorem of_calm (h : Calm s s') : NoFailure s s' := by
  obtain ⟨shown, h, hcalm⟩ := h
  exact of_heard (Heard.of_adds h) hcalm

theorem of_saved {settings : Settings} (h : Saved settings s s') : NoFailure s s' := by
  obtain ⟨s₁, files, hadds, rfl, -⟩ := h
  obtain ⟨es, hevents, hcalm⟩ := of_calm (Calm.of_silent hadds)
  exact ⟨es, hevents, hcalm⟩

end NoFailure

/-! ### Fair ends -/

/-- An attempt ended fairly: no failure was reported, and if it failed no file was changed but by
    others. -/
def EndsFairly (s : Session) : Except Failure Unit × Session → Prop
  | (.ok _, s') => NoFailure s s'
  | (.error _, s') => ∃ shown, Heard shown s s' ∧ ∀ e ∈ shown, e.isFailure = false

namespace EndsFairly

variable {s s₁ : Session} {outcome : Except Failure Unit × Session}

theorem of_noFailure (hok : outcome.1 = .ok ()) (h : NoFailure s outcome.2) :
    EndsFairly s outcome := by
  obtain ⟨result, s'⟩ := outcome
  obtain rfl : result = .ok () := hok
  exact h

theorem of_calm (h : Calm s outcome.2) : EndsFairly s outcome := by
  obtain ⟨result, s'⟩ := outcome
  cases result with
  | ok _ => exact NoFailure.of_calm h
  | error _ =>
    obtain ⟨shown, h, hcalm⟩ := h
    exact ⟨shown, Heard.of_adds h, hcalm⟩

/-- What the user says first does not matter. -/
theorem after_heard {shown : List Event} (h : Heard shown s s₁)
    (hcalm : ∀ e ∈ shown, e.isFailure = false) (hend : EndsFairly s₁ outcome) :
    EndsFairly s outcome := by
  obtain ⟨result, s'⟩ := outcome
  cases result with
  | ok _ => exact (NoFailure.of_heard h hcalm).trans hend
  | error _ =>
    obtain ⟨more, hmore, hcalm'⟩ := hend
    exact ⟨shown ++ more, h.trans hmore, List.forall_mem_append.mpr ⟨hcalm, hcalm'⟩⟩

/-- An action whose attempt ends fairly reports once. -/
theorem reportsOnce {a : Action} (h : EndsFairly s (tryOn a.attempt s)) :
    ReportsOnce s (s.after a) := by
  cases hattempt : tryOn a.attempt s with
  | mk result s' =>
    rw [hattempt] at h
    cases result with
    | ok _ =>
      rw [after, perform_of_ok hattempt]
      exact .inl h
    | error f =>
      obtain ⟨shown, hheard, hcalm⟩ := h
      rw [after, perform_of_error hattempt]
      exact .inr ⟨shown, f.message, hheard.trans (Heard.of_adds (Adds.report f s')), hcalm⟩

end EndsFairly

/-! ### Behind the writing -/

section Attempting

variable {α : Type} (c : Catalog α) {s : Session}

theorem OnlyAdds.reportSaved (entry : α) (s : Session) :
    OnlyAdds s (tryOn (CommandLauncher.reportSaved c entry) s).2 :=
  ((record _ s).trans (record _ _)).trans (emit _ _)

theorem OnlyAdds.reportRemoved (key : String) (s : Session) :
    OnlyAdds s (tryOn (CommandLauncher.reportRemoved c key) s).2 :=
  (record _ s).trans (emit _ _)

/-- Reporting on settings that can be read does not fail. -/
theorem reportSaved_readable (entry : α) {settings : Settings} (h : s.onDisk = .ok settings) :
    (tryOn (reportSaved c entry) s).1 = .ok () ∧ Calm s (tryOn (reportSaved c entry) s).2 := by
  let message := "Saved " ++ c.noun ++ " " ++ Attempt.shownKey (c.key entry)
  have hlog := Adds.log .info .launcher message s
  have hnotify := Adds.notify .info message ((log .info .launcher message).run s).2
  have htold : Calm s ((notify .info message).run ((log .info .launcher message).run s).2).2 :=
    ⟨_, hlog.silent_trans hnotify, by simp [Event.isFailure]⟩
  obtain ⟨hok, hcalm⟩ := emit_readable c.part (htold.onlyAdds.onDisk_eq.trans h)
  exact ⟨hok, htold.trans hcalm⟩

theorem reportRemoved_readable (key : String) {settings : Settings} (h : s.onDisk = .ok settings) :
    (tryOn (reportRemoved c key) s).1 = .ok () ∧ Calm s (tryOn (reportRemoved c key) s).2 := by
  have hlog := Adds.log .info .launcher ("Removed " ++ c.noun ++ " " ++ Attempt.shownKey key) s
  obtain ⟨hok, hcalm⟩ := emit_readable c.part (hlog.onDisk_eq.trans h)
  exact ⟨hok, (Calm.of_silent hlog).trans hcalm⟩

end Attempting

/-- Storing an entry that has not gone writes it, and then reports on what is on disk. -/
theorem store_reports {u : Update} {entry : u.part.Entry} {s : Session} {now : Settings}
    (husable : Part.Usable entry) (hnow : s.onDisk = .ok now) (hthere : ¬ u.IsGone now)
    (hwritable : s.files.Writable s.store.path)
    (hback : (tryOn (Attempt.store u.part.catalog u.edited entry) s).2.files.YamlReadsBack
      s.store.path) :
    ∃ entries s₂, Placed u.part.catalog.key (u.target entry) entry (u.part.catalog.entries now)
        entries ∧
      Saved (u.part.catalog.replace entries now) s s₂ ∧
      s₂.onDisk = .ok (u.part.catalog.replace entries now) ∧
      tryOn (Attempt.store u.part.catalog u.edited entry) s =
        tryOn (reportSaved u.part.catalog entry) s₂ := by
  obtain ⟨s₂, hsaved, hrest⟩ := tryOn_store_saved u.part.catalog u.edited entry hnow
    (fun hedited hat => hthere (Update.isGone_iff.mpr ⟨hedited, hat⟩)) hwritable
  have hplaced := Update.placed_stored entry hthere
  have hproblem := Part.problem?_replace (problem?_of_onDisk hnow) fun e he =>
    (hplaced.mem he).imp_right fun heq : e = entry => heq ▸ husable
  rw [hrest, (OnlyAdds.reportSaved u.part.catalog entry s₂).files_eq] at hback
  exact ⟨_, s₂, hplaced, hsaved, hsaved.onDisk_of_yamlReadsBack hback hproblem, hrest⟩

/-- Storing an entry ends fairly. -/
theorem endsFairly_store {u : Update} {entry : u.part.Entry} {s : Session}
    (husable : Part.Usable entry)
    (hback : (tryOn (Attempt.store u.part.catalog u.edited entry) s).2.files.YamlReadsBack
      s.store.path) :
    EndsFairly s (tryOn (Attempt.store u.part.catalog u.edited entry) s) := by
  cases hnow : s.onDisk with
  | error e =>
    rw [tryOn_store_unreadable _ _ entry hnow]
    exact EndsFairly.of_calm (Calm.readSettings s)
  | ok now =>
    by_cases hgone : u.IsGone now
    · obtain ⟨hedited, hat⟩ := Update.isGone_iff.mp hgone
      rw [tryOn_store_gone _ _ entry hnow hedited hat]
      exact EndsFairly.of_calm (Calm.of_silent ((Adds.readSettings s).trans (Adds.log _ _ _ _)))
    · rcases s.files.writable_or s.store.path with hwritable | ⟨cause, hrefused⟩
      · obtain ⟨entries, s₂, -, hsaved, honDisk, hrest⟩ :=
          store_reports husable hnow hgone hwritable hback
        obtain ⟨hok, hcalm⟩ := reportSaved_readable u.part.catalog entry honDisk
        rw [hrest]
        exact EndsFairly.of_noFailure hok
          ((NoFailure.of_saved hsaved).trans (NoFailure.of_calm hcalm))
      · obtain ⟨s₂, hfailed, hsilent⟩ := tryOn_store_unwritable u.part.catalog u.edited entry hnow
          (fun hedited hat => hgone (Update.isGone_iff.mpr ⟨hedited, hat⟩)) hrefused
        rw [hfailed]
        exact EndsFairly.of_calm (Calm.of_silent hsilent)

/-- The course of an update.  It may be stopped without an entry: then nothing was there to be
    edited, or the user stopped the dialog.  Otherwise its entry is to be stored. -/
inductive Update.Course (u : Update) (s : Session) (before : Settings) : Prop where
  | stopped (shown : List Event) (s' : Session) (hheard : Heard shown s s')
      (hasked : ∀ e ∈ shown, e.isQuestion = true)
      (hattempt : tryOn u.action.attempt s = (.ok (), s'))
  | completed (shown : List Event) (start : Option u.part.Entry) (entry : u.part.Entry)
      (s₁ : Session) (hopen : u.initial? before = some start)
      (hform : tryOn (u.part.form start) (readSettings.run s).2 = (.ok entry, s₁))
      (hheard : Heard shown s s₁) (hasked : ∀ e ∈ shown, e.isQuestion = true)
      (hattempt : tryOn u.action.attempt s =
        tryOn (Attempt.store u.part.catalog u.edited entry) s₁)

/-- The course of an update of readable settings. -/
theorem Update.course (u : Update) {s : Session} {before : Settings} (hread : s.onDisk = .ok before) :
    u.Course s before := by
  cases hopen : u.initial? before with
  | none =>
    -- only an edit may have nothing to start from
    obtain ⟨p, edited⟩ := u
    cases edited with
    | none => cases hopen
    | some key =>
      have habsent : ∀ e ∈ p.catalog.entries before, p.catalog.key e ≠ key := by
        simpa [Update.initial?, Catalog.find?] using hopen
      exact .stopped [] _ (Heard.of_adds (Adds.noteAbsence p.catalog key s)) nofun
        (tryOn_edit_absent hread habsent)
  | some start =>
    obtain ⟨hheard, -⟩ := update_dialog (u := u) start s
    have hattempt := Update.tryOn_attempt hread hopen
    cases hform : tryOn (u.part.form start) (readSettings.run s).2 with
    | mk result s₁ =>
      rw [hform] at hheard
      cases result with
      | error stop =>
        obtain ⟨level, message, hfill⟩ := tryOn_fillIn_stopped u.part.catalog u.edited hform
        have hnoted := hheard.trans_silent (Heard.of_adds (Adds.log level .launcher message s₁))
        exact .stopped _ _ hnoted isQuestion_shown (hattempt.trans hfill)
      | ok entry =>
        exact .completed _ start entry s₁ hopen hform hheard isQuestion_shown
          (hattempt.trans (Update.tryOn_fillIn u.part.catalog u.edited hform))

/-- An update of settings that cannot be read fails. -/
theorem Update.tryOn_attempt_unreadable (u : Update) {s : Session} {e : SettingsError}
    (hread : s.onDisk = .error e) :
    tryOn u.action.attempt s = (.error (.settings e), (readSettings.run s).2) := by
  obtain ⟨p, edited⟩ := u
  cases edited with
  | none => cases p <;> exact tryOn_bind_error (tryOn_readSettings_error hread) _
  | some key => cases p <;> exact tryOn_bind_error (tryOn_readSettings_error hread) _

/-- The attempts of updates end fairly. -/
theorem endsFairly_update (u : Update) {s : Session}
    (hback : (tryOn u.action.attempt s).2.files.YamlReadsBack s.store.path) :
    EndsFairly s (tryOn u.action.attempt s) := by
  cases hread : s.onDisk with
  | error e =>
    rw [u.tryOn_attempt_unreadable hread]
    exact EndsFairly.of_calm (Calm.of_silent (Adds.readSettings s))
  | ok before =>
    cases u.course hread with
    | stopped shown s' hheard hasked hattempt =>
      rw [hattempt]
      exact NoFailure.of_heard hheard (isFailure_of_questions hasked)
    | completed shown start entry s₁ hopen hform hheard hasked hattempt =>
      obtain ⟨-, hgives⟩ := u.part.gives_form start (readSettings.run s).2
      rw [hform] at hgives
      rw [hattempt, ← hheard.store_eq] at hback
      rw [hattempt]
      exact EndsFairly.after_heard hheard (isFailure_of_questions hasked)
        (endsFairly_store (hgives entry rfl).1.usable hback)

/-- Taking entries out of a list writes it, and then reports on what is on disk. -/
theorem takeOut_reports {p : Part} {key : String} {before now : Settings} {s : Session}
    (hbefore : before.problem? = none) (hnow : s.onDisk = .ok now)
    (hwritable : s.files.Writable s.store.path)
    (hback : (tryOn (takeOut p.catalog key (p.catalog.entries before)) s).2.files.YamlReadsBack
      s.store.path) :
    let written := p.catalog.replace (without p.catalog.key key (p.catalog.entries before)) now
    ∃ s₂, Saved written s s₂ ∧ s₂.onDisk = .ok written ∧
      tryOn (takeOut p.catalog key (p.catalog.entries before)) s =
        tryOn (reportRemoved p.catalog key) s₂ := by
  intro written
  obtain ⟨s₂, hwritten, hsaved⟩ := tryOn_replaceEntries p.catalog
    (without p.catalog.key key (p.catalog.entries before)) hnow hwritable
  rw [takeOut, tryOn_bind_ok hwritten] at hback ⊢
  rw [(OnlyAdds.reportRemoved p.catalog key s₂).files_eq] at hback
  have hproblem := p.problem?_replace_without key hbefore (problem?_of_onDisk hnow)
  exact ⟨s₂, hsaved, hsaved.onDisk_of_yamlReadsBack hback hproblem, rfl⟩

/-- Taking entries out of a list ends fairly. -/
theorem endsFairly_takeOut {p : Part} {key : String} {before : Settings} {s : Session}
    (hbefore : before.problem? = none)
    (hback : (tryOn (takeOut p.catalog key (p.catalog.entries before)) s).2.files.YamlReadsBack
      s.store.path) :
    EndsFairly s (tryOn (takeOut p.catalog key (p.catalog.entries before)) s) := by
  cases hnow : s.onDisk with
  | error e =>
    rw [takeOut, tryOn_bind_error (tryOn_replaceEntries_unreadable _ _ hnow)]
    exact EndsFairly.of_calm (Calm.readSettings s)
  | ok now =>
    rcases s.files.writable_or s.store.path with hwritable | ⟨cause, hrefused⟩
    · obtain ⟨s₂, hsaved, honDisk, hrest⟩ := takeOut_reports hbefore hnow hwritable hback
      obtain ⟨hok, hcalm⟩ := reportRemoved_readable p.catalog key honDisk
      rw [hrest]
      exact EndsFairly.of_noFailure hok
        ((NoFailure.of_saved hsaved).trans (NoFailure.of_calm hcalm))
    · obtain ⟨s₂, hfailed, hsilent⟩ := tryOn_takeOut_unwritable p.catalog key hnow hrefused
      rw [hfailed]
      exact EndsFairly.of_calm (Calm.of_silent hsilent)

/-- The attempts of removals end fairly. -/
theorem endsFairly_remove (p : Part) (key : String) {s : Session}
    (hback : (tryOn (Action.remove p key).attempt s).2.files.YamlReadsBack s.store.path) :
    EndsFairly s (tryOn (Action.remove p key).attempt s) := by
  have hsilent := Adds.readSettings s
  rw [Action.attempt_remove] at hback ⊢
  cases hread : s.onDisk with
  | error e =>
    rw [Attempt.remove, tryOn_bind_error (tryOn_readSettings_error hread)]
    exact EndsFairly.of_calm (Calm.of_silent hsilent)
  | ok before =>
    by_cases hthere : ∃ e ∈ p.catalog.entries before, p.catalog.key e = key
    · have hasked := (Asks.of_silent hsilent).trans (Asks.askRemoval p key _)
      refine EndsFairly.after_heard (Heard.of_asks hasked)
        (isFailure_of_questions isQuestion_asked) ?_
      rw [tryOn_remove_there p.catalog key hread hthere] at hback ⊢
      dsimp only at hback ⊢
      split
      · rename_i hyes
        rw [if_pos hyes, ← (Heard.of_asks hasked).store_eq] at hback
        exact endsFairly_takeOut (problem?_of_onDisk hread) hback
      · exact EndsFairly.of_calm (Calm.refl _)
    · have habsent : ∀ e ∈ p.catalog.entries before, p.catalog.key e ≠ key := by
        simpa using hthere
      rw [tryOn_remove_absent p.catalog key hread habsent]
      exact EndsFairly.of_calm (Calm.of_silent (Adds.noteAbsence p.catalog key s))

/-- A refresh ends fairly. -/
theorem endsFairly_emit (part : Part) (s : Session) :
    EndsFairly s (tryOn (Attempt.emit part) s) := by
  cases h : s.onDisk with
  | error e =>
    rw [emit_unreadable h]
    exact EndsFairly.of_calm (Calm.readSettings s)
  | ok settings => exact EndsFairly.of_calm (emit_readable part h).2

/-! ### Runs -/

namespace ReportsOnce

variable {s s₁ s' : Session} {shown : List Event}

theorem of_calm (h : Calm s s') : ReportsOnce s s' := .inl (NoFailure.of_calm h)

theorem of_failed {message : String} (h : Adds [failed message] s s') : ReportsOnce s s' :=
  .inr ⟨[], message, Heard.of_adds h, nofun⟩

/-- What the user says first does not matter. -/
theorem after_heard (h : Heard shown s s₁) (hcalm : ∀ e ∈ shown, e.isFailure = false)
    (hend : ReportsOnce s₁ s') : ReportsOnce s s' := by
  rcases hend with hnone | ⟨more, message, hmore, hcalm'⟩
  · exact .inl ((NoFailure.of_heard h hcalm).trans hnone)
  · refine .inr ⟨shown ++ more, message, ?_, List.forall_mem_append.mpr ⟨hcalm, hcalm'⟩⟩
    rw [List.append_assoc]
    exact h.trans hmore

theorem after_asks {qs : List Question} (h : Asks qs s s₁) (hend : ReportsOnce s₁ s') :
    ReportsOnce s s' :=
  after_heard (Heard.of_asks h) (isFailure_of_questions isQuestion_asked) hend

theorem after_calm (h : Calm s s₁) (hend : ReportsOnce s₁ s') : ReportsOnce s s' := by
  obtain ⟨shown, h, hcalm⟩ := h
  exact after_heard (Heard.of_adds h) hcalm hend

end ReportsOnce

/-- Looking for the terminal leaves entries in the log at most. -/
theorem Adds.activeTerminal (s : Session) : Adds [] s (Session.activeTerminal.run s).2 := by
  by_cases hshell : s.terminal = .shell
  · have hshellOf : Adds [] s (currentShell.run s).2 := by
      have hread := Adds.readSettings s
      rw [currentShell, run_bind]
      cases (Session.readSettings.run s).1 with
      | error e => exact hread.silent_trans (Adds.log _ _ _ _)
      | ok settings => exact hread
    have hget : (get : SessionM Session).run s = (s, s) := rfl
    rw [Session.activeTerminal, run_bind, hget]
    dsimp only
    rw [hshell]
    dsimp only
    rw [run_bind, run_bind]
    split
    · exact hshellOf
    · exact hshellOf.silent_trans (Adds.log .warn .terminal _ _)
  · rw [activeTerminal_run hshell]
    exact Adds.refl s

/-- Showing a terminal is no failure. -/
theorem Calm.showTerminal (t : ActiveTerminal) (s : Session) :
    Calm s ((Session.showTerminal t).run s).2 := by
  cases t with
  | shell program directory => exact of_silent (Adds.log _ _ _ _)
  | ready => exact record (by simp [Event.isFailure]) s
  | failing e => exact record (by simp [Event.isFailure]) s

theorem isFailure_outputEvents (output : List (Bool × String)) :
    ∀ e ∈ outputEvents output, e.isFailure = false := by
  intro e he
  obtain ⟨⟨onError, text⟩, -, rfl⟩ := List.mem_map.mp he
  cases onError with
  | true => rfl
  | false => rfl

/-- What is noted when a shell is done. -/
def noteStatus (text : String) (status : Nat) : SessionM Unit :=
  if status = 0 then Session.log .info .terminal ("Command finished: " ++ text)
  else
    Session.log .warn .terminal
      ("Command exited with exit status: " ++ toString status ++ ": " ++ text)

theorem Adds.noteStatus (text : String) (status : Nat) (s : Session) :
    Adds [] s ((CommandLauncher.noteStatus text status).run s).2 := by
  rw [CommandLauncher.noteStatus]
  split
  · exact Adds.log _ _ _ _
  · exact Adds.log _ _ _ _

theorem runShell_run (program directory text : String) (s : Session) :
    (runShell program directory text).run s =
      let announced := ((record [.printed (announcement text)]).run s).2
      match Shell.start s.files s.environment program directory text with
      | .error e => (.error (.notStarted program e.message), announced)
      | .ok run =>
        let printed := ((record (outputEvents run.output)).run { announced with files := run.files }).2
        (.ok (), ((noteStatus text run.status).run printed).2) := by
  rw [runShell, run_bind, run_bind]
  change StateT.run (match Shell.start s.files s.environment program directory text with
    | .error e => _
    | .ok run => _) _ = _
  cases Shell.start s.files s.environment program directory text with
  | error e => rfl
  | ok run =>
    dsimp only
    rw [run_bind, run_bind, noteStatus]
    by_cases hstatus : run.status = 0
    · rw [if_pos hstatus, if_pos hstatus]
      rfl
    · rw [if_neg hstatus, if_neg hstatus]
      rfl

/-- A shell reports no failure, and changes files only if it was started. -/
theorem runShell_fair (program directory text : String) (s : Session) :
    let outcome := (runShell program directory text).run s
    NoFailure s outcome.2 ∧ ∀ e, outcome.1 = .error e → Calm s outcome.2 := by
  intro outcome
  have hannounced : Calm s ((record [.printed (announcement text)]).run s).2 :=
    Calm.record (by simp [Event.isFailure]) s
  have hrun : outcome = _ := runShell_run program directory text s
  dsimp only at hrun
  cases hstart : Shell.start s.files s.environment program directory text with
  | error e =>
    rw [hstart] at hrun
    rw [hrun]
    exact ⟨NoFailure.of_calm hannounced, fun _ _ => hannounced⟩
  | ok run =>
    rw [hstart] at hrun
    rw [hrun]
    refine ⟨?_, fun e he => absurd he (by simp)⟩
    have hprinted := Calm.record (isFailure_outputEvents run.output)
      { ((record [.printed (announcement text)]).run s).2 with files := run.files }
    have hnoted := Adds.noteStatus text run.status
    obtain ⟨es, hes, hcalm⟩ := NoFailure.of_calm hannounced
    have hset : NoFailure s
        { ((record [.printed (announcement text)]).run s).2 with files := run.files } :=
      ⟨es, hes, hcalm⟩
    exact hset.trans (NoFailure.of_calm (hprinted.trans (Calm.of_silent (hnoted _))))

/-- Sending reports no failure, and what cannot be sent changes no file. -/
theorem send_fair (t : ActiveTerminal) (text : String) (enter : Bool) (s : Session) :
    let outcome := (send t text enter).run s
    NoFailure s outcome.2 ∧ ∀ e, outcome.1 = .error e → Calm s outcome.2 := by
  have hrecord : ∀ e : Event, e.isFailure = false → NoFailure s ((record [e]).run s).2 :=
    fun e he => NoFailure.of_calm (Calm.record (by simpa using he) s)
  cases t with
  | ready => exact ⟨hrecord (.sent text enter) rfl, nofun⟩
  | failing e => exact ⟨NoFailure.of_calm (Calm.refl s), fun _ _ => Calm.refl s⟩
  | shell program directory =>
    cases enter with
    | false => exact ⟨hrecord (.printed text) rfl, nofun⟩
    | true => exact runShell_fair program directory text s

/-- A delivery reports once. -/
theorem Delivered.reportsOnce {text : String} {enter : Bool} {s s' : Session}
    (h : Delivered text enter s s') : ReportsOnce s s' := by
  cases h with
  | absent s₁ hactive htold =>
    have hsilent := Adds.activeTerminal s
    rw [hactive] at hsilent
    exact ReportsOnce.after_calm (Calm.of_silent hsilent) (ReportsOnce.of_failed htold)
  | sent t s₁ hactive hsent =>
    have hsilent := Adds.activeTerminal s
    rw [hactive] at hsilent
    obtain ⟨hcalm, -⟩ := send_fair t text enter ((showTerminal t).run s₁).2
    rw [hsent] at hcalm
    exact ReportsOnce.after_calm ((Calm.of_silent hsilent).trans (Calm.showTerminal t s₁))
      (.inl hcalm)
  | refused t s₁ s₂ e hactive hrefused htold =>
    have hsilent := Adds.activeTerminal s
    rw [hactive] at hsilent
    obtain ⟨-, hcalm⟩ := send_fair t text enter ((showTerminal t).run s₁).2
    rw [hrefused] at hcalm
    have hshown := (Calm.of_silent hsilent).trans (Calm.showTerminal t s₁)
    exact ReportsOnce.after_calm (hshown.trans (hcalm e rfl)) (ReportsOnce.of_failed htold)

/-- A piece of information as the user sees it. -/
def informed (message : String) : Event := .notified { severity := .info, message }

/-- A run asks some questions.  Then it is over, with pieces of information at most or with a
    failure, or it delivers a text. -/
theorem Start.run_cases (start : Start) (s : Session) : ∃ qs s₁, Asks qs s s₁ ∧
    ((∃ messages : List String, Adds (messages.map informed) s₁ (start.run s)) ∨
      (∃ message, Adds [failed message] s₁ (start.run s)) ∨
      ∃ text enter, Delivered text enter s₁ (start.run s)) := by
  have hread := Adds.readSettings s
  have hsilent : Asks [] s (readSettings.run s).2 := Asks.of_silent hread
  cases hs : s.onDisk with
  | error e =>
    refine ⟨_, _, hsilent, .inr (.inl ⟨(Failure.settings e).message, ?_⟩)⟩
    rw [run_unreadable start hs]
    exact Adds.report (.settings e) _
  | ok settings =>
    cases hc : start.command? settings s with
    | none =>
      cases start with
      | given c => cases hc
      | titled title =>
        refine ⟨_, _, hsilent, .inr (.inl ⟨(Failure.unknownCommand title).message, ?_⟩)⟩
        rw [run_unknown hs hc]
        exact Adds.report (.unknownCommand title) _
      | picker =>
        by_cases hnil : offered settings = []
        · refine ⟨_, _, hsilent, .inl ?_⟩
          rw [run_nothing_offered hs hnil]
          exact ⟨["No commands configured"], Adds.notify .info "No commands configured" _⟩
        · refine ⟨_, _, hsilent.trans (Asks.askPicker settings _), .inl ?_⟩
          rw [run_not_picked hs hnil hc]
          exact ⟨[], Adds.refl _⟩
    | some c =>
      refine ⟨_, _, (Asks.preamble settings start s).trans (Asks.lookUpNames settings c _), .inr ?_⟩
      let found := ((lookUpNames settings c).run ((start.preamble settings).run s).2).1
      by_cases hmissing : found.missing = []
      · exact .inr ⟨_, _, run_complete hs hc hmissing⟩
      · refine .inl ⟨(Failure.missingVariables found.missing).message, ?_⟩
        rw [run_incomplete hs hc hmissing]
        exact (Adds.log _ _ _ _).silent_trans (Adds.report _ _)

/-- A run reports once. -/
theorem Start.reportsOnce (start : Start) (s : Session) : ReportsOnce s (start.run s) := by
  obtain ⟨qs, s₁, hasked, hend⟩ := start.run_cases s
  refine ReportsOnce.after_asks hasked ?_
  rcases hend with ⟨messages, hinformed⟩ | ⟨message, hfailed⟩ | ⟨text, enter, hdelivered⟩
  · refine ReportsOnce.of_calm ⟨_, hinformed, fun e he => ?_⟩
    obtain ⟨message, -, rfl⟩ := List.mem_map.mp he
    rfl
  · exact ReportsOnce.of_failed hfailed
  · exact hdelivered.reportsOnce

/-! ## All actions -/

/-- Whether an action is about the groups of the tree. -/
def Action.IsAboutGroups : Action → Prop
  | expand _ => True
  | collapse _ => True
  | _ => False

section Unwritable

variable {s : Session} {before now : Settings} {cause : FileError} (hread : s.onDisk = .ok before)
include hread

/-- A completed dialog whose entry cannot be written is reported, and changes no file. -/
theorem update_unwritable {u : Update} {start : Option u.part.Entry} {entry : u.part.Entry}
    {s₁ : Session} (hopen : u.initial? before = some start)
    (hform : tryOn (u.part.form start) (readSettings.run s).2 = (.ok entry, s₁))
    (hnow : s₁.onDisk = .ok now) (hthere : ¬ u.IsGone now)
    (hrefused : ∀ c, s₁.files.write s.store.path c = .error cause) :
    Heard (s.shown ((u.part.dialog start).exchanges s) ++
      [failed (SettingsError.unwritable s.store.path cause).message]) s (s.after u.action) := by
  obtain ⟨hheard, -⟩ := update_dialog (u := u) start s
  rw [hform] at hheard
  rw [← hheard.store_eq] at hrefused ⊢
  obtain ⟨s₂, hfailed, hsilent⟩ := tryOn_store_unwritable u.part.catalog u.edited entry hnow
    (fun hedited hat => hthere (Update.isGone_iff.mpr ⟨hedited, hat⟩)) hrefused
  have hattempt := (Update.tryOn_attempt hread hopen).trans
    ((Update.tryOn_fillIn u.part.catalog u.edited hform).trans hfailed)
  rw [after, perform_of_error hattempt]
  exact hheard.trans (Heard.of_adds (hsilent.silent_trans (Adds.report _ s₂)))

/-- So is a confirmed removal that cannot be written. -/
theorem remove_unwritable {p : Part} {key : String}
    (hthere : ∃ e ∈ p.catalog.entries before, p.catalog.key e = key)
    (hconfirmed : s.attended = true ∧ s.reply = .flag true)
    (hnow : (s.answered 1).onDisk = .ok now)
    (hrefused : ∀ c, (s.answered 1).files.write s.store.path c = .error cause) :
    Heard (s.asked [p.removal key] ++
      [failed (SettingsError.unwritable s.store.path cause).message]) s
      (s.after (.remove p key)) := by
  let asked := (askRemoval p.catalog key).run (readSettings.run s).2
  have hasked : Asks [p.removal key] s asked.2 :=
    (Asks.of_silent (Adds.readSettings s)).trans (Asks.askRemoval p key _)
  obtain ⟨hyes, hadds⟩ := askRemoval_run p.catalog key (s := (readSettings.run s).2)
    hconfirmed.1 hconfirmed.2
  have hbehind : OnlyAdds (s.answered 1) asked.2 :=
    OnlyAdds.trans ⟨[], (Adds.readSettings s).answered 1⟩ hadds
  rw [← hbehind.files_eq, show s.store.path = asked.2.store.path by rw [hbehind.store_eq]; rfl]
    at hrefused
  obtain ⟨s₂, hfailed, hsilent⟩ := tryOn_takeOut_unwritable p.catalog key
    (hbehind.onDisk_eq.trans hnow) hrefused
  have hattempt : tryOn (Action.remove p key).attempt s =
      (.error (.settings (.unwritable asked.2.store.path cause)), s₂) := by
    rw [Action.attempt_remove, tryOn_remove_there p.catalog key hread hthere]
    exact (if_pos hyes).trans hfailed
  rw [after, perform_of_error hattempt, hbehind.store_eq]
  exact (Heard.of_asks hasked).trans (Heard.of_adds (hsilent.silent_trans (Adds.report _ s₂)))

end Unwritable

/-- An action that is not about groups reports once. -/
theorem Action.reportsOnce {a : Action} {s : Session} (hgroups : ¬ a.IsAboutGroups)
    (hback : (s.after a).files.YamlReadsBack s.store.path) : ReportsOnce s (s.after a) := by
  have hattempt : (tryOn a.attempt s).2.files.YamlReadsBack s.store.path :=
    (OnlyAdds.perform a s).files_eq ▸ hback
  cases a with
  | add p => exact (endsFairly_update ⟨p, none⟩ hattempt).reportsOnce
  | edit p key => exact (endsFairly_update ⟨p, some key⟩ hattempt).reportsOnce
  | remove p key => exact (endsFairly_remove p key hattempt).reportsOnce
  | run c =>
    cases c with
    | some c => exact (Start.given c).reportsOnce s
    | none => exact Start.picker.reportsOnce s
  | runTitled title => exact (Start.titled title).reportsOnce s
  | expand path => exact absurd trivial hgroups
  | collapse path => exact absurd trivial hgroups
  | refresh part => exact (endsFairly_emit part s).reportsOnce (a := .refresh part)

/-- **Stopped actions do nothing more, and failing ones report once.**  Of an action with nothing
    to work on nothing can be seen.  Where the user cancels, where a text got around its check, or
    where the default is none of the options, the dialog of an update is over: its exchanges can
    be seen, and nothing else.  So it is with the question of a removal that is not confirmed.  If
    a dialog was completed, or a removal confirmed, but the file cannot be written then, this is
    reported behind the questions.  No file is changed by these but what others do at the
    questions.  Any other action reports at most one failure; if it does, then last of all, and no
    file is changed by it either. -/
theorem stops_or_reports_once (s : Session) :
    (∀ before, s.onDisk = .ok before →
      (∀ (p : Part) (key : String), (∀ e ∈ p.catalog.entries before, p.catalog.key e ≠ key) →
        Adds [] s (s.after (.edit p key)) ∧ Adds [] s (s.after (.remove p key))) ∧
      (∀ (u : Update) (start : Option u.part.Entry) (earlier later : List Exchange) (e : Exchange),
        u.initial? before = some start →
        (u.part.dialog start).exchanges s = earlier ++ e :: later → e.stop?.isSome = true →
        later = [] ∧ Heard (s.shown (earlier ++ [e])) s (s.after u.action)) ∧
      (∀ (p : Part) (key : String), (∃ e ∈ p.catalog.entries before, p.catalog.key e = key) →
        ¬ (s.attended = true ∧ s.reply = .flag true) →
        Asks [p.removal key] s (s.after (.remove p key))) ∧
      (∀ (u : Update) (start : Option u.part.Entry) (entry : u.part.Entry) (s₁ : Session)
          (now : Settings) (cause : FileError),
        u.initial? before = some start →
        tryOn (u.part.form start) (readSettings.run s).2 = (.ok entry, s₁) →
        s₁.onDisk = .ok now → ¬ u.IsGone now →
        (∀ c, s₁.files.write s.store.path c = .error cause) →
        Heard (s.shown ((u.part.dialog start).exchanges s) ++
          [failed ("Unable to write settings file " ++ s.store.path ++ ": " ++ cause.message)])
          s (s.after u.action)) ∧
      ∀ (p : Part) (key : String) (now : Settings) (cause : FileError),
        (∃ e ∈ p.catalog.entries before, p.catalog.key e = key) →
        s.attended = true ∧ s.reply = .flag true → (s.answered 1).onDisk = .ok now →
        (∀ c, (s.answered 1).files.write s.store.path c = .error cause) →
        Heard (s.asked [p.removal key] ++
          [failed ("Unable to write settings file " ++ s.store.path ++ ": " ++ cause.message)])
          s (s.after (.remove p key))) ∧
    ∀ a : Action, ¬ a.IsAboutGroups → (s.after a).files.YamlReadsBack s.store.path →
      ReportsOnce s (s.after a) := by
  refine ⟨fun before hread => ⟨fun p key => absent_silent hread, ?_, ?_, ?_, ?_⟩, ?_⟩
  · intro u start earlier later e hopen hes hstop
    exact update_stopped hread hopen hes hstop
  · intro p key hthere hrefused
    exact remove_refused hread hthere hrefused
  · intro u start entry s₁ now cause hopen hform hnow hthere hrefused
    exact update_unwritable hread hopen hform hnow hthere hrefused
  · intro p key now cause hthere hconfirmed hnow hrefused
    exact remove_unwritable hread hthere hconfirmed hnow hrefused
  · exact fun a hgroups hback => Action.reportsOnce hgroups hback

/-- The user gives a name and cancels the question for the kind, while somebody adds a shell; a
    title that no command has is reported; and so is a confirmed removal, where the file cannot be
    written. -/
theorem stops_or_reports_once_cancelled :
    let before : Settings := { vars := [{ name := "a" }] }
    let s := meanwhile before { before with shell := some "sh" } (.text "b") [.cancel]
    let name : Exchange :=
      { prompt := .text "Variable name" (some "a") Check.name, refused := [], told := some "b" }
    let kind : Exchange :=
      { prompt := .select "Variable type" Variable.kinds 0 false, refused := [], told := none }
    (s.onDisk = .ok before ∧
      (Dialog.variableForm (some { name := "a" })).exchanges s = [name, kind] ∧
      kind.stop? = some .cancelled) ∧
    Heard (s.shown [name, kind]) s (s.after (.edit .vars "a")) ∧
    (s.after (.runTitled "x")).files.YamlReadsBack s.store.path ∧
    ReportsOnce s (s.after (.runTitled "x")) ∧
    let t := locked before .readOnly [.flag true]
    (t.onDisk = .ok before ∧ ∀ c, t.files.write t.store.path c = .error .readOnly) ∧
    Heard (t.asked [.confirm "Remove variable 'a'?" false] ++ [failed
      "Unable to write settings file /s.json: Read-only file system (os error 30)"]) t
      (t.after (.remove .vars "a")) := by
  intro before s name kind
  have hread : s.onDisk = .ok before := onDisk_meanwhile _ _ rfl
  have hexchanges : (Dialog.variableForm (some { name := "a" })).exchanges s = [name, kind] := rfl
  have hyaml : (s.after (.runTitled "x")).files.YamlReadsBack s.store.path :=
    FileSystem.yamlReadsBack_of_json format_meanwhile _
  obtain ⟨hstops, hreports⟩ := stops_or_reports_once s
  obtain ⟨-, hstopped⟩ := (hstops before hread).2.1 ⟨.vars, some "a"⟩ (some { name := "a" })
    [name] [] kind rfl hexchanges rfl
  refine ⟨⟨hread, hexchanges, rfl⟩, hstopped, hyaml, hreports _ id hyaml, ?_⟩
  intro t
  have hread : t.onDisk = .ok before := onDisk_locked .readOnly _ rfl
  have hrefused : ∀ c, t.files.write t.store.path c = .error .readOnly :=
    write_locked before .readOnly [.flag true]
  obtain ⟨-, -, -, -, hunwritten⟩ := (stops_or_reports_once t).1 before hread
  have hthere : ∃ v ∈ before.vars, v.name = "a" := ⟨{ name := "a" }, by decide, rfl⟩
  exact ⟨⟨hread, hrefused⟩, hunwritten .vars "a" before .readOnly hthere ⟨rfl, rfl⟩ hread hrefused⟩

end CommandLauncher
