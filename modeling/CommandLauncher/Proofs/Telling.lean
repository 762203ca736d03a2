/-
  TELLING — who is told of a change, when, and with which settings.

  1. **Signals** — notifications and refreshes are what an action signals.  `Sends told s s'` says
     that from `s` on just `told` was signalled, to the subscribers that were there.

  2. **Refreshes** — a refresh is told to every subscriber once, in the order of the subscriptions
     (`Sends.refresh`, an induction on the subscribers).  An attempt to tell of settings that can
     be read ends with a refresh that tells of just these (`Tells`).

  3. **Occasions** — there are four of them: a completed form, a confirmed removal, a toggle that
     changes the expansion state, and the wish of the user.  Each of them is told, last of all and
     with the change already on disk, if the file that it changes can be written
     (`Occasion.told`).  If that file cannot be written (`Occasion.untold`), or if there is no
     occasion (`quiet_without_occasion`), nobody is told of anything.

  4. **Courses** — turns are taken while others subscribe.  By induction every turn starts from
     settings that can be read, and finds those subscribed who were there at the start or joined
     on the way (`through_state`); so whatever is told in one of them is told to just these
     (`refreshes_told`).
-/
import CommandLauncher.Proofs.Histories
import CommandLauncher.Proofs.Toggling

namespace CommandLauncher

open Session

/-! ## Signals -/

/-- Whether an event is that a subscriber was told of a change. -/
def Event.isRefresh : Event → Bool
  | .refreshed .. => true
  | _ => false

/-- Whether an event is a notification or that a subscriber was told of a change. -/
def Event.isSignal : Event → Bool
  | .refreshed .. => true
  | .notified _ => true
  | _ => false

/-- The signals among some events. -/
def signals (es : List Event) : List Event := es.filter Event.isSignal

theorem signals_append (es fs : List Event) : signals (es ++ fs) = signals es ++ signals fs :=
  List.filter_append ..

theorem signals_visible (es : List Event) : signals (visible es) = signals es := by
  rw [signals, visible, List.filter_filter]
  refine List.filter_congr fun e _ => ?_
  cases e <;> rfl

theorem signals_eq_nil {es : List Event} (h : ∀ e ∈ es, e.isSignal = false) : signals es = [] :=
  List.filter_eq_nil_iff.mpr fun e he => by simp [h e he]

/-- Questions are no signals. -/
theorem signals_of_questions {es : List Event} (h : ∀ e ∈ es, e.isQuestion = true) :
    signals es = [] := by
  refine signals_eq_nil fun e he => ?_
  cases e with
  | asked question refused => rfl
  | _ => cases h _ he

/-- From `s` on just `told` was signalled, and nobody subscribed. -/
def Sends (told : List Event) (s s' : Session) : Prop :=
  s'.subscribers = s.subscribers ∧ ∃ es, s'.events = s.events ++ es ∧ signals es = told

namespace Sends

variable {told more : List Event} {s s' s'' : Session}

theorem refl (s : Session) : Sends [] s s := ⟨rfl, [], by simp, rfl⟩

theorem trans (h : Sends told s s') (h' : Sends more s' s'') : Sends (told ++ more) s s'' := by
  obtain ⟨hsubscribers, es, hes, rfl⟩ := h
  obtain ⟨hsubscribers', fs, hfs, rfl⟩ := h'
  refine ⟨hsubscribers'.trans hsubscribers, es ++ fs, ?_, signals_append es fs⟩
  rw [hfs, hes, List.append_assoc]

/-- Silence before something. -/
theorem silent_trans (h : Sends [] s s') (h' : Sends more s' s'') : Sends more s s'' := h.trans h'

theorem of_heard {shown : List Event} (h : Heard shown s s') : Sends (signals shown) s s' := by
  obtain ⟨k, es, rfl, rfl⟩ := h
  exact ⟨rfl, es, rfl, (signals_visible es).symm⟩

theorem of_adds {shown : List Event} (h : Adds shown s s') : Sends (signals shown) s s' :=
  of_heard (Heard.of_adds h)

theorem of_saved {settings : Settings} (h : Saved settings s s') : Sends [] s s' := by
  obtain ⟨s₁, files, hadds, rfl, -⟩ := h
  exact of_adds hadds

/-- Asking signals nothing. -/
theorem of_questions {shown : List Event} (h : Heard shown s s')
    (hasked : ∀ e ∈ shown, e.isQuestion = true) : Sends [] s s' := by
  have hsends := of_heard h
  rwa [signals_of_questions hasked] at hsends

theorem of_asks {qs : List Question} (h : Asks qs s s') : Sends [] s s' :=
  of_questions (Heard.of_asks h) isQuestion_asked

end Sends

/-- From `s` on no subscriber was told of anything, and nobody subscribed. -/
def Quiet (s s' : Session) : Prop :=
  s'.subscribers = s.subscribers ∧
    ∃ es, s'.events = s.events ++ es ∧ ∀ e ∈ es, e.isRefresh = false

namespace Quiet

variable {told : List Event} {s s' s'' : Session}

theorem trans (h : Quiet s s') (h' : Quiet s' s'') : Quiet s s'' := by
  obtain ⟨hsubscribers, es, hes, hquiet⟩ := h
  obtain ⟨hsubscribers', fs, hfs, hquiet'⟩ := h'
  refine ⟨hsubscribers'.trans hsubscribers, es ++ fs, ?_,
    List.forall_mem_append.mpr ⟨hquiet, hquiet'⟩⟩
  rw [hfs, hes, List.append_assoc]

/-- Nobody is told if it was not signalled. -/
theorem of_sends (h : Sends told s s') (hquiet : ∀ e ∈ told, e.isRefresh = false) : Quiet s s' := by
  obtain ⟨hsubscribers, es, hes, rfl⟩ := h
  refine ⟨hsubscribers, es, hes, fun e he => ?_⟩
  cases e with
  | refreshed n part settings => exact hquiet _ (List.mem_filter.mpr ⟨he, rfl⟩)
  | _ => rfl

theorem of_silent (h : Sends [] s s') : Quiet s s' := of_sends h nofun

/-- Nobody is told by what can be seen of questions and a failure. -/
theorem of_heard_failed {shown : List Event} {message : String}
    (h : Heard (shown ++ [failed message]) s s') (hasked : ∀ e ∈ shown, e.isQuestion = true) :
    Quiet s s' := by
  refine of_sends (Sends.of_heard h) fun e he => ?_
  rw [signals_append, signals_of_questions hasked] at he
  obtain rfl := List.mem_singleton.mp (List.mem_filter.mp he).1
  rfl

/-- Nobody is told by a message to the user. -/
theorem of_failed {message : String} (h : Adds [failed message] s s') : Quiet s s' :=
  of_sends (Sends.of_adds h) (by simp [signals, failed, Event.isRefresh, Event.isSignal])

theorem record {es : List Event} (h : ∀ e ∈ es, e.isRefresh = false) (s : Session) :
    Quiet s ((Session.record es).run s).2 :=
  ⟨rfl, es, rfl, h⟩

end Quiet

/-! ## Refreshes -/

/-- The first `n` subscribers are told of a change, in their order. -/
def deliveries (part : Part) (settings : Settings) (n : Nat) : List Event :=
  (List.range n).map fun k => .refreshed k part settings

namespace Sends

theorem readExpansion (s : Session) : Sends [] s (Session.readExpansion.run s).2 := by
  rw [Session.readExpansion, run_bind]
  dsimp only
  split
  · exact of_adds (Adds.log _ _ _ _)
  · exact refl s

theorem printLines (lines : List String) (s : Session) :
    Sends [] s ((Session.printLines lines).run s).2 := by
  refine ⟨rfl, _, rfl, signals_eq_nil fun e he => ?_⟩
  obtain ⟨line, -, rfl⟩ := List.mem_map.mp he
  rfl

/-- Whoever is told of a change signals nothing himself. -/
theorem react (part : Part) (settings : Settings) (subscriber : Subscriber) (s : Session) :
    Sends [] s ((Session.react part settings subscriber).run s).2 := by
  cases subscriber with
  | observer => exact refl s
  | variableView =>
    cases part with
    | vars => exact printLines _ s
    | commands => exact refl s
  | treeView everythingOpen =>
    cases part with
    | vars => exact refl s
    | commands => exact (readExpansion s).trans (printLines _ _)

theorem tell (part : Part) (settings : Settings) (subscribers : List Subscriber) :
    ∀ (n : Nat) (s : Session),
      Sends ((List.range' n subscribers.length).map fun k => .refreshed k part settings) s
        ((Session.tell part settings n subscribers).run s).2 := by
  induction subscribers with
  | nil => exact fun _ s => refl s
  | cons subscriber rest ih =>
    intro n s
    have hrecord : Sends [.refreshed n part settings] s
        ((Session.record [.refreshed n part settings]).run s).2 := ⟨rfl, _, rfl, rfl⟩
    exact hrecord.trans ((react part settings subscriber _).silent_trans (ih (n + 1) _))

/-- **A refresh is told to every subscriber once**, in the order of the subscriptions. -/
theorem refresh (part : Part) (settings : Settings) (s : Session) :
    Sends (deliveries part settings s.subscribers.length) s
      ((Session.refresh part settings).run s).2 := by
  rw [deliveries, List.range_eq_range']
  exact tell part settings s.subscribers 0 s

end Sends

/-- From `s` on the notes were signalled, and last of all the settings on disk were told. -/
def Tells (part : Part) (notes : List Event) (now : Settings) (s s' : Session) : Prop :=
  ∃ telling, Sends notes s telling ∧ telling.onDisk = .ok now ∧
    s' = ((Session.refresh part now).run telling).2

namespace Tells

variable {part : Part} {notes : List Event} {now : Settings} {s s' : Session}

theorem sends (h : Tells part notes now s s') :
    Sends (notes ++ deliveries part now s.subscribers.length) s s' := by
  obtain ⟨telling, hnotes, -, rfl⟩ := h
  rw [← hnotes.1]
  exact hnotes.trans (Sends.refresh part now telling)

theorem onDisk (h : Tells part notes now s s') : s'.onDisk = .ok now := by
  obtain ⟨telling, -, htelling, rfl⟩ := h
  exact (Calm.refresh part now telling).onlyAdds.onDisk_eq.trans htelling

/-- To tell of settings that can be read is to tell of these. -/
theorem emit (part : Part) (h : Sends notes s s') (hnow : s'.onDisk = .ok now) :
    ∃ s'', tryOn (Attempt.emit part) s' = (.ok (), s'') ∧ Tells part notes now s s'' := by
  have hread := Adds.readSettings s'
  refine ⟨((Session.refresh part now).run (readSettings.run s').2).2, ?_, _, ?_,
    hread.onDisk_eq.trans hnow, rfl⟩
  · rw [Attempt.emit, tryOn_bind_ok (tryOn_readSettings_ok hnow)]
    rfl
  · have hsends := h.trans (Sends.of_adds hread)
    rwa [show signals [] = [] from rfl, List.append_nil] at hsends

end Tells

/-! ## Occasions -/

theorem Toggle.isAboutGroups (t : Toggle) : t.action.IsAboutGroups := by
  rw [action]
  split <;> trivial

theorem Part.part_catalog (p : Part) : p.catalog.part = p := by cases p <;> rfl

/-- What is told of a saved entry. -/
theorem Tells.reportSaved (p : Part) (entry : p.Entry) {now : Settings} {s s' : Session}
    (h : Sends [] s s') (hnow : s'.onDisk = .ok now) :
    ∃ s'', tryOn (CommandLauncher.reportSaved p.catalog entry) s' = (.ok (), s'') ∧
      Tells p [informed ("Saved " ++ p.catalog.noun ++ " " ++
        Attempt.shownKey (p.catalog.key entry))] now s s'' := by
  let message := "Saved " ++ p.catalog.noun ++ " " ++ Attempt.shownKey (p.catalog.key entry)
  have hlog := Adds.log .info .launcher message s'
  have hadds := hlog.silent_trans
    (Adds.notify .info message ((log .info .launcher message).run s').2)
  obtain ⟨s'', hemit, htells⟩ := Tells.emit p (h.silent_trans (Sends.of_adds hadds))
    (hadds.onDisk_eq.trans hnow)
  refine ⟨s'', ?_, htells⟩
  rw [← hemit, CommandLauncher.reportSaved, p.part_catalog]
  rfl

/-- What is told of a removal. -/
theorem Tells.reportRemoved (p : Part) (key : String) {now : Settings} {s s' : Session}
    (h : Sends [] s s') (hnow : s'.onDisk = .ok now) :
    ∃ s'', tryOn (CommandLauncher.reportRemoved p.catalog key) s' = (.ok (), s'') ∧
      Tells p [] now s s'' := by
  have hlog := Adds.log .info .launcher
    ("Removed " ++ p.catalog.noun ++ " " ++ Attempt.shownKey key) s'
  obtain ⟨s'', hemit, htells⟩ := Tells.emit p (h.silent_trans (Sends.of_adds hlog))
    (hlog.onDisk_eq.trans hnow)
  refine ⟨s'', ?_, htells⟩
  rw [← hemit, CommandLauncher.reportRemoved, p.part_catalog]
  rfl

/-- The occasions on which an action tells the subscribers of a change: to which part of the
    settings it is, what the user is notified of before, and which settings are told. -/
inductive Occasion (s : Session) (before : Settings) :
    Action → Part → List Event → (Settings → Prop) → Prop where
  /-- The form of an addition or an edit was completed. -/
  | saved (u : Update) (start : Option u.part.Entry) (entry : u.part.Entry) (s₁ : Session)
      (hopen : u.initial? before = some start)
      (hform : tryOn (u.part.form start) (readSettings.run s).2 = (.ok entry, s₁)) :
      Occasion s before u.action u.part
        [informed ("Saved " ++ u.part.catalog.noun ++ " " ++
          Attempt.shownKey (u.part.catalog.key entry))]
        fun now => ∃ entries,
          Placed u.part.catalog.key (u.target entry) entry (u.part.catalog.entries before) entries ∧
          now = u.part.catalog.replace entries before
  /-- The removal of something that is there was confirmed. -/
  | removed (p : Part) (key : String) (hthere : ∃ e ∈ p.catalog.entries before, p.catalog.key e = key)
      (hattended : s.attended = true) (hreply : s.reply = .flag true) :
      Occasion s before (.remove p key) p [] fun now =>
        now = p.catalog.replace (without p.catalog.key key (p.catalog.entries before)) before
  /-- A group was opened that was not open, or the other way round.  The settings are as before,
      unless their file is the state file. -/
  | toggled (t : Toggle) (hpaths : t.apply s.expandedPaths ≠ s.expandedPaths) :
      Occasion s before t.action .commands [] fun now =>
        now = before ∨ now = {} ∧ Path.fileName? s.store.path = some Expansion.fileName
  /-- The user asked for it. -/
  | requested (p : Part) : Occasion s before (.refresh p) p [] fun now => now = before

/-- The file that an action may change. -/
def Action.file? (store : Store) : Action → Option String
  | add _ => some store.path
  | edit _ _ => some store.path
  | remove _ _ => some store.path
  | expand _ => some (Expansion.pathFor store)
  | collapse _ => some (Expansion.pathFor store)
  | run _ => none
  | runTitled _ => none
  | refresh _ => none

/-- The file that an action may change can be written. -/
def Session.CanWrite (s : Session) (a : Action) : Prop :=
  ∀ path, a.file? s.store = some path → s.files.Writable path

theorem Update.file?_action (u : Update) (store : Store) : u.action.file? store = some store.path := by
  rw [action]
  cases u.edited <;> rfl

theorem Toggle.file?_action (t : Toggle) (store : Store) :
    t.action.file? store = some (Expansion.pathFor store) := by
  rw [action]
  split <;> rfl

/-- An action that cannot write fails to write its file, whatever it would write. -/
theorem Session.refused_of_not_canWrite {s : Session} {a : Action} {path : String}
    (h : ¬ s.CanWrite a) (hfile : a.file? s.store = some path) :
    ∃ cause, ∀ c, s.files.write path c = .error cause := by
  refine (s.files.writable_or path).resolve_left fun hwritable => h fun path' hfile' => ?_
  obtain rfl : path = path' := Option.some.inj (hfile.symm.trans hfile')
  exact hwritable

section Told

variable {s : Session} {a : Action} {before : Settings} (hread : s.onDisk = .ok before)
  (hquiet : ∀ answer ∈ s.answers, answer.outside = none)

/-- An attempt that ends well tells what its action tells. -/
theorem Tells.perform {part : Part} {notes : List Event} {now : Settings} {s' : Session}
    (hattempt : tryOn a.attempt s = (.ok (), s')) (h : Tells part notes now s s') :
    Tells part notes now s (s.after a) := by
  rwa [Session.after, perform_of_ok hattempt]

/-- A toggle that is written is told, whatever is on disk then. -/
theorem toggled_tells {t : Toggle} {files : FileSystem} {now : Settings}
    (hpaths : t.apply s.expandedPaths ≠ s.expandedPaths)
    (hsave : ({ paths := t.apply s.expandedPaths } : Expansion).save s.files
      (Expansion.pathFor s.store) = .ok files)
    (hnow : { s with files }.onDisk = .ok now) :
    Tells .commands [] now s (s.after t.action) := by
  let written : Session := { (readExpansion.run s).2 with files }
  have hstore : written.store = s.store := (Calm.readExpansion s).onlyAdds.store_eq
  have honDisk : written.onDisk = .ok now :=
    (onDisk_congr (s := { s with files }) hstore rfl).trans hnow
  have hsilent : Sends [] s written := Sends.readExpansion s
  obtain ⟨s', hemit, htells⟩ := Tells.emit .commands hsilent honDisk
  exact htells.perform ((t.tryOn_written hpaths hsave).trans hemit)

include hread hquiet

theorem saved_tells {u : Update} {start : Option u.part.Entry} {entry : u.part.Entry} {s₁ : Session}
    (hopen : u.initial? before = some start)
    (hform : tryOn (u.part.form start) (readSettings.run s).2 = (.ok entry, s₁))
    (hwritable : s.files.Writable s.store.path)
    (hyaml : (s.after u.action).files.YamlReadsBack s.store.path) :
    ∃ entries, Placed u.part.catalog.key (u.target entry) entry (u.part.catalog.entries before)
        entries ∧
      Tells u.part [informed ("Saved " ++ u.part.catalog.noun ++ " " ++
        Attempt.shownKey (u.part.catalog.key entry))]
        (u.part.catalog.replace entries before) s (s.after u.action) := by
  obtain ⟨hheard, -⟩ := update_dialog start s
  obtain ⟨-, hgives⟩ := u.part.gives_form start (readSettings.run s).2
  rw [hform] at hheard hgives
  have hattempt := (Update.tryOn_attempt hread hopen).trans
    (Update.tryOn_fillIn u.part.catalog u.edited hform)
  have hback : (tryOn u.action.attempt s).2.files.YamlReadsBack s.store.path :=
    (OnlyAdds.perform u.action s).files_eq ▸ hyaml
  rw [hattempt, ← hheard.store_eq] at hback
  -- nobody has written anything since the form was opened
  rw [← hheard.files_eq hquiet, ← hheard.store_eq] at hwritable
  obtain ⟨entries, s₂, hplaced, hsaved, honDisk, hrest⟩ := store_reports
    (hgives entry rfl).1.usable ((hheard.onDisk_eq hquiet).trans hread) (Update.not_isGone hopen)
    hwritable hback
  have hsilent := (Sends.of_questions hheard isQuestion_shown).trans (Sends.of_saved hsaved)
  obtain ⟨s', hreport, htells⟩ := Tells.reportSaved u.part entry hsilent honDisk
  exact ⟨entries, hplaced, htells.perform (hattempt.trans (hrest.trans hreport))⟩

theorem removed_tells {p : Part} {key : String}
    (hthere : ∃ e ∈ p.catalog.entries before, p.catalog.key e = key)
    (hconfirmed : s.attended = true ∧ s.reply = .flag true)
    (hwritable : s.files.Writable s.store.path)
    (hyaml : (s.after (.remove p key)).files.YamlReadsBack s.store.path) :
    Tells p [] (p.catalog.replace (without p.catalog.key key (p.catalog.entries before)) before) s
      (s.after (.remove p key)) := by
  let asked := (askRemoval p.catalog key).run (readSettings.run s).2
  have hasks : Asks [p.removal key] s asked.2 :=
    (Asks.of_silent (Adds.readSettings s)).trans (Asks.askRemoval p key _)
  have hyes : asked.1 = some true := (askRemoval_fst p key (readSettings.run s).2).mpr hconfirmed
  have hattempt : tryOn (Action.remove p key).attempt s =
      tryOn (takeOut p.catalog key (p.catalog.entries before)) asked.2 := by
    rw [Action.attempt_remove, tryOn_remove_there p.catalog key hread hthere]
    exact if_pos hyes
  have hback : (tryOn (Action.remove p key).attempt s).2.files.YamlReadsBack s.store.path :=
    (OnlyAdds.perform (.remove p key) s).files_eq ▸ hyaml
  have hheard := Heard.of_asks hasks
  rw [hattempt, ← hheard.store_eq] at hback
  rw [← hheard.files_eq hquiet, ← hheard.store_eq] at hwritable
  obtain ⟨s₂, hsaved, honDisk, hrest⟩ := takeOut_reports (problem?_of_onDisk hread)
    ((hheard.onDisk_eq hquiet).trans hread) hwritable hback
  obtain ⟨s', hreport, htells⟩ := Tells.reportRemoved p key
    ((Sends.of_asks hasks).trans (Sends.of_saved hsaved)) honDisk
  exact htells.perform (hattempt.trans (hrest.trans hreport))

omit hquiet

theorem requested_tells (p : Part) : Tells p [] before s (s.after (.refresh p)) := by
  obtain ⟨s', hemit, htells⟩ := Tells.emit p (Sends.refl s) hread
  exact htells.perform hemit

/-- A toggle that cannot be written is not told. -/
theorem unwritable_quiet {t : Toggle} {cause : SettingsError}
    (hpaths : t.apply s.expandedPaths ≠ s.expandedPaths)
    (hsave : ({ paths := t.apply s.expandedPaths } : Expansion).save s.files
      (Expansion.pathFor s.store) = .error cause) :
    Quiet s (s.after t.action) ∧ (s.after t.action).onDisk = .ok before := by
  have hreport := Adds.report (.settings cause) (readExpansion.run s).2
  rw [after, perform_of_error (t.tryOn_unwritable hpaths hsave)]
  exact ⟨(Quiet.of_silent (Sends.readExpansion s)).trans (Quiet.of_failed hreport),
    hreport.onDisk_eq.trans ((Calm.readExpansion s).onlyAdds.onDisk_eq.trans hread)⟩

include hquiet

section Occasion

variable {part : Part} {notes : List Event} {shows : Settings → Prop}
  (h : Occasion s before a part notes shows)
include h

/-- **On every occasion** the subscribers are told, last of all, with the change on disk. -/
theorem Occasion.told (hwritable : s.CanWrite a)
    (hyaml : (s.after a).files.YamlReadsBack s.store.path) :
    ∃ now, shows now ∧ Tells part notes now s (s.after a) := by
  cases h with
  | saved u start entry s₁ hopen hform =>
    obtain ⟨entries, hplaced, htells⟩ := saved_tells hread hquiet hopen hform
      (hwritable _ (u.file?_action s.store)) hyaml
    exact ⟨_, ⟨entries, hplaced, rfl⟩, htells⟩
  | removed p key hthere hattended hreply =>
    exact ⟨_, rfl, removed_tells hread hquiet hthere ⟨hattended, hreply⟩ (hwritable _ rfl) hyaml⟩
  | toggled t hpaths =>
    obtain ⟨files, hsave⟩ := (hwritable _ (t.file?_action s.store)).save
      { paths := t.apply s.expandedPaths }
    have honDisk : { s with files }.onDisk = .ok before ∨
        { s with files }.onDisk = .ok {} ∧ Path.fileName? s.store.path = some Expansion.fileName :=
      onDisk_of_saveExpansion hread hsave rfl
    rcases honDisk with hkept | ⟨hemptied, hname⟩
    · exact ⟨before, .inl rfl, toggled_tells hpaths hsave hkept⟩
    · exact ⟨{}, .inr ⟨rfl, hname⟩, toggled_tells hpaths hsave hemptied⟩
  | requested => exact ⟨before, rfl, requested_tells hread part⟩

/-- If the file cannot be written nobody is told, and the settings stay as they are. -/
theorem Occasion.untold (hnot : ¬ s.CanWrite a) :
    Quiet s (s.after a) ∧ (s.after a).onDisk = .ok before := by
  cases h with
  | saved u start entry s₁ hopen hform =>
    obtain ⟨cause, hrefused⟩ := refused_of_not_canWrite hnot (u.file?_action s.store)
    obtain ⟨hheard, -⟩ := update_dialog (u := u) start s
    rw [hform] at hheard
    have hfailed := update_unwritable hread hopen hform ((hheard.onDisk_eq hquiet).trans hread)
      (Update.not_isGone hopen) (hheard.files_eq hquiet ▸ hrefused)
    exact ⟨Quiet.of_heard_failed hfailed isQuestion_shown, (hfailed.onDisk_eq hquiet).trans hread⟩
  | removed _ key hthere hattended hreply =>
    obtain ⟨cause, hrefused⟩ := refused_of_not_canWrite (a := .remove part key) hnot rfl
    have hsame : (s.answered 1).onDisk = s.onDisk := onDisk_congr rfl (files_answered hquiet 1)
    have hfailed := remove_unwritable hread hthere ⟨hattended, hreply⟩ (hsame.trans hread)
      (files_answered hquiet 1 ▸ hrefused)
    exact ⟨Quiet.of_heard_failed hfailed isQuestion_asked, (hfailed.onDisk_eq hquiet).trans hread⟩
  | toggled t hpaths =>
    obtain ⟨cause, hrefused⟩ := refused_of_not_canWrite hnot (t.file?_action s.store)
    have hsave : ({ paths := t.apply s.expandedPaths } : Expansion).save s.files
        (Expansion.pathFor s.store) = .error (.unwritable (Expansion.pathFor s.store) cause) := by
      rw [Expansion.save, hrefused]
      rfl
    exact unwritable_quiet hread hpaths hsave
  | requested => exact absurd (fun _ hfile => absurd hfile.symm (Option.some_ne_none _)) hnot

end Occasion

end Told

/-! ### Without an occasion -/

namespace Quiet

theorem showTerminal (t : ActiveTerminal) (s : Session) :
    Quiet s ((Session.showTerminal t).run s).2 := by
  cases t with
  | ready => exact record (by simp [Event.isRefresh]) s
  | failing e => exact record (by simp [Event.isRefresh]) s
  | shell program directory => exact of_silent (Sends.of_adds (Adds.log _ _ _ _))

theorem runShell (program directory text : String) (s : Session) :
    Quiet s ((Session.runShell program directory text).run s).2 := by
  have hannounced : Quiet s ((Session.record [.printed (announcement text)]).run s).2 :=
    record (by simp [Event.isRefresh]) s
  rw [runShell_run]
  dsimp only
  cases Shell.start s.files s.environment program directory text with
  | error e => exact hannounced
  | ok run =>
    have houtput : ∀ e ∈ outputEvents run.output, e.isRefresh = false := by
      intro e he
      obtain ⟨⟨onError, text⟩, -, rfl⟩ := List.mem_map.mp he
      cases onError <;> rfl
    have hprinted := hannounced.trans (record houtput _)
    exact hprinted.trans (of_silent (Sends.of_adds (Adds.noteStatus text run.status _)))

theorem send (t : ActiveTerminal) (text : String) (enter : Bool) (s : Session) :
    Quiet s ((Session.send t text enter).run s).2 := by
  cases t with
  | ready => exact record (by simp [Event.isRefresh]) s
  | failing e => exact of_silent (Sends.refl s)
  | shell program directory =>
    cases enter with
    | false => exact record (by simp [Event.isRefresh]) s
    | true => exact runShell program directory text s

end Quiet

/-- Of a delivery nobody is told. -/
theorem Delivered.quiet {text : String} {enter : Bool} {s s' : Session}
    (h : Delivered text enter s s') : Quiet s s' := by
  have hsilent : Quiet s (activeTerminal.run s).2 :=
    Quiet.of_silent (Sends.of_adds (Adds.activeTerminal s))
  cases h with
  | absent s₁ hactive htold =>
    rw [hactive] at hsilent
    exact hsilent.trans (Quiet.of_failed htold)
  | sent t s₁ hactive hsent =>
    have hsend := (Quiet.showTerminal t s₁).trans (Quiet.send t text enter _)
    rw [hsent] at hsend
    rw [hactive] at hsilent
    exact hsilent.trans hsend
  | refused t s₁ s₂ e hactive hrefused htold =>
    have hsend := (Quiet.showTerminal t s₁).trans (Quiet.send t text enter _)
    rw [hrefused] at hsend
    rw [hactive] at hsilent
    exact (hsilent.trans hsend).trans (Quiet.of_failed htold)

/-- Of a run nobody is told. -/
theorem Start.quiet (start : Start) (s : Session) : Quiet s (start.run s) := by
  obtain ⟨qs, s₁, hasked, hend⟩ := start.run_cases s
  refine (Quiet.of_silent (Sends.of_asks hasked)).trans ?_
  rcases hend with ⟨messages, hinformed⟩ | ⟨message, hfailed⟩ | ⟨text, enter, hdelivered⟩
  · refine Quiet.of_sends (Sends.of_adds hinformed) fun e he => ?_
    obtain ⟨message, -, rfl⟩ := List.mem_map.mp (List.mem_filter.mp he).1
    rfl
  · exact Quiet.of_failed hfailed
  · exact hdelivered.quiet

section WithoutOccasion

variable {s : Session} {before : Settings} (hread : s.onDisk = .ok before)

include hread

theorem update_quiet {u : Update} (hquiet : ∀ answer ∈ s.answers, answer.outside = none)
    (hnone : ∀ part notes shows, ¬ Occasion s before u.action part notes shows) :
    Quiet s (s.after u.action) ∧ (s.after u.action).onDisk = .ok before := by
  cases u.course hread with
  | stopped shown s' hheard hasked hattempt =>
    have hafter : s.after u.action = s' := by rw [after, perform_of_ok hattempt]
    rw [hafter]
    exact ⟨Quiet.of_silent (Sends.of_questions hheard hasked),
      (hheard.onDisk_eq hquiet).trans hread⟩
  | completed shown start entry s₁ hopen hform hheard hasked hattempt =>
    exact absurd (.saved u start entry s₁ hopen hform) (hnone _ _ _)

theorem remove_quiet {p : Part} {key : String}
    (hquiet : ∀ answer ∈ s.answers, answer.outside = none)
    (hnone : ∀ part notes shows, ¬ Occasion s before (.remove p key) part notes shows) :
    Quiet s (s.after (.remove p key)) ∧ (s.after (.remove p key)).onDisk = .ok before := by
  by_cases hthere : ∃ e ∈ p.catalog.entries before, p.catalog.key e = key
  · have hrefused : ¬ (s.attended = true ∧ s.reply = .flag true) := fun hconfirmed =>
      hnone _ _ _ (.removed p key hthere hconfirmed.1 hconfirmed.2)
    have hasks := remove_refused hread hthere hrefused
    exact ⟨Quiet.of_silent (Sends.of_asks hasks),
      ((Heard.of_asks hasks).onDisk_eq hquiet).trans hread⟩
  · have habsent : ∀ e ∈ p.catalog.entries before, p.catalog.key e ≠ key := by
      simpa using hthere
    have hadds := (absent_silent hread habsent).2
    exact ⟨Quiet.of_silent (Sends.of_adds hadds), hadds.onDisk_eq.trans hread⟩

/-- A toggle that changes nothing is not told. -/
theorem toggle_quiet {t : Toggle} (hpaths : t.apply s.expandedPaths = s.expandedPaths) :
    Quiet s (s.after t.action) ∧ (s.after t.action).onDisk = .ok before := by
  rw [after, perform_of_ok (t.tryOn_same hpaths)]
  exact ⟨Quiet.of_silent (Sends.readExpansion s),
    (Calm.readExpansion s).onlyAdds.onDisk_eq.trans hread⟩

/-- **Without an occasion** nobody is told of anything, and the settings stay as they are. -/
theorem quiet_without_occasion {a : Action} (h : Undisturbed s a)
    (hnone : ∀ part notes shows, ¬ Occasion s before a part notes shows) :
    Quiet s (s.after a) ∧ (s.after a).onDisk = .ok before := by
  have hrun : ∀ start : Start, a = start.action →
      Quiet s (s.after a) ∧ (s.after a).onDisk = .ok before := by
    rintro start rfl
    exact ⟨start.quiet s, (start.run_onDisk h).trans hread⟩
  have htoggle : ∀ t : Toggle, a = t.action →
      Quiet s (s.after a) ∧ (s.after a).onDisk = .ok before := by
    rintro t rfl
    exact toggle_quiet hread (Decidable.byContradiction fun hpaths => hnone _ _ _ (.toggled t hpaths))
  cases a with
  | add p => exact update_quiet (u := ⟨p, none⟩) hread h.answers hnone
  | edit p key => exact update_quiet (u := ⟨p, some key⟩) hread h.answers hnone
  | remove p key => exact remove_quiet hread h.answers hnone
  | run c =>
    cases c with
    | some c => exact hrun (.given c) rfl
    | none => exact hrun .picker rfl
  | runTitled title => exact hrun (.titled title) rfl
  | expand path => exact htoggle ⟨path, true⟩ rfl
  | collapse path => exact htoggle ⟨path, false⟩ rfl
  | refresh p => exact absurd (.requested p) (hnone _ _ _)

/-- So it is where there is an occasion, but the file that it changes cannot be written. -/
theorem quiet_unless_written {a : Action} (h : Undisturbed s a)
    (hnone : (∀ part notes shows, ¬ Occasion s before a part notes shows) ∨ ¬ s.CanWrite a) :
    Quiet s (s.after a) ∧ (s.after a).onDisk = .ok before := by
  by_cases hocc : ∃ part notes shows, Occasion s before a part notes shows
  · obtain ⟨part, notes, shows, hocc⟩ := hocc
    exact hocc.untold hread h.answers (hnone.resolve_left fun hno => hno part notes shows hocc)
  · simp only [not_exists] at hocc
    exact quiet_without_occasion hread h hocc

/-- What an action comes to: nobody is told and the settings stay, or there was an occasion and
    the subscribers are told. -/
theorem after_ends {a : Action} (h : Undisturbed s a)
    (hyaml : (s.after a).files.YamlReadsBack s.store.path) :
    (Quiet s (s.after a) ∧ (s.after a).onDisk = .ok before) ∨
      ∃ part notes shows now, Occasion s before a part notes shows ∧ shows now ∧
        Tells part notes now s (s.after a) := by
  by_cases htold : (∃ part notes shows, Occasion s before a part notes shows) ∧ s.CanWrite a
  · obtain ⟨⟨part, notes, shows, hocc⟩, hwritable⟩ := htold
    obtain ⟨now, hshows, htells⟩ := hocc.told hread h.answers hwritable hyaml
    exact .inr ⟨part, notes, shows, now, hocc, hshows, htells⟩
  · rw [not_and_or] at htold
    simp only [not_exists] at htold
    exact .inl (quiet_unless_written hread h htold)

end WithoutOccasion

/-! ## Courses -/

/-- What happens in a course: somebody subscribes, or a turn is taken. -/
inductive Happening where
  | joins (subscriber : Subscriber)
  | takes (t : Turn)

/-- The session after it. -/
def Happening.run : Happening → Session → Session
  | joins subscriber, s => ((subscribe subscriber).run s).2
  | takes t, s => t.run s

/-- The session after a course. -/
def Session.through (s : Session) (course : List Happening) : Session :=
  course.foldl (fun s h => h.run s) s

theorem Session.through_append (s : Session) (course : List Happening) (happening : Happening) :
    s.through (course ++ [happening]) = happening.run (s.through course) := by
  rw [through, List.foldl_append]
  rfl

theorem Session.through_turn (s : Session) (t : Turn) : s.through [.takes t] = t.run s := rfl

/-- Neither who is there to answer nor who subscribes matters to the settings on disk. -/
theorem Turn.opening_onDisk (t : Turn) (s : Session) : (t.opening s).onDisk = s.onDisk := rfl

theorem Turn.opening_store (t : Turn) (s : Session) : (t.opening s).store = s.store := rfl

theorem Turn.opening_files (t : Turn) (s : Session) : (t.opening s).files = s.files := rfl

theorem Turn.opening_events (t : Turn) (s : Session) : (t.opening s).events = s.events := rfl

theorem Happening.joins_onDisk (subscriber : Subscriber) (s : Session) :
    ((joins subscriber).run s).onDisk = s.onDisk := rfl

theorem Happening.joins_store (subscriber : Subscriber) (s : Session) :
    ((joins subscriber).run s).store = s.store := rfl

theorem Happening.joins_files (subscriber : Subscriber) (s : Session) :
    ((joins subscriber).run s).files = s.files := rfl

/-- Those who subscribe in a course. -/
def joined (course : List Happening) : List Subscriber :=
  course.filterMap fun
    | .joins subscriber => some subscriber
    | .takes _ => none

/-- Nobody else comes between: nobody but the launcher writes the settings file, and what is
    written to it as YAML is read back. -/
structure Turn.Alone (t : Turn) (s : Session) : Prop where
  undisturbed : Undisturbed (t.opening s) t.action
  yaml : (t.run s).files.YamlReadsBack s.store.path

/-- In a turn nobody subscribes, and the settings stay readable. -/
theorem Turn.run_state {t : Turn} {s : Session} {before : Settings} (hread : s.onDisk = .ok before)
    (h : t.Alone s) : (t.run s).store = s.store ∧ (t.run s).subscribers = s.subscribers ∧
      ∃ now, (t.run s).onDisk = .ok now := by
  obtain ⟨hstore, now, -, hnow⟩ := after_moves (s := t.opening s) hread h.undisturbed h.yaml
  refine ⟨hstore, ?_, now, hnow⟩
  rcases after_ends (s := t.opening s) hread h.undisturbed h.yaml with
    ⟨hquiet, -⟩ | ⟨_, _, _, _, -, -, htells⟩
  · exact hquiet.1
  · exact htells.sends.1

/-- The session in the midst of a course: those who joined on the way have subscribed, and the
    settings can be read. -/
theorem through_state (course : List Happening) : ∀ {s : Session} {start : Settings},
    s.onDisk = .ok start →
    (∀ earlier t later, course = earlier ++ .takes t :: later → t.Alone (s.through earlier)) →
    (s.through course).store = s.store ∧
      (s.through course).subscribers = s.subscribers ++ joined course ∧
      ∃ here, (s.through course).onDisk = .ok here := by
  induction course with
  | nil => exact fun hread _ => ⟨rfl, (List.append_nil _).symm, _, hread⟩
  | cons happening rest ih =>
    intro s start hread halone
    have hrest : ∀ earlier t later, rest = earlier ++ .takes t :: later →
        t.Alone ((happening.run s).through earlier) := fun earlier t later h =>
      halone (happening :: earlier) t later (congrArg (happening :: ·) h)
    cases happening with
    | joins subscriber =>
      obtain ⟨hstore, hsubscribers, hhere⟩ := ih (s := (Happening.joins subscriber).run s) hread hrest
      refine ⟨hstore, hsubscribers.trans ?_, hhere⟩
      exact List.append_assoc s.subscribers [subscriber] (joined rest)
    | takes t =>
      obtain ⟨hstore, hsubscribers, now, hnow⟩ := Turn.run_state hread (halone [] t rest rfl)
      obtain ⟨hstore', hsubscribers', hhere⟩ := ih (s := (Happening.takes t).run s) hnow hrest
      refine ⟨hstore'.trans hstore, hsubscribers'.trans ?_, hhere⟩
      exact congrArg (· ++ joined rest) hsubscribers

/-- **Refreshes are told over every course** of turns and subscriptions in which nobody else
    writes, whatever the users answer.  In each turn the settings can be read at the start.  If
    there is an occasion — a completed addition or edit, a confirmed removal of something that is
    there, a toggle that changes the expansion state, or a request — and the file that it changes
    can be written, then the user is notified as the occasion has it: once of what was saved, and
    of nothing else.  After this, and last of all, every subscriber that is there by then is told
    once, in the order of the subscriptions, of the part that was changed and with the settings as
    they are then read, the change among them.  Without an occasion, or if that file cannot be
    written, nobody is told and the settings stay as they are; and nobody is told when somebody
    subscribes. -/
theorem refreshes_told (s : Session) (course : List Happening) (start : Settings)
    (hread : s.onDisk = .ok start)
    (halone : ∀ earlier t later, course = earlier ++ .takes t :: later →
      t.Alone (s.through earlier)) :
    (∀ earlier t later, course = earlier ++ .takes t :: later →
      let now := t.opening (s.through earlier)
      let after := t.run (s.through earlier)
      let listeners := s.subscribers ++ joined earlier
      ∃ here es, now.onDisk = .ok here ∧ after.events = now.events ++ es ∧
        (∀ part notes shows, Occasion now here t.action part notes shows → now.CanWrite t.action →
          ∃ there telling, telling.onDisk = .ok there ∧ shows there ∧
            after = ((Session.refresh part there).run telling).2 ∧ after.onDisk = .ok there ∧
            signals es = notes ++
              (List.range listeners.length).map fun n => .refreshed n part there) ∧
        ((∀ part notes shows, ¬ Occasion now here t.action part notes shows) ∨
            ¬ now.CanWrite t.action →
          (∀ e ∈ es, e.isRefresh = false) ∧ after.onDisk = .ok here)) ∧
    ∀ earlier subscriber later, course = earlier ++ .joins subscriber :: later →
      ((Happening.joins subscriber).run (s.through earlier)).events = (s.through earlier).events := by
  refine ⟨fun earlier t later hcourse => ?_, fun _ _ _ _ => rfl⟩
  intro now after listeners
  have hearlier : ∀ before u between, earlier = before ++ .takes u :: between →
      u.Alone (s.through before) := fun before u between h =>
    halone before u (between ++ .takes t :: later) (by rw [hcourse, h]; simp)
  obtain ⟨-, hlisteners, here, hhere⟩ := through_state earlier hread hearlier
  have hturn := halone earlier t later hcourse
  -- what is added to the events does not depend on whether there is an occasion
  have hevents : ∃ es, after.events = now.events ++ es := by
    rcases after_ends (s := now) hhere hturn.undisturbed hturn.yaml with
      ⟨⟨-, es, hes, -⟩, -⟩ | ⟨_, _, _, _, -, -, htells⟩
    · exact ⟨es, hes⟩
    · obtain ⟨-, es, hes, -⟩ := htells.sends
      exact ⟨es, hes⟩
  obtain ⟨es, hes⟩ := hevents
  refine ⟨here, es, hhere, hes, fun part notes shows hocc hwritable => ?_, fun hnone => ?_⟩
  · obtain ⟨there, hshows, htells⟩ := Occasion.told (s := now) hhere hturn.undisturbed.answers hocc
      hwritable hturn.yaml
    obtain ⟨-, fs, hfs, hsignals⟩ := htells.sends
    obtain rfl : es = fs := List.append_cancel_left (hes.symm.trans hfs)
    rw [deliveries, show now.subscribers = listeners from hlisteners] at hsignals
    have hafter := htells.onDisk
    obtain ⟨telling, -, htelling, hlast⟩ := htells
    exact ⟨there, telling, htelling, hshows, hlast, hafter, hsignals⟩
  · obtain ⟨⟨-, fs, hfs, hquiet⟩, honDisk⟩ :=
      quiet_unless_written (s := now) hhere hturn.undisturbed hnone
    obtain rfl : es = fs := List.append_cancel_left (hes.symm.trans hfs)
    exact ⟨hquiet, honDisk⟩

/-- A wish of the user changes nothing but what happened. -/
theorem OnlyAdds.refresh (part : Part) (s : Session) : OnlyAdds s (s.after (.refresh part)) :=
  (OnlyAdds.emit part s).trans (OnlyAdds.perform (.refresh part) s)

/-- A view asks for the variables, somebody else subscribes, and a variable is removed: both are
    told of what is left. -/
theorem refreshes_told_twice :
    let before : Settings := { vars := [{ name := "a" }, { name := "b" }] }
    let now : Settings := { vars := [{ name := "a" }] }
    let s : Session := { alone before [] with subscribers := [.variableView] }
    let request : Turn := { action := .refresh .vars }
    let removal : Turn := { action := .remove .vars "b", answers := [{ reply := .flag true }] }
    let earlier := [Happening.takes request] ++ [Happening.joins .observer]
    let course := earlier ++ [.takes removal]
    (s.onDisk = .ok before ∧
      ∀ earlier t later, course = earlier ++ .takes t :: later → t.Alone (s.through earlier)) ∧
    (removal.opening (s.through earlier)).CanWrite removal.action ∧
    ∃ es, (s.through course).events = (s.through earlier).events ++ es ∧
      signals es = [.refreshed 0 .vars now, .refreshed 1 .vars now] := by
  intro before now s request removal earlier course
  have hread : s.onDisk = .ok before := onDisk_alone [] rfl
  have hformat : Format.ofPath s.store.path = .json := format_meanwhile
  have hsubscribers : s.subscribers = [.variableView] := rfl
  have hwritable : s.files.Writable s.store.path := writable_alone before []
  -- nothing else matters of the session
  clear_value s
  have hrequested : OnlyAdds (request.opening s) (request.run s) := OnlyAdds.refresh .vars _
  have hstore : (s.through earlier).store = s.store := by
    rw [s.through_append [.takes request], Happening.joins_store, s.through_turn]
    exact hrequested.store_eq
  have hfiles : (s.through earlier).files = s.files := by
    rw [s.through_append [.takes request], Happening.joins_files, s.through_turn]
    exact hrequested.files_eq
  have hcanWrite : (removal.opening (s.through earlier)).CanWrite removal.action := by
    rintro path hpath
    rw [Turn.opening_files, hfiles, ← Option.some.inj hpath, Turn.opening_store, hstore]
    exact hwritable
  have hquiet : ∀ answer ∈ removal.answers, answer.outside = none := by decide
  have halone : ∀ earlier t later, course = earlier ++ .takes t :: later →
      t.Alone (s.through earlier) := by
    intro pre t later hcourse
    have hsplit : pre = [] ∧ t = request ∨ pre = earlier ∧ t = removal := by
      rcases pre with _ | ⟨x, _ | ⟨y, _ | ⟨z, rest⟩⟩⟩ <;> simp_all [course, earlier]
    rcases hsplit with ⟨rfl, rfl⟩ | ⟨rfl, rfl⟩
    · exact ⟨⟨nofun, nofun⟩, FileSystem.yamlReadsBack_of_json hformat _⟩
    · refine ⟨⟨hquiet, nofun⟩, ?_⟩
      rw [hstore]
      exact FileSystem.yamlReadsBack_of_json hformat _
  obtain ⟨hturns, -⟩ := refreshes_told s course before hread halone
  -- the request leaves the settings on disk, and so does the other subscriber
  have hmid : (s.through earlier).onDisk = .ok before := by
    rw [s.through_append [.takes request], Happening.joins_onDisk, s.through_turn]
    exact hrequested.onDisk_eq.trans hread
  obtain ⟨here, es, hhere, hes, hremoval, -⟩ := hturns earlier removal [] rfl
  rw [Turn.opening_onDisk] at hhere
  rw [Turn.opening_events] at hes
  rw [Except.ok.inj (hhere.symm.trans hmid)] at hremoval
  have hb : ∃ v ∈ before.vars, v.name = "b" := ⟨{ name := "b" }, by decide, rfl⟩
  obtain ⟨last, _, -, hlast, -, -, hsignals⟩ :=
    hremoval _ _ _ (.removed .vars "b" hb rfl rfl) hcanWrite
  have hleft : last = now := hlast.trans (by decide)
  rw [hleft, hsubscribers] at hsignals
  have hend : s.through course = removal.run (s.through earlier) :=
    s.through_append earlier (.takes removal)
  rw [hend]
  exact ⟨⟨hread, halone⟩, hcanWrite, es, hes, hsignals⟩

end CommandLauncher
