/-
  SESSIONS AT WORK — what a step does to a session, said once for each kind of step.

  1. **Attempts** — an attempt ends well or with a failure, in a session (`tryOn`).  One that is
     put together from two goes on with the second where the first ended well, and is over where
     it failed.

  2. **Adding** — most steps only write something down.  `Adds shown s s'` says that `s'` is `s`
     with more events, and that `shown` are those among the new ones that somebody can see: all
     but the entries of the log.  Adding composes by putting the lists in a row.

  3. **Answers** — `s.answered k` is the session after the user has given the next `k` answers,
     with everything that happened to the settings file before each of them.

  4. **The terminal** — a step is `Blind` when it does the same whatever the terminal is.
-/
import CommandLauncher.Launcher

namespace CommandLauncher

open Session

/-! ## Attempts -/

section Attempts

variable {ε α β : Type}

/-- How an attempt on a session ends, and the session afterwards. -/
def tryOn (x : ExceptT ε SessionM α) (s : Session) : Except ε α × Session := (x.run).run s

/-- A step that cannot fail. -/
theorem tryOn_lift (x : SessionM α) (s : Session) :
    tryOn (liftM x : ExceptT ε SessionM α) s = (.ok (x.run s).1, (x.run s).2) := rfl

theorem tryOn_bind (x : ExceptT ε SessionM α) (f : α → ExceptT ε SessionM β) (s : Session) :
    tryOn (x >>= f) s =
      match tryOn x s with
      | (.ok a, s') => tryOn (f a) s'
      | (.error e, s') => (.error e, s') := by
  show ((ExceptT.run (x >>= f)).run s) = _
  rw [ExceptT.run_bind]
  show (match ((ExceptT.run x).run s).1 with
    | .ok a => (f a).run
    | .error e => pure (.error e)).run ((ExceptT.run x).run s).2 = _
  cases h : tryOn x s with
  | mk r s' =>
    rw [show (ExceptT.run x).run s = (r, s') from h]
    cases r with
    | ok a => rfl
    | error e => rfl

theorem tryOn_bind_ok {x : ExceptT ε SessionM α} {s s' : Session} {a : α}
    (h : tryOn x s = (.ok a, s')) (f : α → ExceptT ε SessionM β) :
    tryOn (x >>= f) s = tryOn (f a) s' := by
  rw [tryOn_bind, h]

theorem tryOn_bind_error {x : ExceptT ε SessionM α} {s s' : Session} {e : ε}
    (h : tryOn x s = (.error e, s')) (f : α → ExceptT ε SessionM β) :
    tryOn (x >>= f) s = (.error e, s') := by
  rw [tryOn_bind, h]

theorem tryOn_bind_lift (x : SessionM α) (f : α → ExceptT ε SessionM β) (s : Session) :
    tryOn ((liftM x : ExceptT ε SessionM α) >>= f) s = tryOn (f (x.run s).1) (x.run s).2 :=
  tryOn_bind_ok (tryOn_lift x s) f

end Attempts

/-- One step after the other. -/
theorem Session.run_bind {α β : Type} (x : SessionM α) (f : α → SessionM β) (s : Session) :
    (x >>= f).run s = (f (x.run s).1).run (x.run s).2 := rfl

/-! ## Adding -/

/-- Whether an event is only an entry of the log. -/
def Event.isLogged : Event → Bool
  | .logged _ => true
  | _ => false

/-- What can be seen of some events. -/
def visible (es : List Event) : List Event := es.filter fun e => !e.isLogged

theorem visible_append (es fs : List Event) : visible (es ++ fs) = visible es ++ visible fs :=
  List.filter_append ..

/-- `Adds shown s s'` — nothing but events was added to `s`, and `shown` can be seen of them. -/
def Adds (shown : List Event) (s s' : Session) : Prop :=
  ∃ es, s' = { s with events := s.events ++ es } ∧ visible es = shown

namespace Adds

variable {shown more : List Event} {s s' s'' : Session}

theorem refl (s : Session) : Adds [] s s := ⟨[], by simp, rfl⟩

theorem trans (h : Adds shown s s') (h' : Adds more s' s'') : Adds (shown ++ more) s s'' := by
  obtain ⟨es, rfl, rfl⟩ := h
  obtain ⟨fs, rfl, rfl⟩ := h'
  exact ⟨es ++ fs, by simp, visible_append es fs⟩

/-- Silence before something. -/
theorem silent_trans (h : Adds [] s s') (h' : Adds more s' s'') : Adds more s s'' := h.trans h'

/-- Silence after something. -/
theorem trans_silent (h : Adds shown s s') (h' : Adds [] s' s'') : Adds shown s s'' := by
  simpa using h.trans h'

theorem record (es : List Event) (s : Session) : Adds (visible es) s ((record es).run s).2 :=
  ⟨es, rfl, rfl⟩

theorem log (level : Level) (topic : Topic) (message : String) (s : Session) :
    Adds [] s ((Session.log level topic message).run s).2 :=
  ⟨[.logged { level, topic, message }], rfl, rfl⟩

theorem notify (severity : Severity) (message : String) (s : Session) :
    Adds [.notified { severity, message }] s ((Session.notify severity message).run s).2 :=
  ⟨[.notified { severity, message }], rfl, rfl⟩

theorem files_eq (h : Adds shown s s') : s'.files = s.files := by
  obtain ⟨es, rfl, -⟩ := h
  rfl

theorem store_eq (h : Adds shown s s') : s'.store = s.store := by
  obtain ⟨es, rfl, -⟩ := h
  rfl

end Adds

/-- Nothing but events was added, whatever they are. -/
def OnlyAdds (s s' : Session) : Prop := ∃ shown, Adds shown s s'

namespace OnlyAdds

variable {s s' s'' : Session}

theorem refl (s : Session) : OnlyAdds s s := ⟨[], Adds.refl s⟩

theorem trans (h : OnlyAdds s s') (h' : OnlyAdds s' s'') : OnlyAdds s s'' := by
  obtain ⟨shown, h⟩ := h
  obtain ⟨more, h'⟩ := h'
  exact ⟨shown ++ more, h.trans h'⟩

theorem record (es : List Event) (s : Session) : OnlyAdds s ((Session.record es).run s).2 :=
  ⟨_, Adds.record es s⟩

theorem files_eq (h : OnlyAdds s s') : s'.files = s.files := by
  obtain ⟨shown, h⟩ := h
  exact h.files_eq

theorem store_eq (h : OnlyAdds s s') : s'.store = s.store := by
  obtain ⟨shown, h⟩ := h
  exact h.store_eq

end OnlyAdds

/-- Whether an event tells the user of a failure. -/
def Event.isFailure : Event → Bool
  | .notified n => n.severity = .error
  | _ => false

/-- Nothing but events was added, and none of them tells of a failure. -/
def Calm (s s' : Session) : Prop := ∃ shown, Adds shown s s' ∧ ∀ e ∈ shown, e.isFailure = false

namespace Calm

variable {s s' s'' : Session}

theorem of_silent (h : Adds [] s s') : Calm s s' := ⟨[], h, nofun⟩

theorem refl (s : Session) : Calm s s := of_silent (Adds.refl s)

theorem trans (h : Calm s s') (h' : Calm s' s'') : Calm s s'' := by
  obtain ⟨shown, h, hshown⟩ := h
  obtain ⟨more, h', hmore⟩ := h'
  exact ⟨shown ++ more, h.trans h', List.forall_mem_append.mpr ⟨hshown, hmore⟩⟩

theorem record {es : List Event} (h : ∀ e ∈ es, e.isFailure = false) (s : Session) :
    Calm s ((Session.record es).run s).2 :=
  ⟨_, Adds.record es s, fun e he => h e (List.mem_filter.mp he).1⟩

theorem onlyAdds (h : Calm s s') : OnlyAdds s s' := by
  obtain ⟨shown, h, -⟩ := h
  exact ⟨shown, h⟩

end Calm

/-- What the remarks on a document leave in the log cannot be seen. -/
theorem visible_remarks (remarks : List Settings.Remark) :
    visible (remarks.map fun r => .logged { level := .warn, topic := .settings, message := r.message }) =
      [] := by
  refine List.filter_eq_nil_iff.mpr fun e he => ?_
  obtain ⟨r, -, rfl⟩ := List.mem_map.mp he
  simp [Event.isLogged]

/-- The settings as they are on disk. -/
def Session.onDisk (s : Session) : Except SettingsError Settings := (s.store.read s.files).1

theorem readSettings_fst (s : Session) : (readSettings.run s).1 = s.onDisk := rfl

theorem Adds.readSettings (s : Session) : Adds [] s (readSettings.run s).2 :=
  ⟨_, rfl, visible_remarks _⟩

/-- What is on disk is a matter of the store and the files. -/
theorem Session.onDisk_congr {s s' : Session} (hstore : s'.store = s.store)
    (hfiles : s'.files = s.files) : s'.onDisk = s.onDisk := by
  rw [onDisk, onDisk, hstore, hfiles]

theorem Adds.onDisk_eq {shown : List Event} {s s' : Session} (h : Adds shown s s') :
    s'.onDisk = s.onDisk :=
  onDisk_congr h.store_eq h.files_eq

theorem OnlyAdds.onDisk_eq {s s' : Session} (h : OnlyAdds s s') : s'.onDisk = s.onDisk := by
  obtain ⟨shown, h⟩ := h
  exact h.onDisk_eq

theorem tryOn_readSettings_ok {s : Session} {settings : Settings} (h : s.onDisk = .ok settings) :
    tryOn Attempt.readSettings s = (.ok settings, (Session.readSettings.run s).2) := by
  rw [Attempt.readSettings, Attempt.onSettings, tryOn_bind_lift, readSettings_fst, h]
  rfl

theorem tryOn_readSettings_error {s : Session} {e : SettingsError} (h : s.onDisk = .error e) :
    tryOn Attempt.readSettings s = (.error (.settings e), (Session.readSettings.run s).2) := by
  rw [Attempt.readSettings, Attempt.onSettings, tryOn_bind_lift, readSettings_fst, h]
  rfl

/-- The user is told of a failure, once. -/
theorem Adds.report (f : Failure) (s : Session) :
    Adds [.notified { severity := .error, message := f.message }] s ((report f).run s).2 :=
  (Adds.log .debug .launcher ("Action failed: " ++ f.anatomy) s).silent_trans
    (Adds.notify .error f.message _)

theorem perform_of_ok {a : Action} {s s' : Session} (h : tryOn a.attempt s = (.ok (), s')) :
    (perform a).run s = ((), s') := by
  rw [perform, Session.run_bind, show a.attempt.run.run s = (.ok (), s') from h]
  rfl

theorem perform_of_error {a : Action} {s s' : Session} {f : Failure}
    (h : tryOn a.attempt s = (.error f, s')) :
    (perform a).run s = (report f).run s' := by
  rw [perform, Session.run_bind, show a.attempt.run.run s = (.error f, s') from h]

/-- The session after an action. -/
def Session.after (s : Session) (a : Action) : Session := ((perform a).run s).2

/-- After an attempt there is at most a report. -/
theorem OnlyAdds.perform (a : Action) (s : Session) :
    OnlyAdds (tryOn a.attempt s).2 ((CommandLauncher.perform a).run s).2 := by
  cases h : tryOn a.attempt s with
  | mk r s' =>
    cases r with
    | ok _ =>
      rw [perform_of_ok h]
      exact OnlyAdds.refl s'
    | error f =>
      rw [perform_of_error h]
      exact ⟨_, Adds.report f s'⟩

/-! ## Answers -/

namespace Session

/-- The session after the user has given the next `k` answers, as far as there are so many. -/
def answered (k : Nat) (s : Session) : Session :=
  { s with
    answers := s.answers.drop k
    files := (s.answers.take k).foldl (fun fs a => a.files s.store.path fs) s.files }

theorem answered_answered (j k : Nat) (s : Session) :
    (s.answered j).answered k = s.answered (j + k) := by
  simp [answered, List.take_add, List.foldl_append]

/-- The next reply; a user who has none left cancels. -/
def reply (s : Session) : Reply := (s.answers.head?.map Answer.reply).getD .cancel

theorem nextReply_run (s : Session) : nextReply.run s = (s.reply, s.answered 1) := by
  obtain ⟨store, files, environment, attended, answers, terminal, subscribers, events⟩ := s
  cases answers with
  | nil => rfl
  | cons a rest =>
    show (a.reply, _) = (_, answered 1 _)
    simp only [reply, answered, List.head?_cons, Option.map_some, Option.getD_some,
      List.drop_succ_cons, List.drop_zero, List.take_succ_cons, List.take_zero, List.foldl_cons,
      List.foldl_nil]

end Session

theorem Adds.answered {shown : List Event} {s s' : Session} (h : Adds shown s s') (k : Nat) :
    Adds shown (s.answered k) (s'.answered k) := by
  obtain ⟨es, rfl, rfl⟩ := h
  exact ⟨es, rfl, rfl⟩

/-! ## Asking -/

namespace Session

/-- Questions as they are put to the user, if there is one. -/
def asked (s : Session) (qs : List Question) : List Event :=
  if s.attended then qs.map fun q => .asked q [] else []

/-- How many answers `n` questions take; without a user they take none. -/
def taken (s : Session) (n : Nat) : Nat := if s.attended then n else 0

theorem askOnce_of_attended {α : Type} (q : Question) (read : Reply → Option α) {s : Session}
    (h : s.attended = true) :
    (askOnce q read).run s = (read s.reply, ((record [.asked q []]).run (s.answered 1)).2) := by
  have hrun : (askOnce q read).run s =
      (if !s.attended then (unanswered : SessionM (Option α)) else do
        let reply ← nextReply
        record [.asked q []]
        return read reply).run s := rfl
  rw [hrun, h]
  show (read (nextReply.run s).1, ((record [.asked q []]).run (nextReply.run s).2).2) = _
  rw [nextReply_run]

theorem askOnce_of_unattended {α : Type} (q : Question) (read : Reply → Option α) {s : Session}
    (h : s.attended = false) :
    (askOnce q read).run s = (none, ((log .debug .prompt unattendedNote).run s).2) := by
  have hrun : (askOnce q read).run s =
      (if !s.attended then (unanswered : SessionM (Option α)) else do
        let reply ← nextReply
        record [.asked q []]
        return read reply).run s := rfl
  rw [hrun, h]
  rfl

/-- What a question is answered with. -/
theorem askOnce_fst {α : Type} (q : Question) (read : Reply → Option α) (s : Session) :
    ((askOnce q read).run s).1 = if s.attended then read s.reply else none := by
  cases h : s.attended with
  | true => rw [askOnce_of_attended q read h]; rfl
  | false => rw [askOnce_of_unattended q read h]; rfl

end Session

/-- `Asks qs s s'` — from `s` on just these questions were put to the user, if there is one, and
    one answer was taken for each. -/
def Asks (qs : List Question) (s s' : Session) : Prop :=
  Adds (s.asked qs) (s.answered (s.taken qs.length)) s'

/-! ### What a session keeps when events are added -/

section Keeping

variable {shown : List Event} {s s' : Session}

theorem Adds.asked_eq (h : Adds shown s s') (qs : List Question) : s'.asked qs = s.asked qs := by
  obtain ⟨es, rfl, -⟩ := h
  rfl

theorem Adds.taken_eq (h : Adds shown s s') (n : Nat) : s'.taken n = s.taken n := by
  obtain ⟨es, rfl, -⟩ := h
  rfl

end Keeping

namespace Session

theorem asked_append (s : Session) (qs rs : List Question) :
    s.asked (qs ++ rs) = s.asked qs ++ s.asked rs := by
  cases h : s.attended <;> simp [asked, h]

theorem taken_add (s : Session) (m n : Nat) : s.taken (m + n) = s.taken m + s.taken n := by
  cases h : s.attended <;> simp [taken, h]

end Session

namespace Asks

variable {qs rs : List Question} {s s' s'' : Session}

/-- What cannot be seen asks nothing. -/
theorem of_silent (h : Adds [] s s') : Asks [] s s' := by
  have hnothing : s.asked [] = [] ∧ s.taken 0 = 0 := by
    cases h : s.attended <;> simp [asked, taken, h]
  rw [Asks, hnothing.1, List.length_nil, hnothing.2]
  exact h

theorem trans (h : Asks qs s s') (h' : Asks rs s' s'') : Asks (qs ++ rs) s s'' := by
  rw [Asks] at h h' ⊢
  rw [h.asked_eq, h.taken_eq] at h'
  have hboth := (h.answered (s.taken rs.length)).trans h'
  rw [answered_answered, ← taken_add, ← List.length_append] at hboth
  rw [asked_append]
  exact hboth

theorem trans_silent (h : Asks qs s s') (h' : Adds [] s' s'') : Asks qs s s'' :=
  Adds.trans_silent h h'

theorem terminal_eq (h : Asks qs s s') : s'.terminal = s.terminal := by
  obtain ⟨es, rfl, -⟩ := h
  rfl

/-- A question that takes one answer. -/
theorem askOnce {α : Type} (q : Question) (read : Reply → Option α) (s : Session) :
    Asks [q] s ((Session.askOnce q read).run s).2 := by
  rw [Asks]
  cases h : s.attended with
  | true =>
    rw [askOnce_of_attended q read h, asked, taken, h]
    exact Adds.record [.asked q []] (s.answered 1)
  | false =>
    rw [askOnce_of_unattended q read h, asked, taken, h]
    exact Adds.log .debug .prompt unattendedNote s

end Asks

/-! ## The terminal -/

/-- The session with another terminal. -/
def Session.withTerminal (t : Terminal) (s : Session) : Session := { s with terminal := t }

/-- A step that does the same, and comes to the same, whatever the terminal is. -/
def Blind {α : Type} (x : SessionM α) : Prop :=
  ∀ (t : Terminal) (s : Session),
    x.run (s.withTerminal t) = ((x.run s).1, (x.run s).2.withTerminal t)

namespace Blind

variable {α β : Type}

theorem pure (a : α) : Blind (Pure.pure a : SessionM α) := fun _ _ => rfl

theorem bind {x : SessionM α} {f : α → SessionM β} (hx : Blind x) (hf : ∀ a, Blind (f a)) :
    Blind (x >>= f) := by
  intro t s
  rw [run_bind, run_bind, hx t s, hf]

theorem record (es : List Event) : Blind (Session.record es) := fun _ _ => rfl

theorem readSettings : Blind Session.readSettings := fun _ _ => rfl

theorem report (f : Failure) : Blind (CommandLauncher.report f) := fun _ _ => rfl

theorem askOnce (q : Question) (read : Reply → Option α) : Blind (Session.askOnce q read) := by
  intro t s
  cases h : s.attended with
  | true =>
    have h' : (s.withTerminal t).attended = true := h
    rw [askOnce_of_attended q read h, askOnce_of_attended q read h']
    rfl
  | false =>
    have h' : (s.withTerminal t).attended = false := h
    rw [askOnce_of_unattended q read h, askOnce_of_unattended q read h']
    rfl

end Blind

end CommandLauncher
