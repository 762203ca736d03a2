/-
  HISTORIES — what can come into a settings file over any number of actions.

  1. **Steps** — an action leaves the settings on disk as they are, puts an entry from a completed
     form in its place, takes out the entries of a key, or empties them (`Moves`).  It does
     nothing else to settings that nobody else writes, and it never makes them unreadable
     (`after_moves`), whether or not its writes succeed.

  2. **What a step keeps** — nothing is in a list but what was there before and well-formed
     entries that were entered, and distinct keys stay distinct (`Keeps`).

  3. **Histories** — a history is a list of turns: actions with those who are there to answer.  By
     induction on it the settings can be read after all of it, and the lists hold nothing else
     than what was there at the start and what was entered in one of its turns
     (`settings_kept`).
-/
import CommandLauncher.Proofs.Reporting
import CommandLauncher.Proofs.StateFile

namespace CommandLauncher

open Session

/-! ## Steps -/

/-- Nobody but the launcher writes the settings file during an action: no answer comes with a
    change from outside, and what is run in a shell leaves the file alone. -/
structure Undisturbed (s : Session) (a : Action) : Prop where
  answers : ∀ answer ∈ s.answers, answer.outside = none
  shell : s.terminal = .shell → ∀ start : Start, a = start.action →
    (s.after a).files.read s.store.path = s.files.read s.store.path

/-- The form of an addition or an edit was completed with an entry. -/
def Enters (s : Session) (a : Action) (p : Part) (entry : p.Entry) : Prop :=
  ∃ edited before start s₁, a = (Update.mk p edited).action ∧ s.onDisk = .ok before ∧
    (Update.mk p edited).initial? before = some start ∧
    tryOn (p.form start) (readSettings.run s).2 = (.ok entry, s₁)

/-- What an action can make of the settings on disk. -/
inductive Moves (s : Session) (a : Action) (before : Settings) : Settings → Prop where
  | kept : Moves s a before before
  | placed (p : Part) (target : String) (entry : p.Entry) (entries : List p.Entry)
      (hentered : Enters s a p entry)
      (hplaced : Placed p.catalog.key target entry (p.catalog.entries before) entries)
      (htarget : (∃ e ∈ p.catalog.entries before, p.catalog.key e = target) ∨
        target = p.catalog.key entry) :
      Moves s a before (p.catalog.replace entries before)
  | takenOut (p : Part) (key : String) (haction : a = .remove p key) :
      Moves s a before
        (p.catalog.replace (without p.catalog.key key (p.catalog.entries before)) before)
  | emptied (hgroups : a.IsAboutGroups) : Moves s a before {}

/-- An action leads to settings on disk, in the same file. -/
def Leads (s : Session) (a : Action) (before : Settings) : Prop :=
  (s.after a).store = s.store ∧ ∃ now, Moves s a before now ∧ (s.after a).onDisk = .ok now

/-- Answers without changes from outside leave all files. -/
theorem Session.files_answered {s : Session} (hquiet : ∀ answer ∈ s.answers, answer.outside = none)
    (k : Nat) : (s.answered k).files = s.files := by
  have hfold : ∀ (answers : List Answer) (fs : FileSystem),
      (∀ answer ∈ answers, answer.outside = none) →
        answers.foldl (fun fs a => a.files s.store.path fs) fs = fs := by
    intro answers
    induction answers with
    | nil => exact fun _ _ => rfl
    | cons a rest ih =>
      intro fs hnone
      obtain ⟨ha, hrest⟩ := List.forall_mem_cons.mp hnone
      rw [List.foldl_cons, Answer.files, ha]
      exact ih fs hrest
  exact hfold (s.answers.take k) s.files fun answer h => hquiet answer (List.mem_of_mem_take h)

theorem Heard.files_eq {shown : List Event} {s s' : Session} (h : Heard shown s s')
    (hquiet : ∀ answer ∈ s.answers, answer.outside = none) : s'.files = s.files := by
  obtain ⟨k, hadds⟩ := h
  exact hadds.files_eq.trans (files_answered hquiet k)

theorem Heard.onDisk_eq {shown : List Event} {s s' : Session} (h : Heard shown s s')
    (hquiet : ∀ answer ∈ s.answers, answer.outside = none) : s'.onDisk = s.onDisk :=
  onDisk_congr h.store_eq (h.files_eq hquiet)

/-- An entry that is edited is there when its form is opened. -/
theorem Update.exists_edited {u : Update} {settings : Settings} {start : Option u.part.Entry}
    (hopen : u.initial? settings = some start) {key : String} (hedited : u.edited = some key) :
    ∃ e ∈ u.part.catalog.entries settings, u.part.catalog.key e = key := by
  rw [initial?, hedited] at hopen
  obtain ⟨old, hfind, -⟩ := Option.map_eq_some_iff.mp hopen
  exact ⟨old, List.mem_of_find?_eq_some hfind, by simpa using List.find?_some hfind⟩

/-- So nothing is gone when a form is opened. -/
theorem Update.not_isGone {u : Update} {settings : Settings} {start : Option u.part.Entry}
    (hopen : u.initial? settings = some start) : ¬ u.IsGone settings := by
  rintro ⟨key, hedited, hgone⟩
  obtain ⟨e, he, hkey⟩ := exists_edited hopen hedited
  exact hgone e he hkey

section Steps

variable {s : Session} {a : Action} {before : Settings} (hread : s.onDisk = .ok before)
  (hquiet : ∀ answer ∈ s.answers, answer.outside = none)

include hread

theorem leads_of_same (hstore : (s.after a).store = s.store) (h : (s.after a).onDisk = s.onDisk) :
    Leads s a before :=
  ⟨hstore, before, .kept, h.trans hread⟩

theorem leads_of_onlyAdds (h : OnlyAdds s (s.after a)) : Leads s a before :=
  leads_of_same hread h.store_eq h.onDisk_eq

include hquiet

theorem leads_of_heard {shown : List Event} (h : Heard shown s (s.after a)) : Leads s a before :=
  leads_of_same hread h.store_eq (h.onDisk_eq hquiet)

/-- What an addition or an edit leads to. -/
theorem update_leads (u : Update) (hyaml : (s.after u.action).files.YamlReadsBack s.store.path) :
    Leads s u.action before := by
  cases u.course hread with
  | stopped shown s' hheard hasked hattempt =>
    have hafter : s.after u.action = s' := by rw [after, perform_of_ok hattempt]
    exact leads_of_heard hread hquiet (hafter ▸ hheard)
  | completed shown start entry s₁ hopen hform hheard hasked hattempt =>
    -- nobody has taken the edited entry away since its form was opened
    have hnow : s₁.onDisk = .ok before := (hheard.onDisk_eq hquiet).trans hread
    have hthere := Update.not_isGone hopen
    rcases s₁.files.writable_or s.store.path with hwritable | ⟨cause, hrefused⟩
    swap
    · exact leads_of_heard hread hquiet (update_unwritable hread hopen hform hnow hthere hrefused)
    obtain ⟨hstore, -, entries, hplaced, htext, honDisk⟩ :=
      Update.saved hread hopen hform hnow hthere hwritable
    refine ⟨hstore, _, ?_, honDisk fun hformat => hformat ▸ hyaml.settings htext⟩
    refine .placed u.part (u.target entry) entry entries ?_ hplaced ?_
    · exact ⟨u.edited, before, start, s₁, rfl, hread, hopen, hform⟩
    · rw [Update.target]
      cases hedited : u.edited with
      | none => exact .inr rfl
      | some key => exact .inl (Update.exists_edited hopen hedited)

/-- What a removal leads to. -/
theorem remove_leads (p : Part) (key : String)
    (hyaml : (s.after (.remove p key)).files.YamlReadsBack s.store.path) :
    Leads s (.remove p key) before := by
  by_cases hthere : ∃ e ∈ p.catalog.entries before, p.catalog.key e = key
  · by_cases hconfirmed : s.attended = true ∧ s.reply = .flag true
    · have hsame : (s.answered 1).onDisk = s.onDisk := onDisk_congr rfl (files_answered hquiet 1)
      have hnow : (s.answered 1).onDisk = .ok before := hsame.trans hread
      rcases (s.answered 1).files.writable_or s.store.path with hwritable | ⟨cause, hrefused⟩
      · obtain ⟨hstore, htext, honDisk⟩ :=
          removed hread hthere hconfirmed.1 hconfirmed.2 hnow hwritable
        exact ⟨hstore, _, .takenOut p key rfl, honDisk (hyaml.settings htext)⟩
      · exact leads_of_heard hread hquiet
          (remove_unwritable hread hthere hconfirmed hnow hrefused)
    · exact leads_of_heard hread hquiet (Heard.of_asks (remove_refused hread hthere hconfirmed))
  · have habsent : ∀ e ∈ p.catalog.entries before, p.catalog.key e ≠ key := by
      simpa using hthere
    exact leads_of_onlyAdds hread ⟨_, (absent_silent hread habsent).2⟩

omit hquiet

/-- What a refresh leads to. -/
theorem refresh_leads (p : Part) : Leads s (.refresh p) before :=
  leads_of_onlyAdds hread ((OnlyAdds.emit p s).trans (OnlyAdds.perform (.refresh p) s))

/-- What opening or closing a group leads to. -/
theorem change_leads (hgroups : a.IsAboutGroups) {change : Expansion → Expansion}
    (hattempt : a.attempt = Attempt.changeExpansion change) : Leads s a before := by
  obtain ⟨hstore, honDisk⟩ := changeExpansion_onDisk change hread
  have hafter := OnlyAdds.perform a s
  rw [hattempt] at hafter
  refine ⟨hafter.store_eq.trans hstore, ?_⟩
  rcases honDisk with hkept | hemptied
  · exact ⟨before, .kept, hafter.onDisk_eq.trans hkept⟩
  · exact ⟨{}, .emptied hgroups, hafter.onDisk_eq.trans hemptied⟩

end Steps

/-! ### Runs -/

/-- Sending changes nothing but files, and it changes none unless a shell is run. -/
theorem send_store (t : ActiveTerminal) (text : String) (enter : Bool) (s : Session) :
    ((send t text enter).run s).2.store = s.store := by
  cases t with
  | ready => rfl
  | failing e => rfl
  | shell program directory =>
    cases enter with
    | false => rfl
    | true =>
      show ((runShell program directory text).run s).2.store = s.store
      rw [runShell_run]
      dsimp only
      cases Shell.start s.files s.environment program directory text with
      | error e => rfl
      | ok run => exact (Adds.noteStatus text run.status _).store_eq

/-- A delivery leaves the store, and all files unless a shell is run. -/
theorem Delivered.leaves {text : String} {enter : Bool} {s s' : Session}
    (h : Delivered text enter s s') :
    s'.store = s.store ∧ (s.terminal ≠ .shell → s'.files = s.files) := by
  constructor
  · have hsilent := Adds.activeTerminal s
    have hsend : ∀ t s₁, ((send t text enter).run ((showTerminal t).run s₁).2).2.store = s₁.store :=
      fun t s₁ => (send_store t text enter _).trans (Calm.showTerminal t s₁).onlyAdds.store_eq
    cases h with
    | absent s₁ hactive htold =>
      rw [hactive] at hsilent
      exact htold.store_eq.trans hsilent.store_eq
    | sent t s₁ hactive hsent =>
      rw [hactive] at hsilent
      have hstore := hsend t s₁
      rw [hsent] at hstore
      exact hstore.trans hsilent.store_eq
    | refused t s₁ s₂ e hactive hrefused htold =>
      rw [hactive] at hsilent
      have hstore := hsend t s₁
      rw [hrefused] at hstore
      exact htold.store_eq.trans (hstore.trans hsilent.store_eq)
  · intro hshell
    have hseen : ∃ es, s.terminal.deliveryEvents? text enter = some es := by
      cases ht : s.terminal with
      | shell => exact absurd ht hshell
      | _ => exact ⟨_, rfl⟩
    obtain ⟨es, hes⟩ := hseen
    exact (h.adds hes).files_eq

/-- A run leaves the store, and all files unless a shell is run. -/
theorem Start.run_leaves (start : Start) {s : Session}
    (hquiet : ∀ answer ∈ s.answers, answer.outside = none) :
    (start.run s).store = s.store ∧ (s.terminal ≠ .shell → (start.run s).files = s.files) := by
  obtain ⟨qs, s₁, hasked, hend⟩ := start.run_cases s
  have hheard := Heard.of_asks hasked
  have hleaves : (start.run s).store = s₁.store ∧
      (s₁.terminal ≠ .shell → (start.run s).files = s₁.files) := by
    rcases hend with ⟨messages, hinformed⟩ | ⟨message, hfailed⟩ | ⟨text, enter, hdelivered⟩
    · exact ⟨hinformed.store_eq, fun _ => hinformed.files_eq⟩
    · exact ⟨hfailed.store_eq, fun _ => hfailed.files_eq⟩
    · exact hdelivered.leaves
  refine ⟨hleaves.1.trans hheard.store_eq, fun hshell => ?_⟩
  exact (hleaves.2 (hasked.terminal_eq ▸ hshell)).trans (hheard.files_eq hquiet)

/-- A run leaves the settings on disk. -/
theorem Start.run_onDisk (start : Start) {s : Session} (h : Undisturbed s start.action) :
    (start.run s).onDisk = s.onDisk := by
  obtain ⟨hstore, hfiles⟩ := start.run_leaves h.answers
  refine onDisk_of_read hstore ?_
  by_cases hshell : s.terminal = .shell
  · exact h.shell hshell start rfl
  · exact congrArg (·.read s.store.path) (hfiles hshell)

/-- What a run leads to. -/
theorem run_leads (start : Start) {s : Session} {before : Settings} (hread : s.onDisk = .ok before)
    (h : Undisturbed s start.action) : Leads s start.action before :=
  leads_of_same hread (start.run_leaves h.answers).1 (start.run_onDisk h)

/-- **No action makes settings unreadable** that nobody else writes; what it can make of them are
    moves. -/
theorem after_moves {s : Session} {a : Action} {before : Settings} (hread : s.onDisk = .ok before)
    (h : Undisturbed s a) (hyaml : (s.after a).files.YamlReadsBack s.store.path) :
    Leads s a before := by
  cases a with
  | add p => exact update_leads hread h.answers ⟨p, none⟩ hyaml
  | edit p key => exact update_leads hread h.answers ⟨p, some key⟩ hyaml
  | remove p key => exact remove_leads hread h.answers p key hyaml
  | run c =>
    cases c with
    | some c => exact run_leads (.given c) hread h
    | none => exact run_leads .picker hread h
  | runTitled title => exact run_leads (.titled title) hread h
  | expand path => exact change_leads hread trivial rfl
  | collapse path => exact change_leads hread trivial rfl
  | refresh p => exact refresh_leads hread p

/-! ## What a step keeps -/

/-- From one to the other, nothing came into a part of the settings but well-formed entries that
    were entered, and distinct keys stayed distinct. -/
structure Keeps (p : Part) (before now : Settings) (entered : p.Entry → Prop) : Prop where
  distinct : Distinct p.catalog.key (p.catalog.entries before) →
    Distinct p.catalog.key (p.catalog.entries now)
  entries : ∀ e ∈ p.catalog.entries now,
    e ∈ p.catalog.entries before ∨ Part.WellFormed e ∧ entered e

namespace Keeps

variable {p : Part} {before now later : Settings} {entered more : p.Entry → Prop}

theorem refl (p : Part) (before : Settings) (entered : p.Entry → Prop) :
    Keeps p before before entered :=
  ⟨id, fun _ he => .inl he⟩

theorem trans (h : Keeps p before now entered) (h' : Keeps p now later more) :
    Keeps p before later fun e => entered e ∨ more e := by
  refine ⟨fun hdistinct => h'.distinct (h.distinct hdistinct), fun e he => ?_⟩
  rcases h'.entries e he with he | ⟨hwellFormed, hentered⟩
  · rcases h.entries e he with he | ⟨hwellFormed, hentered⟩
    · exact .inl he
    · exact .inr ⟨hwellFormed, .inl hentered⟩
  · exact .inr ⟨hwellFormed, .inr hentered⟩

theorem weaken (h : Keeps p before now entered) (hmore : ∀ e, entered e → more e) :
    Keeps p before now more :=
  ⟨h.distinct, fun e he => (h.entries e he).imp_right fun ⟨hwellFormed, hentered⟩ =>
    ⟨hwellFormed, hmore e hentered⟩⟩

/-- It is enough to look at the part of which the entries are replaced. -/
theorem replace (entered : (p : Part) → p.Entry → Prop) {q : Part} {entries : List q.Entry}
    (hdistinct : Distinct q.catalog.key (q.catalog.entries before) → Distinct q.catalog.key entries)
    (hentries : ∀ e ∈ entries, e ∈ q.catalog.entries before ∨ Part.WellFormed e ∧ entered q e)
    (p : Part) : Keeps p before (q.catalog.replace entries before) (entered p) := by
  by_cases hp : p = q
  · subst hp
    refine ⟨?_, ?_⟩
    · rwa [p.entries_replace]
    · rwa [p.entries_replace]
  · refine ⟨?_, ?_⟩
    · rw [Part.entries_replace_ne hp]
      exact id
    · rw [Part.entries_replace_ne hp]
      exact fun _ he => .inl he

end Keeps

/-- What a form was completed with is well-formed. -/
theorem Enters.wellFormed {s : Session} {a : Action} {p : Part} {entry : p.Entry}
    (h : Enters s a p entry) : Part.WellFormed entry := by
  obtain ⟨edited, before, start, s₁, -, -, -, hform⟩ := h
  obtain ⟨-, hgives⟩ := p.gives_form start (readSettings.run s).2
  rw [hform] at hgives
  exact (hgives entry rfl).1

/-- A move keeps the settings. -/
theorem Moves.keeps {s : Session} {a : Action} {before now : Settings} (h : Moves s a before now)
    (p : Part) : Keeps p before now (Enters s a p) := by
  cases h with
  | kept => exact Keeps.refl p before _
  | placed q target entry entries hentered hplaced htarget =>
    refine Keeps.replace (Enters s a) (fun hdistinct => ?_) (fun e he => ?_) p
    · exact hdistinct.placed hplaced htarget
    · rcases hplaced.mem he with he | rfl
      · exact .inl he
      · exact .inr ⟨hentered.wellFormed, hentered⟩
  | takenOut q key haction =>
    refine Keeps.replace (Enters s a) (fun hdistinct => ?_) (fun e he => ?_) p
    · exact hdistinct.without key
    · exact .inl (List.mem_filter.mp he).1
  | emptied hgroups =>
    have hnone : p.catalog.entries {} = [] := by cases p <;> rfl
    refine ⟨?_, ?_⟩
    · rw [hnone]
      exact fun _ => List.nodup_nil
    · rw [hnone]
      exact nofun

/-! ## Histories -/

/-- An action, and who is there when it is asked for. -/
structure Turn where
  action : Action
  attended : Bool := true
  answers : List Answer := []
  terminal : Terminal := .ready

namespace Turn

/-- The session in which a turn is taken. -/
def opening (t : Turn) (s : Session) : Session :=
  { s with attended := t.attended, answers := t.answers, terminal := t.terminal }

/-- The session after a turn. -/
def run (t : Turn) (s : Session) : Session := (t.opening s).after t.action

end Turn

namespace Session

/-- The session after some turns. -/
def afterAll (s : Session) (turns : List Turn) : Session := turns.foldl (fun s t => t.run s) s

/-- One of the turns is taken, in the session that the others before it led to. -/
inductive Takes : Session → List Turn → Session → Turn → Prop where
  | now (s : Session) (t : Turn) (rest : List Turn) : Takes s (t :: rest) s t
  | later {s s' : Session} {t t' : Turn} {rest : List Turn} (h : Takes (t.run s) rest s' t') :
      Takes s (t :: rest) s' t'

/-- More turns do not matter to the first ones. -/
theorem Takes.append {s s' : Session} {turns : List Turn} {t : Turn} (h : s.Takes turns s' t)
    (more : List Turn) : s.Takes (turns ++ more) s' t := by
  induction h with
  | now s t rest => exact .now s t (rest ++ more)
  | later _ ih => exact .later ih

theorem Takes.mem {s s' : Session} {turns : List Turn} {t : Turn} (h : s.Takes turns s' t) :
    t ∈ turns := by
  induction h with
  | now s t rest => exact List.mem_cons_self
  | later _ ih => exact List.mem_cons_of_mem _ ih

end Session

/-- An entry was entered in one of the turns. -/
def Entered (s : Session) (turns : List Turn) (p : Part) (entry : p.Entry) : Prop :=
  ∃ s' t, s.Takes turns s' t ∧ Enters (t.opening s') t.action p entry

/-- A history leads to settings on disk that keep those from its start. -/
theorem afterAll_keeps (turns : List Turn) : ∀ {s : Session} {before : Settings},
    s.onDisk = .ok before →
    (∀ s' t, s.Takes turns s' t → Undisturbed (t.opening s') t.action) →
    (∀ s' t, s.Takes turns s' t → (t.run s').files.YamlReadsBack s.store.path) →
    ∃ now, (s.afterAll turns).onDisk = .ok now ∧
      ∀ p : Part, Keeps p before now (Entered s turns p) := by
  induction turns with
  | nil =>
    intro s before hread _ _
    exact ⟨before, hread, fun p => Keeps.refl p before _⟩
  | cons t rest ih =>
    intro s before hread hundisturbed hyaml
    have hopening : (t.opening s).onDisk = .ok before := hread
    obtain ⟨hstore, middle, hmoves, hmiddle⟩ := after_moves hopening
      (hundisturbed s t (.now s t rest)) (hyaml s t (.now s t rest))
    have hsame : (t.run s).store = s.store := hstore
    obtain ⟨now, hnow, hkeeps⟩ := ih hmiddle (fun s' t' h => hundisturbed s' t' (.later h))
      (fun s' t' h => hsame ▸ hyaml s' t' (.later h))
    refine ⟨now, hnow, fun p => ((hmoves.keeps p).trans (hkeeps p)).weaken ?_⟩
    rintro e (hentered | ⟨s', t', htakes, hentered⟩)
    · exact ⟨s, t, .now s t rest, hentered⟩
    · exact ⟨s', t', .later htakes, hentered⟩

/-- **Settings are kept over every history** in which nobody else writes them, whatever the users
    answer.  After each of its turns the settings can still be read.  Then each list holds nothing
    but entries that were in it at the start and well-formed ones that were entered in a turn; and
    if no two of its keys were the same at the start, no two are.  What is printed as YAML has to
    be read back for this. -/
theorem settings_kept (s : Session) (turns : List Turn) (before : Settings)
    (hread : s.onDisk = .ok before)
    (hundisturbed : ∀ s' t, s.Takes turns s' t → Undisturbed (t.opening s') t.action)
    (hyaml : ∀ s' t, s.Takes turns s' t → (t.run s').files.YamlReadsBack s.store.path) :
    ∀ taken, taken <+: turns → ∃ now, (s.afterAll taken).onDisk = .ok now ∧
      ∀ p : Part, Keeps p before now (Entered s taken p) := by
  rintro taken ⟨rest, rfl⟩
  refine afterAll_keeps taken hread (fun s' t h => ?_) (fun s' t h => ?_)
  · exact hundisturbed s' t (h.append rest)
  · exact hyaml s' t (h.append rest)

/-- A variable gets another name and options, a name that is none gets around its check, and
    another variable is removed. -/
theorem settings_kept_three_turns :
    let before : Settings := { vars := [{ name := "a" }, { name := "b" }] }
    let s := alone before []
    let renamed : List Reply :=
      [.unchecked " c ", .index 1, .text "x,, y ", .index 1, .text " "]
    let turns : List Turn := [
      { action := .edit .vars "a", answers := renamed.map fun reply => { reply } },
      { action := .add .vars, answers := [{ reply := .unchecked "no name" }] },
      { action := .remove .vars "b", answers := [{ reply := .flag true }] }]
    (s.onDisk = .ok before ∧
      (∀ s' t, s.Takes turns s' t → Undisturbed (t.opening s') t.action) ∧
      ∀ s' t, s.Takes turns s' t → (t.run s').files.YamlReadsBack s.store.path) ∧
    ∃ now, (s.afterAll turns).onDisk = .ok now ∧ Distinct Variable.name now.vars ∧
      ∀ v ∈ now.vars, v ∈ before.vars ∨ v.WellFormed ∧ Entered s turns .vars v := by
  intro before s renamed turns
  have hread : s.onDisk = .ok before := onDisk_alone _ rfl
  have hquiet : ∀ t ∈ turns, (∀ answer ∈ t.answers, answer.outside = none) ∧ t.terminal ≠ .shell := by
    decide
  have hundisturbed : ∀ s' t, s.Takes turns s' t → Undisturbed (t.opening s') t.action := by
    intro s' t h
    obtain ⟨hanswers, hshell⟩ := hquiet t h.mem
    exact ⟨hanswers, fun h => absurd h hshell⟩
  have hyaml : ∀ s' t, s.Takes turns s' t → (t.run s').files.YamlReadsBack s.store.path :=
    fun _ _ _ => FileSystem.yamlReadsBack_of_json format_meanwhile _
  obtain ⟨now, hnow, hkeeps⟩ :=
    settings_kept s turns before hread hundisturbed hyaml turns (List.prefix_refl turns)
  have hvars := hkeeps .vars
  have hdistinct : Distinct Variable.name before.vars := by decide
  exact ⟨⟨hread, hundisturbed, hyaml⟩, now, hnow, hvars.distinct hdistinct, hvars.entries⟩

end CommandLauncher
