/-
  ACCEPTING — editing an entry and accepting whatever the dialog proposes changes nothing.

  1. **Accepting** — a prompt proposes an answer: its initial text or none, the position it starts
     at, or the flag it suggests (`Prompt.proposed`).  `accepted?` is what a dialog comes to when
     every answer is the proposed one, as long as there is no objection to any of them.  A user
     with these answers completes the form with it (`tryOn_form_accepted`).

  2. **Fields** — a dialog shows each field of an entry as a text, a position or a flag, and reads
     the field back from what it shows.  For a tidy text this is the text itself, for options the
     parts of the joined options (`parts_join`), for their default its position, and for a flag
     with three values the one that it stands for or was confirmed.

  3. **Entries** — so a well-formed entry is what its own dialog comes to (`accepted?_dialog`), and
     every entry that was saved from a form is well-formed.

  4. **Settings** — after an entry was put in its place, no other entry has its key.  Putting it
     there once more leaves the list as it is, and so the settings and the text of their file
     (`accepting_keeps`).
-/
import CommandLauncher.Proofs.Telling

namespace CommandLauncher

open Session

/-! ## Accepting -/

namespace Prompt

/-- What a prompt is told by accepting what it proposes. -/
def proposed : (p : Prompt) → p.Told
  | text _ initial _ => initial.getD ""
  | confirm _ proposed => proposed
  | select _ _ start _ => start

/-- The answer that accepts it. -/
def acceptance : Prompt → Answer
  | text _ initial _ => { reply := .text (initial.getD "") }
  | confirm _ proposed => { reply := .flag proposed }
  | select _ _ start _ => { reply := .index start }

/-- A text that passes the check ends the waiting for one. -/
theorem awaitText_of_passes {check : Check} {t : String} (h : check t = none) (path : String)
    (later : List Answer) (files : FileSystem) :
    awaitText path check ({ reply := .text t } :: later) files [] =
      { text := some t, refused := [], answers := later, files } := by
  rw [awaitText]
  dsimp only
  rw [h]
  rfl

/-- A prompt is told what it proposed, and the other answers are left for later. -/
theorem ask_accepted (p : Prompt) {s : Session} {later : List Answer} (hattended : s.attended = true)
    (hanswers : s.answers = p.acceptance :: later) (h : p.objection? p.proposed = none) :
    (p.ask.run s).1 = some p.proposed ∧ (p.ask.run s).2.answers = later := by
  obtain ⟨store, files, environment, attended, answers, terminal, subscribers, events⟩ := s
  obtain rfl : attended = true := hattended
  obtain rfl : answers = p.acceptance :: later := hanswers
  cases p with
  | text message initial check =>
    have hcheck : check (initial.getD "") = none := Option.map_eq_none_iff.mp h
    have houtcome := awaitText_of_passes hcheck store.path later files
    exact ⟨congrArg TextOutcome.text houtcome, congrArg TextOutcome.answers houtcome⟩
  | confirm message proposed => exact ⟨rfl, rfl⟩
  | select message options start listed => exact ⟨rfl, rfl⟩

end Prompt

namespace Dialog

variable {α β : Type}

/-- The answers that accept whatever a dialog proposes. -/
def acceptances : Dialog α → List Answer
  | done _ => []
  | ask p next => p.acceptance :: (next p.proposed).acceptances

/-- What a dialog comes to with them, unless there is an objection to one. -/
def accepted? : Dialog α → Option α
  | done a => some a
  | ask p next =>
    match p.objection? p.proposed with
    | some _ => none
    | none => (next p.proposed).accepted?

theorem quiet_of_mem_acceptances {d : Dialog α} : ∀ a ∈ d.acceptances, a.outside = none := by
  induction d with
  | done a => exact nofun
  | ask p next ih =>
    refine List.forall_mem_cons.mpr ⟨?_, ih p.proposed⟩
    cases p <;> rfl

/-- **A user who accepts everything** completes the form, and every prompt is told what it
    proposed. -/
theorem tryOn_form_accepted {d : Dialog α} {a : α} (h : d.accepted? = some a) :
    ∀ {s : Session}, s.attended = true → s.answers = d.acceptances →
      (tryOn d.form s).1 = .ok a ∧ ∀ e ∈ d.exchanges s, e.told = some e.prompt.proposed := by
  induction d with
  | done b =>
    intro s _ _
    obtain rfl := Option.some.inj h
    exact ⟨rfl, nofun⟩
  | ask p next ih =>
    intro s hattended hanswers
    rw [accepted?] at h
    cases hobjection : p.objection? p.proposed with
    | some stop =>
      rw [hobjection] at h
      cases h
    | none =>
      rw [hobjection] at h
      obtain ⟨htold, hlater⟩ := p.ask_accepted hattended hanswers hobjection
      have hnext := (Heard.prompt p s).attended_eq.trans hattended
      obtain ⟨hresult, hexchanges⟩ := ih p.proposed h hnext hlater
      rw [tryOn_form_ask, exchanges, htold]
      dsimp only
      rw [hobjection]
      exact ⟨hresult, List.forall_mem_cons.mpr ⟨htold, hexchanges⟩⟩

theorem accepted?_bind (d : Dialog α) (f : α → Dialog β) :
    (d >>= f).accepted? = d.accepted?.bind fun a => (f a).accepted? := by
  induction d with
  | done a => rfl
  | ask p next ih =>
    show (match p.objection? p.proposed with
      | some _ => none
      | none => (next p.proposed >>= f).accepted?) = _
    rw [accepted?]
    cases p.objection? p.proposed with
    | some stop => rfl
    | none => exact ih p.proposed

theorem accepted?_text {message : String} {initial : Option String} {check : Check}
    (h : check (initial.getD "") = none) :
    (text message initial check).accepted? = some (initial.getD "") := by
  have hobjection : (Prompt.text message initial check).objection?
      (Prompt.text message initial check).proposed = none := Option.map_eq_none_iff.mpr h
  rw [text, accepted?, hobjection]
  rfl

theorem accepted?_confirm (message : String) (proposed : Bool) :
    (confirm message proposed).accepted? = some proposed := rfl

theorem accepted?_select_any (message : String) (options : List String) (start : Nat) :
    (select message options start false).accepted? = some start := rfl

theorem accepted?_select {message : String} {options : List String} {start : Nat}
    (h : start < options.length) :
    (select message options start true).accepted? = some start := by
  have hnot : ¬ (true && decide (options.length ≤ start)) = true := by simpa using h
  have hobjection : (Prompt.select message options start true).objection?
      (Prompt.select message options start true).proposed = none := if_neg hnot
  rw [select, accepted?, hobjection]
  rfl

end Dialog

/-! ## Fields -/

/-- A flag that is confirmed as it is stands for itself. -/
theorem Form.storedFlag_getD (current : Option Bool) :
    storedFlag current (current.getD true) = current := by
  cases current with
  | none => rfl
  | some flag => exact if_pos rfl

/-- The position of the value among the options is that of the value. -/
theorem Variable.defaultPosition_spec {v : Variable} {options : List String}
    (h : v.value ∈ options) :
    options[defaultPosition (some v) options]? = some v.value := by
  rw [defaultPosition, Option.bind_some]
  cases hfind : options.findIdx? fun o => o = v.value with
  | none =>
    have hnot := List.findIdx?_eq_none_iff.mp hfind v.value h
    simp at hnot
  | some i =>
    obtain ⟨hi, hvalue, -⟩ := List.findIdx?_eq_some_iff_getElem.mp hfind
    rw [Option.getD_some, List.getElem?_eq_getElem hi, of_decide_eq_true hvalue]

theorem Check.notBlank_of_tidy {what s : String} (h : Text.IsTidy s) : notBlank what s = none :=
  if_neg (by rw [h.2]; decide)

theorem Check.name_of_isName {s : String} (h : Variable.isName s = true) (htrim : Text.trim s = s) :
    name s = none := by
  have hne : s.isEmpty = false := by
    rw [Bool.eq_false_iff, ne_eq, String.isEmpty_iff]
    rintro rfl
    cases h
  rw [name, htrim, hne, h]
  rfl

/-! ## Entries -/

namespace Dialog

open Text

/-- What the questions for the value of a well-formed variable come to. -/
theorem accepted?_variableValue {v : Variable} (h : v.WellFormed) :
    (variableValue (some v) (if (some v).any Variable.isSelectable then Variable.selectableKind
      else 0)).accepted? = some (v.value, v.options) := by
  cases hchoices : v.choices with
  | none =>
    -- options that are there are choices, since they are not empty
    have hnone : v.options = none := by
      cases hoptions : v.options with
      | none => rfl
      | some options =>
        have hsome := Variable.choices_eq_some_iff.mpr ⟨hoptions, (h.options options hoptions).1.1⟩
        rw [hchoices] at hsome
        cases hsome
    have hstart : (some v).any Variable.isSelectable = false := by
      rw [Option.any_some, Variable.isSelectable, hchoices]
      rfl
    rw [hstart, hnone, variableValue, if_neg (by decide), accepted?_bind, accepted?_text rfl]
    rfl
  | some options =>
    obtain ⟨hoptions, hne⟩ := Variable.choices_eq_some_iff.mp hchoices
    obtain ⟨⟨-, hvalue⟩, htidy⟩ := h.options options hoptions
    have hstart : (some v).any Variable.isSelectable = true := by
      rw [Option.any_some, Variable.isSelectable, hchoices]
      rfl
    have hparse : Variable.parseOptions (join ", " options) = options := parts_join htidy
    have hcheck : Check.options (join ", " options) = none := by
      rw [Check.options, hparse, if_neg (by simpa using hne)]
    have hat := Variable.defaultPosition_spec hvalue
    obtain ⟨hpicked, -⟩ := List.getElem?_eq_some_iff.mp hat
    have hcurrent : ((some v).bind Variable.choices).map (join ", ") = some (join ", " options) := by
      rw [Option.bind_some, hchoices, Option.map_some]
    rw [hstart, if_pos rfl, hoptions, variableValue, if_pos rfl, hcurrent, accepted?_bind,
      accepted?_text hcheck, Option.bind_some, Option.getD_some, hparse, accepted?_bind,
      accepted?_select hpicked, Option.bind_some, List.getD_eq_getElem?_getD, hat]
    rfl

/-- A well-formed variable is what its dialog comes to. -/
theorem accepted?_variableForm {v : Variable} (h : v.WellFormed) :
    (variableForm (some v)).accepted? = some v := by
  obtain ⟨hname, htrim⟩ := h.name
  have hcheck : Check.name (((some v).map Variable.name).getD "") = none :=
    Check.name_of_isName hname htrim
  have hdescription : nonBlank (v.description.getD "") = v.description :=
    nonBlank_getD h.description
  rw [variableForm, accepted?_bind, accepted?_text hcheck, Option.bind_some, accepted?_bind,
    accepted?_select_any, Option.bind_some, accepted?_bind, accepted?_variableValue h,
    Option.bind_some, accepted?_bind, accepted?_text rfl, Option.bind_some]
  show some _ = _
  rw [Option.map_some, Option.getD_some, htrim, Option.bind_some, hdescription]

/-- A well-formed command is what its dialog comes to. -/
theorem accepted?_commandForm {c : Command} (h : c.WellFormed) :
    (commandForm (some c)).accepted? = some c := by
  have htitle : Check.title (((some c).map Command.title).getD "") = none :=
    Check.notBlank_of_tidy h.title
  have hcommand : Check.command (((some c).map Command.command).getD "") = none :=
    Check.notBlank_of_tidy h.command
  have hgroup : nonBlank (c.group.getD "") = c.group := nonBlank_getD h.group
  have hdescription : nonBlank (c.description.getD "") = c.description :=
    nonBlank_getD h.description
  rw [commandForm, accepted?_bind, accepted?_text htitle, Option.bind_some, accepted?_bind,
    accepted?_text hcommand, Option.bind_some, accepted?_bind, accepted?_text rfl,
    Option.bind_some, accepted?_bind, accepted?_text rfl, Option.bind_some, accepted?_bind,
    accepted?_confirm, Option.bind_some]
  show some _ = _
  simp only [Option.map_some, Option.getD_some, Option.bind_some, h.title.1, h.command.1, hgroup,
    hdescription, Form.storedFlag_getD]

end Dialog

/-- **A well-formed entry is what its own dialog comes to** when everything is accepted. -/
theorem Part.accepted?_dialog {p : Part} {entry : p.Entry} (h : WellFormed entry) :
    (p.dialog (some entry)).accepted? = some entry := by
  cases p with
  | vars => exact Dialog.accepted?_variableForm h
  | commands => exact Dialog.accepted?_commandForm h

theorem Part.replace_entries (p : Part) (s : Settings) :
    p.catalog.replace (p.catalog.entries s) s = s := by
  cases p <;> rfl

/-! ## Accepting an entry -/

/-- The session with a user who accepts whatever the dialog of an entry proposes. -/
def Session.accepting {p : Part} (entry : p.Entry) (s : Session) : Session :=
  { s with attended := true, answers := (p.dialog (some entry)).acceptances }

theorem Session.accepting_onDisk {p : Part} (entry : p.Entry) (s : Session) :
    (s.accepting entry).onDisk = s.onDisk := rfl

/-- The form of a well-formed entry is completed with the entry. -/
theorem Session.accepting_form {p : Part} {entry : p.Entry} (h : Part.WellFormed entry)
    (s : Session) :
    (∃ s', tryOn (p.form (some entry)) (readSettings.run (s.accepting entry)).2 = (.ok entry, s')) ∧
    ∀ e ∈ (p.dialog (some entry)).exchanges (s.accepting entry),
      e.told = some e.prompt.proposed := by
  let reading := (readSettings.run (s.accepting entry)).2
  have hattended : reading.attended = true := rfl
  have hanswers : reading.answers = (p.dialog (some entry)).acceptances := rfl
  obtain ⟨hresult, htold⟩ :=
    Dialog.tryOn_form_accepted (Part.accepted?_dialog h) hattended hanswers
  rw [(p.dialog (some entry)).exchanges_eq (Adds.readSettings _)] at htold
  rw [p.form_dialog] at hresult
  exact ⟨⟨_, Prod.ext hresult rfl⟩, htold⟩

/-- Unless it is gone, the entry whose place an entry takes is there, or has the same key. -/
theorem Update.target_of_not_isGone {u : Update} {now : Settings} {entry : u.part.Entry}
    (h : ¬ u.IsGone now) : u.target entry = u.part.catalog.key entry ∨
      ∃ e ∈ u.part.catalog.entries now, u.part.catalog.key e = u.target entry := by
  rw [target]
  cases hedited : u.edited with
  | none => exact .inl rfl
  | some key =>
    refine .inr (by_contra fun hnone => h ⟨key, hedited, fun e he hkey => hnone ⟨e, he, hkey⟩⟩)

/-- **A saved entry is found again**: it is the only one with its key, and all other settings are
    those on disk behind the last question.  The file can be written again. -/
theorem Update.found {u : Update} {s s₁ : Session} {before now : Settings}
    {start : Option u.part.Entry} {entry : u.part.Entry} (hread : s.onDisk = .ok before)
    (hopen : u.initial? before = some start)
    (hform : tryOn (u.part.form start) (readSettings.run s).2 = (.ok entry, s₁))
    (hnow : s₁.onDisk = .ok now) (hthere : ¬ u.IsGone now)
    (hwritable : s₁.files.Writable s.store.path)
    (hyaml : (s.after u.action).files.YamlReadsBack s.store.path) :
    let after := s.after u.action
    let c := u.part.catalog
    after.store = s.store ∧ after.files.Writable s.store.path ∧ ∃ earlier later,
      after.files.readText? s.store.path =
        some ((c.replace (earlier ++ entry :: later) now).print (Format.ofPath s.store.path)) ∧
      after.onDisk = .ok (c.replace (earlier ++ entry :: later) now) ∧
      ∀ e ∈ earlier ++ later, c.key e ≠ c.key entry := by
  intro after c
  obtain ⟨hstore, hagain, entries, hplaced, htext, honDisk⟩ :=
    saved hread hopen hform hnow hthere hwritable
  have hsaved : after.onDisk = .ok (c.replace entries now) :=
    honDisk fun hformat => hformat ▸ hyaml.settings htext
  obtain ⟨earlier, later, rfl, hunique⟩ := hplaced.unique (target_of_not_isGone hthere)
  exact ⟨hstore, hagain, earlier, later, htext, hsaved, hunique⟩

/-- **An accepted edit** of an entry that is the only one with its key leaves the settings and the
    text of their file as they are, and is reported as any other. -/
theorem accepting_keeps {p : Part} {entry : p.Entry} {saved : Settings} {s : Session}
    {earlier later : List p.Entry} (hwellFormed : Part.WellFormed entry)
    (hread : s.onDisk = .ok saved)
    (htext : s.files.readText? s.store.path = some (saved.print (Format.ofPath s.store.path)))
    (hwritable : s.files.Writable s.store.path)
    (hyaml : s.files.YamlReadsBack s.store.path)
    (hentries : p.catalog.entries saved = earlier ++ entry :: later)
    (hunique : ∀ e ∈ earlier ++ later, p.catalog.key e ≠ p.catalog.key entry) :
    let again := (s.accepting entry).after (.edit p (p.catalog.key entry))
    again.files.readText? s.store.path = s.files.readText? s.store.path ∧
      Tells p [informed ("Saved " ++ p.catalog.noun ++ " " ++
        Attempt.shownKey (p.catalog.key entry))] saved (s.accepting entry) again := by
  intro again
  let u : Update := { part := p, edited := some (p.catalog.key entry) }
  have hread' := (s.accepting_onDisk entry).trans hread
  have hquiet : ∀ a ∈ (s.accepting entry).answers, a.outside = none :=
    Dialog.quiet_of_mem_acceptances
  have hopen : u.initial? saved = some (some entry) := by
    show ((p.catalog.entries saved).find? fun e => p.catalog.key e = p.catalog.key entry).map some =
      some (some entry)
    rw [hentries, find?_of_unique hunique]
    rfl
  obtain ⟨⟨s₂, hform⟩, -⟩ := s.accepting_form hwellFormed
  obtain ⟨hheard, -⟩ := update_dialog (u := u) (some entry) (s.accepting entry)
  rw [show tryOn (u.part.form (some entry)) (readSettings.run (s.accepting entry)).2 =
    (.ok entry, s₂) from hform] at hheard
  -- what the edit puts in the place of the entry is the entry
  have hsame : ∀ entries, Placed p.catalog.key (p.catalog.key entry) entry
      (p.catalog.entries saved) entries → p.catalog.replace entries saved = saved := by
    intro entries hplaced
    rw [hentries] at hplaced
    rw [Placed.again hunique hplaced, ← hentries, p.replace_entries]
  obtain ⟨-, -, entries, hplaced, hwritten, -⟩ := Update.saved (u := u) hread' hopen hform
    ((hheard.onDisk_eq hquiet).trans hread') (Update.not_isGone hopen)
    (hheard.files_eq hquiet ▸ hwritable)
  rw [hsame entries hplaced] at hwritten
  have hunchanged : again.files.readText? s.store.path = s.files.readText? s.store.path :=
    hwritten.trans htext.symm
  have hback : again.files.YamlReadsBack s.store.path := by
    intro hformat settings hsettings
    exact hyaml hformat settings (hunchanged ▸ hsettings)
  obtain ⟨entries', hplaced', htells⟩ := saved_tells (u := u) hread' hquiet hopen hform hwritable hback
  rw [hsame entries' hplaced'] at htells
  exact ⟨hunchanged, htells⟩

/-- **Accepting what the dialog proposes changes nothing.**  After an addition or an edit has been
    completed and saved, with any answers, the entry is found with its key.  If it is then edited
    and everything that its dialog proposes is accepted, the dialog is completed with that entry,
    the edit is reported as saved, and the settings on disk and the text of their file are what
    they were.  If nobody else writes files during the first dialog, its entry is saved whenever
    the file could be written before. -/
theorem accepting_settles (u : Update) (s s₁ : Session) (before : Settings)
    (start : Option u.part.Entry) (entry : u.part.Entry) (hread : s.onDisk = .ok before)
    (hopen : u.initial? before = some start)
    (hform : tryOn (u.part.form start) (readSettings.run s).2 = (.ok entry, s₁))
    (hyaml : (s.after u.action).files.YamlReadsBack s.store.path) :
    let c := u.part.catalog
    let after := s.after u.action
    let accepting := after.accepting entry
    let again := accepting.after (.edit u.part (c.key entry))
    (∀ now, s₁.onDisk = .ok now → ¬ u.IsGone now → s₁.files.Writable s.store.path →
      ∃ saved, after.onDisk = .ok saved ∧
      c.find? (c.key entry) saved = some entry ∧
      (∀ e ∈ (u.part.dialog (some entry)).exchanges accepting,
        e.told = some e.prompt.proposed) ∧
      (tryOn (u.part.form (some entry)) (readSettings.run accepting).2).1 = .ok entry ∧
      Tells u.part [informed ("Saved " ++ c.noun ++ " " ++ Attempt.shownKey (c.key entry))] saved
        accepting again ∧
      again.onDisk = .ok saved ∧
      again.files.readText? s.store.path = after.files.readText? s.store.path) ∧
    ((∀ answer ∈ s.answers, answer.outside = none) →
      s₁.onDisk = .ok before ∧ ¬ u.IsGone before ∧ s₁.files = s.files) := by
  intro c after accepting again
  obtain ⟨hheard, -⟩ := update_dialog start s
  obtain ⟨-, hgives⟩ := u.part.gives_form start (readSettings.run s).2
  rw [hform] at hheard hgives
  obtain ⟨hwellFormed, -⟩ := hgives entry rfl
  refine ⟨fun now hnow hthere hwritable => ?_, fun hquiet =>
    ⟨(hheard.onDisk_eq hquiet).trans hread, Update.not_isGone hopen, hheard.files_eq hquiet⟩⟩
  obtain ⟨hstore, hstill, earlier, later, htext, hsaved, hunique⟩ :=
    Update.found hread hopen hform hnow hthere hwritable hyaml
  have hentries := u.part.entries_replace (earlier ++ entry :: later) now
  rw [← hstore] at htext hstill hyaml
  obtain ⟨hunchanged, htells⟩ :=
    accepting_keeps hwellFormed hsaved htext hstill hyaml hentries hunique
  obtain ⟨⟨s₂, hagain⟩, htold⟩ := after.accepting_form hwellFormed
  refine ⟨_, hsaved, ?_, htold, ?_, htells, htells.onDisk, hstore ▸ hunchanged⟩
  · rw [Catalog.find?, hentries]
    exact find?_of_unique hunique
  · rw [hagain]

/-- A variable gets options, their second one as its value, and the name of another variable, which
    goes.  Then everything is accepted. -/
theorem accepting_settles_options :
    let old : Variable := { name := "env", value := "dev" }
    let before : Settings := { vars := [{ name := "host" }, old, { name := "stage" }] }
    let s := alone before
      [.text "stage", .index 1, .text " dev,, prod", .index 1, .text " where "]
    let entry : Variable :=
      { name := "stage", value := "prod", description := some "where"
        options := some ["dev", "prod"] }
    let after := s.after (.edit .vars "env")
    ∃ s₁, (s.onDisk = .ok before ∧
      tryOn (Form.variableForm (some old)) (readSettings.run s).2 = (.ok entry, s₁)) ∧
    ∃ saved, after.onDisk = .ok saved ∧ Catalog.vars.find? "stage" saved = some entry ∧
      ((after.accepting (p := .vars) entry).after (.edit .vars "stage")).onDisk = .ok saved := by
  intro old before s entry after
  have hread : s.onDisk = .ok before := onDisk_alone _ rfl
  have hopen : (Update.mk .vars (some "env")).initial? before = some (some old) := rfl
  have hquiet : ∀ answer ∈ s.answers, answer.outside = none := by decide
  obtain ⟨s₁, hform, -⟩ := completed_after_reading (x := Form.variableForm (some old))
    (a := entry) s s fun es => ⟨rfl, rfl, rfl⟩
  obtain ⟨hsettles, hthere⟩ :=
    accepting_settles ⟨.vars, some "env"⟩ s s₁ before (some old) entry hread hopen hform
      (FileSystem.yamlReadsBack_of_json format_meanwhile _)
  obtain ⟨hnow, hgone, hfiles⟩ := hthere hquiet
  obtain ⟨saved, hsaved, hfind, -, -, -, hagain, -⟩ :=
    hsettles before hnow hgone (hfiles ▸ writable_alone before _)
  exact ⟨s₁, ⟨hread, hform⟩, saved, hsaved, hfind, hagain⟩

end CommandLauncher
