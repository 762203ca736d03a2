/-
  UPDATING — adding and editing while others change the settings file.

  1. **Updates** — an update adds an entry to a part of the settings, or edits the first one with
     a key.

  2. **What stands on disk** — the settings that count are those on disk when the last question
     has been answered.  The attempt reads them twice after that, once for the list and once to
     write it, and nothing can happen in between.

  3. **No update is lost** — `update_keeps` says what becomes of the file: it stays as it is if it
     cannot be read any more, the edited entry has gone, or it cannot be written; otherwise the
     one list is changed by putting the entry in its place, and all else is what stood on disk.
-/
import CommandLauncher.Proofs.Parts
import CommandLauncher.Proofs.Refreshing

namespace CommandLauncher

open Session

/-! ## Updates -/

/-- An addition to a part of the settings, or an edit of the first entry with a key. -/
structure Update where
  part : Part
  edited : Option String

namespace Update

variable (u : Update)

/-- The action behind an update. -/
def action : Action :=
  match u.edited with
  | none => .add u.part
  | some key => .edit u.part key

/-- What the form starts from; nothing where there is no entry to be edited. -/
def initial? (settings : Settings) : Option (Option u.part.Entry) :=
  match u.edited with
  | none => some none
  | some key => (u.part.catalog.find? key settings).map some

/-- The key of the entry whose place an entry takes. -/
def target (entry : u.part.Entry) : String := u.edited.getD (u.part.catalog.key entry)

/-- Whether the entry to be edited is gone. -/
def IsGone (settings : Settings) : Prop :=
  ∃ key, u.edited = some key ∧ ∀ e ∈ u.part.catalog.entries settings, u.part.catalog.key e ≠ key

end Update

/-! ## Storing -/

section Storing

variable {α : Type} (c : Catalog α) (edited : Option String) (entry : α) {s : Session}

/-- Where the edited entry is looked for. -/
def storedAt (settings : Settings) : Option Nat :=
  edited.bind fun key => position? c.key key (c.entries settings)

/-- What is reported of a saved entry. -/
def reportSaved (entry : α) : Attempt Unit := do
  let message := "Saved " ++ c.noun ++ " " ++ Attempt.shownKey (c.key entry)
  log .info .launcher message
  notify .info message
  Attempt.emit c.part

theorem tryOn_store_unreadable {e : SettingsError} (h : s.onDisk = .error e) :
    tryOn (Attempt.store c edited entry) s = (.error (.settings e), (readSettings.run s).2) := by
  rw [Attempt.store, tryOn_bind_error (tryOn_readSettings_error h)]

theorem store_unreadable {e : SettingsError} (h : s.onDisk = .error e) :
    OnlyAdds s (tryOn (Attempt.store c edited entry) s).2 := by
  rw [tryOn_store_unreadable c edited entry h]
  exact OnlyAdds.readSettings s

variable {now : Settings} (hnow : s.onDisk = .ok now)

include hnow

/-- An edit of an entry that has gone is dropped. -/
theorem tryOn_store_gone (hedited : edited.isSome = true) (hgone : storedAt c edited now = none) :
    tryOn (Attempt.store c edited entry) s =
      (.ok (), ((log .debug .launcher (c.title ++ " removed while editing, dropping the edit")).run
        (readSettings.run s).2).2) := by
  have hdrop : (edited.isSome && (storedAt c edited now).isNone) = true := by
    rw [hedited, hgone]
    rfl
  rw [Attempt.store, tryOn_bind_ok (tryOn_readSettings_ok hnow)]
  dsimp only
  rw [storedAt] at hdrop
  rw [if_pos hdrop]
  rfl

theorem store_gone (hedited : edited.isSome = true) (hgone : storedAt c edited now = none) :
    OnlyAdds s (tryOn (Attempt.store c edited entry) s).2 := by
  rw [tryOn_store_gone c edited entry hnow hedited hgone]
  exact (OnlyAdds.readSettings s).trans (OnlyAdds.record _ _)

section There

variable (hthere : edited.isSome = true → storedAt c edited now ≠ none)
include hthere

/-- An entry that has not gone is stored by replacing the list. -/
theorem tryOn_store_there : ∃ s₁, Adds [] s s₁ ∧ tryOn (Attempt.store c edited entry) s =
    tryOn (do
      Attempt.onSettings (replaceEntries c
        (upsert c.key (storedAt c edited now) entry (c.entries now)))
      reportSaved c entry) s₁ := by
  have hkeep : ¬ (edited.isSome && (storedAt c edited now).isNone) = true := by
    simpa using hthere
  refine ⟨(readSettings.run s).2, Adds.readSettings s, ?_⟩
  rw [Attempt.store, tryOn_bind_ok (tryOn_readSettings_ok hnow)]
  dsimp only
  rw [storedAt] at hkeep ⊢
  rw [if_neg hkeep]
  rfl

/-- The list is written, and then reported. -/
theorem tryOn_store_saved (hwritable : s.files.Writable s.store.path) :
    ∃ s₂, Saved (c.replace (upsert c.key (storedAt c edited now) entry (c.entries now)) now) s s₂ ∧
      tryOn (Attempt.store c edited entry) s = tryOn (reportSaved c entry) s₂ := by
  obtain ⟨s₁, hadds, hstore⟩ := tryOn_store_there c edited entry hnow hthere
  obtain ⟨s₂, hwritten, hsaved⟩ := tryOn_replaceEntries c
    (upsert c.key (storedAt c edited now) entry (c.entries now)) (hadds.onDisk_eq.trans hnow)
    (OnlyAdds.writable ⟨_, hadds⟩ hwritable)
  refine ⟨s₂, hsaved.after hadds, ?_⟩
  rw [hstore, tryOn_bind_ok hwritten]

/-- The list is written, and afterwards only reported. -/
theorem store_saved (hwritable : s.files.Writable s.store.path) :
    ∃ s₂, Saved (c.replace (upsert c.key (storedAt c edited now) entry (c.entries now)) now) s s₂ ∧
      OnlyAdds s₂ (tryOn (Attempt.store c edited entry) s).2 := by
  obtain ⟨s₂, hsaved, hrest⟩ := tryOn_store_saved c edited entry hnow hthere hwritable
  refine ⟨s₂, hsaved, ?_⟩
  rw [hrest]
  exact ((OnlyAdds.record _ s₂).trans (OnlyAdds.record _ _)).trans (OnlyAdds.emit _ _)

/-- An entry that cannot be written is a failure, and nothing else. -/
theorem tryOn_store_unwritable {cause : FileError}
    (hrefused : ∀ c, s.files.write s.store.path c = .error cause) :
    ∃ s₂, tryOn (Attempt.store c edited entry) s =
      (.error (.settings (.unwritable s.store.path cause)), s₂) ∧ Adds [] s s₂ := by
  obtain ⟨s₁, hadds, hstore⟩ := tryOn_store_there c edited entry hnow hthere
  rw [← hadds.files_eq, ← hadds.store_eq] at hrefused
  obtain ⟨s₂, hfailed, hsilent⟩ := tryOn_replaceEntries_unwritable c
    (upsert c.key (storedAt c edited now) entry (c.entries now)) (hadds.onDisk_eq.trans hnow)
    hrefused
  refine ⟨s₂, ?_, hadds.silent_trans hsilent⟩
  rw [hstore, tryOn_bind_error hfailed, hadds.store_eq]

theorem store_unwritable (hnot : ¬ s.files.Writable s.store.path) :
    OnlyAdds s (tryOn (Attempt.store c edited entry) s).2 := by
  obtain ⟨cause, hrefused⟩ := (s.files.writable_or s.store.path).resolve_left hnot
  obtain ⟨s₂, hfailed, hadds⟩ := tryOn_store_unwritable c edited entry hnow hthere hrefused
  rw [hfailed]
  exact ⟨_, hadds⟩

end There

end Storing

/-! ## Updates as attempts -/

namespace Update

variable {u : Update} {s : Session}

/-- An update opens its form. -/
theorem tryOn_attempt {before : Settings} {start : Option u.part.Entry}
    (hread : s.onDisk = .ok before) (hopen : u.initial? before = some start) :
    tryOn u.action.attempt s =
      tryOn (Attempt.fillIn u.part.catalog (u.part.form start) u.edited) (readSettings.run s).2 := by
  obtain ⟨p, edited⟩ := u
  cases edited with
  | none =>
    obtain rfl := Option.some.inj hopen
    cases p with
    | vars => exact tryOn_bind_ok (tryOn_readSettings_ok hread) _
    | commands => exact tryOn_bind_ok (tryOn_readSettings_ok hread) _
  | some key =>
    -- the entry that is found is both what is edited and what the form starts from
    obtain ⟨old, hfind, rfl⟩ := Option.map_eq_some_iff.mp hopen
    cases p with
    | vars =>
      refine (tryOn_bind_ok (tryOn_readSettings_ok hread) _).trans ?_
      rw [show Catalog.vars.find? key before = some old from hfind]
      rfl
    | commands =>
      refine (tryOn_bind_ok (tryOn_readSettings_ok hread) _).trans ?_
      rw [show Catalog.commands.find? key before = some old from hfind]
      rfl

/-- A completed form hands on its entry. -/
theorem tryOn_fillIn {α : Type} (c : Catalog α) {form : Form α} (edited : Option String)
    {entry : α} {s₁ : Session} (h : tryOn form s = (.ok entry, s₁)) :
    tryOn (Attempt.fillIn c form edited) s = tryOn (Attempt.store c edited entry) s₁ := by
  rw [Attempt.fillIn, tryOn_bind_lift, show form.run.run s = (.ok entry, s₁) from h]

/-- The edited entry is gone exactly where it is not found. -/
theorem isGone_iff {settings : Settings} : u.IsGone settings ↔
    u.edited.isSome = true ∧ storedAt u.part.catalog u.edited settings = none := by
  rw [IsGone, storedAt]
  cases u.edited with
  | none => simp
  | some key => simp [position?_eq_none_iff]

/-- Storing puts the entry in its place. -/
theorem placed_stored {settings : Settings} (entry : u.part.Entry) (h : ¬ u.IsGone settings) :
    Placed u.part.catalog.key (u.target entry) entry (u.part.catalog.entries settings)
      (upsert u.part.catalog.key (storedAt u.part.catalog u.edited settings) entry
        (u.part.catalog.entries settings)) := by
  rw [isGone_iff] at h
  rw [target, storedAt] at *
  cases hedited : u.edited with
  | none => exact placed_upsert _ entry _
  | some key =>
    rw [hedited] at h
    cases hat : position? u.part.catalog.key key (u.part.catalog.entries settings) with
    | none => exact absurd ⟨rfl, hat⟩ h
    | some i =>
      rw [Option.bind_some, hat]
      exact placed_upsert_at _ hat entry

end Update

/-- Behind the last question there is only the attempt to store, and perhaps a report. -/
theorem Update.onlyAdds_stored {u : Update} {s s₁ : Session} {before : Settings}
    {start : Option u.part.Entry} {entry : u.part.Entry} (hread : s.onDisk = .ok before)
    (hopen : u.initial? before = some start)
    (hform : tryOn (u.part.form start) (readSettings.run s).2 = (.ok entry, s₁)) :
    OnlyAdds (tryOn (Attempt.store u.part.catalog u.edited entry) s₁).2 (s.after u.action) := by
  have h := OnlyAdds.perform u.action s
  rw [tryOn_attempt hread hopen, tryOn_fillIn u.part.catalog u.edited hform] at h
  exact h

/-- What stands in the file when the entry of a completed form has been stored; it can be stored
    again. -/
theorem Update.saved {u : Update} {s s₁ : Session} {before now : Settings}
    {start : Option u.part.Entry} {entry : u.part.Entry} (hread : s.onDisk = .ok before)
    (hopen : u.initial? before = some start)
    (hform : tryOn (u.part.form start) (readSettings.run s).2 = (.ok entry, s₁))
    (hnow : s₁.onDisk = .ok now) (hthere : ¬ u.IsGone now)
    (hwritable : s₁.files.Writable s.store.path) :
    let after := s.after u.action
    let c := u.part.catalog
    let format := Format.ofPath s.store.path
    after.store = s.store ∧ after.files.Writable s.store.path ∧
    ∃ entries, Placed c.key (u.target entry) entry (c.entries now) entries ∧
      after.files.readText? s.store.path = some ((c.replace entries now).print format) ∧
      ((format = .yaml → (c.replace entries now).ReadsBack .yaml) →
        after.onDisk = .ok (c.replace entries now)) := by
  intro after c format
  obtain ⟨hplace, hgives⟩ := u.part.gives_form start (readSettings.run s).2
  rw [hform] at hplace hgives
  obtain ⟨hwellFormed, -⟩ := hgives entry rfl
  have hstore : s₁.store = s.store := hplace.store.trans (Adds.readSettings s).store_eq
  have hafter : OnlyAdds (tryOn (Attempt.store c u.edited entry) s₁).2 after :=
    onlyAdds_stored hread hopen hform
  have hplaced := placed_stored entry hthere
  rw [← hstore] at hwritable
  obtain ⟨s₂, hsaved, hadds⟩ := store_saved c u.edited entry hnow
    (fun hedited hat => hthere (isGone_iff.mpr ⟨hedited, hat⟩)) hwritable
  -- the list has entries from the file and one from the form, all of them usable
  have hproblem : (c.replace (upsert c.key (storedAt c u.edited now) entry (c.entries now))
      now).problem? = none :=
    Part.problem?_replace (problem?_of_onDisk hnow) fun e he =>
      (hplaced.mem he).imp_right fun heq : e = entry => heq ▸ hwellFormed.usable
  obtain ⟨htext, honDisk⟩ := hsaved.remains hstore (hadds.trans hafter)
  have hafterStore : after.store = s.store :=
    (hadds.trans hafter).store_eq.trans (hsaved.store_eq.trans hstore)
  have hagain : after.files.Writable s.store.path := by
    rw [(hadds.trans hafter).files_eq, ← hstore]
    exact hsaved.writable
  exact ⟨hafterStore, hagain, _, hplaced, htext, fun hyaml =>
    honDisk (Settings.readsBack_of_yaml hyaml) hproblem⟩

/-! ## No update is lost -/

open Update in
/-- **No update is lost by adding and editing**, whatever the user answers and whatever others do
    to the settings file at the questions.  The settings that count are those on disk behind the
    last question.  If they cannot be read, or the edited entry is gone from them, or the file
    cannot be written then, all files stay as they are.  Otherwise the file holds those settings
    with just one list changed: the entry from the form is in its place there, and the other list
    and all else are kept.  The entry has the icon of the one that was edited. -/
theorem update_keeps (u : Update) (s s₁ : Session) (before : Settings)
    (start : Option u.part.Entry) (entry : u.part.Entry) (hread : s.onDisk = .ok before)
    (hopen : u.initial? before = some start)
    (hform : tryOn (u.part.form start) (readSettings.run s).2 = (.ok entry, s₁)) :
    let after := ((perform u.action).run s).2
    let c := u.part.catalog
    let format := Format.ofPath s.store.path
    (∀ old, start = some old → Part.SameIcon old entry) ∧
    match s₁.onDisk with
    | .error _ => after.files = s₁.files
    | .ok now =>
      (u.IsGone now ∨ ¬ s₁.files.Writable s.store.path → after.files = s₁.files) ∧
      (¬ u.IsGone now → s₁.files.Writable s.store.path → ∃ entries,
        Placed c.key (u.target entry) entry (c.entries now) entries ∧
        c.entries (c.replace entries now) = entries ∧
        (∀ p, p ≠ u.part → p.catalog.entries (c.replace entries now) = p.catalog.entries now) ∧
        after.files.readText? s.store.path = some ((c.replace entries now).print format) ∧
        ((format = .yaml → (c.replace entries now).ReadsBack .yaml) →
          after.onDisk = .ok (c.replace entries now))) := by
  intro after c format
  obtain ⟨hplace, hgives⟩ := u.part.gives_form start (readSettings.run s).2
  rw [hform] at hplace hgives
  obtain ⟨-, hicon⟩ := hgives entry rfl
  have hstore : s₁.store = s.store := hplace.store.trans (Adds.readSettings s).store_eq
  have hafter : OnlyAdds (tryOn (Attempt.store c u.edited entry) s₁).2 after :=
    onlyAdds_stored hread hopen hform
  refine ⟨hicon, ?_⟩
  cases hnow : s₁.onDisk with
  | error e => exact ((store_unreadable c u.edited entry hnow).trans hafter).files_eq
  | ok now =>
    refine ⟨fun hkept => ?_, fun hthere hwritable => ?_⟩
    · by_cases hgone : u.IsGone now
      · obtain ⟨hedited, hat⟩ := isGone_iff.mp hgone
        exact ((store_gone c u.edited entry hnow hedited hat).trans hafter).files_eq
      · have hthere := fun hedited hat => hgone (isGone_iff.mpr ⟨hedited, hat⟩)
        have hnot := hkept.resolve_left hgone
        rw [← hstore] at hnot
        exact ((store_unwritable c u.edited entry hnow hthere hnot).trans hafter).files_eq
    · obtain ⟨-, -, entries, hplaced, htext⟩ := saved hread hopen hform hnow hthere hwritable
      exact ⟨entries, hplaced, u.part.entries_replace entries now,
        fun p hp => Part.entries_replace_ne hp entries now, htext⟩

/-- At the question for its name somebody puts another variable in front of the edited one, and a
    shell beside them; both are kept. -/
theorem update_keeps_meanwhile :
    let before : Settings := { vars := [{ name := "a" }] }
    let now : Settings := { shell := some "sh", vars := [{ name := "b" }, { name := "a" }] }
    let s := meanwhile before now (.text "c") [.index 0, .text "1", .text ""]
    let form := Form.variableForm (some { name := "a" })
    let entry : Variable := { name := "c", value := "1" }
    let s₁ := (tryOn form (readSettings.run s).2).2
    (s.onDisk = .ok before ∧
      (Update.mk .vars (some "a")).initial? before = some (some { name := "a" }) ∧
      tryOn form (readSettings.run s).2 = (.ok entry, s₁)) ∧
    s₁.onDisk = .ok now ∧ s₁.files.Writable s.store.path ∧
    ∃ vars, Placed Variable.name "a" entry now.vars vars ∧
      ((perform (.edit .vars "a")).run s).2.onDisk = .ok { now with vars } := by
  intro before now s form entry s₁
  have hread : s.onDisk = .ok before := onDisk_meanwhile _ _ rfl
  have hopen : (Update.mk .vars (some "a")).initial? before = some (some { name := "a" }) := rfl
  have hrun : (tryOn form (readSettings.run s).2).1 = .ok entry ∧
      s₁.store = (s.answered 1).store ∧ s₁.files = (s.answered 1).files := by
    obtain ⟨es, hes, -⟩ := Adds.readSettings s
    show (tryOn form (readSettings.run s).2).1 = .ok entry ∧
      (tryOn form (readSettings.run s).2).2.store = (s.answered 1).store ∧
        (tryOn form (readSettings.run s).2).2.files = (s.answered 1).files
    rw [hes]
    exact ⟨rfl, rfl, rfl⟩
  have hform : tryOn form (readSettings.run s).2 = (.ok entry, s₁) := Prod.ext hrun.1 rfl
  have hnow : s₁.onDisk = .ok now :=
    (onDisk_congr hrun.2.1 hrun.2.2).trans (onDisk_meanwhile_answered _ _ rfl)
  obtain ⟨-, h⟩ := update_keeps { part := .vars, edited := some "a" } s s₁ before _ entry hread
    hopen hform
  rw [hnow] at h
  have hthere : ¬ (Update.mk .vars (some "a")).IsGone now := by
    rintro ⟨key, hkey, hgone⟩
    obtain rfl := Option.some.inj hkey
    exact hgone { name := "a" } (show ({ name := "a" } : Variable) ∈ now.vars by decide) rfl
  have hwritable : s₁.files.Writable s.store.path :=
    hrun.2.2 ▸ writable_meanwhile_answered before now (.text "c") [.index 0, .text "1", .text ""]
  obtain ⟨vars, hplaced, -, -, -, honDisk⟩ := h.2 hthere hwritable
  exact ⟨⟨hread, hopen, hform⟩, hnow, hwritable, vars, hplaced,
    honDisk fun hyaml => absurd hyaml (by decide +kernel)⟩

end CommandLauncher
