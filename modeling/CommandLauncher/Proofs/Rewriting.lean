/-
  REWRITING — a settings file that could be read is written anew, if it can be written.

  1. **Walks** — on its way a walk sees directories only, so it goes the same way when something
     is put where no directory was (`walkFrom_put`).  A path that ends with a slash leads to a
     directory.

  2. **Files** — so what is written to a file is read from it (`read_of_write`).  Whether a file can
     be written does not depend on what is written to it (`write_eq_error`): it is `Writable`, or
     every write fails with one cause.  A file that was written once can be written again, and one
     that can be read can be written unless that is refused (`writable_of_read`).

  3. **Settings** — a list of settings that could be read is replaced in a file that can be
     written, and what the file then holds is the text of the new settings.  It reads as them if
     their text does (`Settings.ReadsBack`), which is known of JSON.  Where the file cannot be
     written nothing happens but the failure (`tryOn_replaceEntries_unwritable`).
-/
import CommandLauncher.Proofs.ReadsBack
import CommandLauncher.Proofs.Sessions

namespace CommandLauncher

/-! ## Walks -/

namespace FileSystem

variable {fs : FileSystem}

/-- The root is a directory. -/
theorem ne_nil_of_get? {at' : Location} (h : fs.get? at' ≠ some .directory) : at' ≠ [] := by
  rintro rfl
  exact h (if_pos rfl)

section Putting

variable {at' : Location} (h : fs.get? at' ≠ some .directory) (entry : Entry)

include h

/-- A walk that ends well goes the same way when an entry is put where no directory was. -/
theorem walkFrom_put (names : List String) : ∀ {start stop : Location},
    fs.walkFrom start names = .ok stop → (fs.put at' entry).walkFrom start names = .ok stop := by
  induction names with
  | nil => exact fun h => h
  | cons name names ih =>
    intro start stop hwalk
    rw [walkFrom] at hwalk ⊢
    cases hstart : fs.get? start with
    | none =>
      rw [hstart] at hwalk
      cases hwalk
    | some e =>
      cases e with
      | file c x =>
        rw [hstart] at hwalk
        cases hwalk
      | directory =>
        -- on its way the walk sees directories only
        have hne : at' ≠ start := by
          rintro rfl
          exact h hstart
        rw [get?_put fs at' start entry (ne_nil_of_get? h), if_neg hne, hstart]
        rw [hstart] at hwalk
        dsimp only at hwalk ⊢
        split
        · rename_i hstay
          rw [if_pos hstay] at hwalk
          exact ih hwalk
        · rename_i hstay
          rw [if_neg hstay] at hwalk
          split
          · rename_i hup
            rw [if_pos hup] at hwalk
            exact ih hwalk
          · rename_i hup
            rw [if_neg hup] at hwalk
            split
            · rename_i hlong
              rw [if_pos hlong] at hwalk
              cases hwalk
            · rename_i hlong
              rw [if_neg hlong] at hwalk
              exact ih hwalk

theorem locate_put {path : String} {stop : Location} (hat : fs.locate path = .ok stop) :
    (fs.put at' entry).locate path = .ok stop := by
  rw [locate] at hat ⊢
  split
  · rename_i hempty
    rw [if_pos hempty] at hat
    cases hat
  · rename_i hempty
    rw [if_neg hempty] at hat
    split
    · rename_i hzero
      rw [if_pos hzero] at hat
      cases hat
    · rename_i hzero
      rw [if_neg hzero] at hat
      exact walkFrom_put h entry _ hat

end Putting

/-- An empty name at the end asks for a directory. -/
theorem get?_of_walkFrom_append_empty (names : List String) : ∀ {start at' : Location},
    fs.walkFrom start (names ++ [""]) = .ok at' → fs.get? at' = some .directory := by
  induction names with
  | nil =>
    intro start at' h
    rw [List.nil_append, walkFrom] at h
    split at h
    · cases h
    · cases h
    · -- an empty name stays where it is, and that is a directory
      rename_i hdir
      rw [if_pos (.inl rfl), walkFrom] at h
      obtain rfl := Except.ok.inj h
      exact hdir
  | cons name names ih =>
    intro start at' h
    rw [List.cons_append, walkFrom] at h
    split at h
    · cases h
    · cases h
    · split at h
      · exact ih h
      split at h
      · exact ih h
      split at h
      · cases h
      · exact ih h

/-! ## Files -/

theorem find_eq_ok_iff {path : String} {e : Entry} :
    fs.find path = .ok e ↔ ∃ at', fs.locate path = .ok at' ∧ fs.get? at' = some e := by
  rw [find]
  cases hat : fs.locate path with
  | error e => simp [bind, Except.bind]
  | ok at' => cases h : fs.get? at' <;> simp [bind, Except.bind, pure, Except.pure, h]

theorem read_eq_ok_iff {path : String} {c : Content} :
    fs.read path = .ok c ↔
      ∃ at' x, fs.locate path = .ok at' ∧ fs.get? at' = some (.file c x) := by
  rw [read]
  constructor
  · intro h
    cases hfind : fs.find path with
    | error e =>
      rw [hfind] at h
      cases h
    | ok entry =>
      rw [hfind] at h
      cases entry with
      | directory => cases h
      | file content x =>
        obtain rfl := Except.ok.inj h
        obtain ⟨at', hat, hget⟩ := find_eq_ok_iff.mp hfind
        exact ⟨at', x, hat, hget⟩
  · rintro ⟨at', x, hat, hget⟩
    rw [find_eq_ok_iff.mpr ⟨at', hat, hget⟩]
    rfl

/-- Where a path with a slash at its end leads there is a directory. -/
theorem get?_of_locate_slash {path : String} {at' : Location} (h : fs.locate path = .ok at')
    (hslash : path.toList.getLast? = some '/') : fs.get? at' = some .directory := by
  obtain ⟨cs, hcs⟩ := List.getLast?_eq_some_iff.mp hslash
  have hnames : names path = (Text.splitChars '/' cs).map String.ofList ++ [""] := by
    rw [names, Text.split, hcs, Text.splitChars_append_sep, List.map_append]
    rfl
  rw [locate] at h
  split at h
  · cases h
  split at h
  · cases h
  rw [hnames] at h
  exact get?_of_walkFrom_append_empty _ h

/-- What a file is written at is no directory and is not refused, and holds what was written. -/
theorem write_eq_ok {path : String} {c : Content} {fs' : FileSystem} (h : fs.write path c = .ok fs') :
    ∃ at' x, fs.locate path = .ok at' ∧ fs.get? at' ≠ some .directory ∧ fs.refusal? at' = none ∧
      fs' = fs.put at' (.file c x) := by
  rw [write] at h
  split at h
  · split at h
    · cases h
    · split at h <;> cases h
    · cases h
  · cases hat : fs.locate path with
    | error e =>
      rw [hat] at h
      cases h
    | ok at' =>
      rw [hat] at h
      change fs.writeAt at' c = .ok fs' at h
      rw [writeAt] at h
      split at h
      · cases h
      · cases h
      · rename_i x hget hfree
        exact ⟨at', x, rfl, by rw [hget]; nofun, hfree, (Except.ok.inj h).symm⟩
      · rename_i hget hfree
        exact ⟨at', false, rfl, by rw [hget]; nofun, hfree, (Except.ok.inj h).symm⟩

/-- **What is written is read**, whether the file was there before or not. -/
theorem read_of_write {path : String} {c : Content} {fs' : FileSystem}
    (h : fs.write path c = .ok fs') : fs'.read path = .ok c := by
  obtain ⟨at', x, hat, hget, -, rfl⟩ := write_eq_ok h
  refine read_eq_ok_iff.mpr ⟨at', x, locate_put hget _ hat, ?_⟩
  rw [get?_put fs at' at' _ (ne_nil_of_get? hget), if_pos rfl]

/-- Where one content cannot be written, none can. -/
theorem write_eq_error {path : String} {c : Content} {cause : FileError}
    (h : fs.write path c = .error cause) (c' : Content) : fs.write path c' = .error cause := by
  rw [write] at h ⊢
  split
  · rename_i hslash
    rw [if_pos hslash] at h
    exact h
  · rename_i hslash
    rw [if_neg hslash] at h
    cases hat : fs.locate path with
    | error e =>
      rw [hat] at h
      exact h
    | ok at' =>
      rw [hat] at h
      change fs.writeAt at' c = .error cause at h
      show fs.writeAt at' c' = .error cause
      rw [writeAt] at h ⊢
      -- the failures do not look at the content, and the other two cases are no failures
      split at h
      · exact h
      · exact h
      · cases h
      · cases h

/-- Anything can be written to the file at a path. -/
def Writable (fs : FileSystem) (path : String) : Prop := ∀ c, ∃ written, fs.write path c = .ok written

theorem writable_of_write {path : String} {c : Content} {written : FileSystem}
    (h : fs.write path c = .ok written) : fs.Writable path := by
  intro c'
  cases hwrite : fs.write path c' with
  | ok written' => exact ⟨written', rfl⟩
  | error cause =>
    rw [write_eq_error hwrite c] at h
    cases h

/-- A file can be written, or every write fails with one cause. -/
theorem writable_or (fs : FileSystem) (path : String) :
    fs.Writable path ∨ ∃ cause, ∀ c, fs.write path c = .error cause := by
  cases hwrite : fs.write path (.text "") with
  | ok written => exact .inl (writable_of_write hwrite)
  | error cause => exact .inr ⟨cause, write_eq_error hwrite⟩

theorem not_writable {path : String} {cause : FileError}
    (h : ∀ c, fs.write path c = .error cause) : ¬ fs.Writable path := by
  intro hwritable
  obtain ⟨written, hwrite⟩ := hwritable (.text "")
  rw [h] at hwrite
  cases hwrite

/-- **A file that can be read can be written** where that is not refused. -/
theorem writable_of_read {path : String} {c : Content} (h : fs.read path = .ok c)
    (hfree : ∀ at', fs.locate path = .ok at' → fs.refusal? at' = none) : fs.Writable path := by
  obtain ⟨at', x, hat, hget⟩ := read_eq_ok_iff.mp h
  -- beyond reading, writing asks for a path without a slash at its end
  have hslash : ¬ path.toList.getLast? = some '/' := by
    intro hslash
    rw [get?_of_locate_slash hat hslash] at hget
    cases hget
  have hwrite : fs.write path c = .ok (fs.put at' (.file c x)) := by
    rw [write, if_neg hslash, hat]
    show fs.writeAt at' c = _
    rw [writeAt, hget, hfree at' hat]
  exact writable_of_write hwrite

/-- A file that was written can be written again. -/
theorem Writable.after_write {path : String} {c : Content} {written : FileSystem}
    (h : fs.write path c = .ok written) : written.Writable path := by
  refine writable_of_read (read_of_write h) fun there hthere => ?_
  obtain ⟨at', x, hat, hget, hfree, rfl⟩ := write_eq_ok h
  obtain rfl : at' = there := Except.ok.inj ((locate_put hget _ hat).symm.trans hthere)
  exact hfree

/-! ### Refusals -/

section Refusals

variable (refusals : List (Location × FileError))

/-- Whatever is refused, a walk goes the same way. -/
theorem walkFrom_refusals (names : List String) : ∀ start : Location,
    { fs with refusals }.walkFrom start names = fs.walkFrom start names := by
  induction names with
  | nil => exact fun _ => rfl
  | cons name names ih =>
    intro start
    rw [walkFrom, walkFrom, ih, ih, ih]
    rfl

theorem locate_refusals (path : String) : { fs with refusals }.locate path = fs.locate path := by
  rw [locate, locate, walkFrom_refusals]

/-- And the same is read. -/
theorem read_refusals (path : String) : { fs with refusals }.read path = fs.read path := by
  rw [read, read, find, find, locate_refusals]
  rfl

end Refusals

end FileSystem

/-! ## Settings -/

/-- What ends well does so with every wording of its failures. -/
theorem ok_of_mapError {α ε ε' : Type} {x : Except ε α} {f : ε → ε'} {a : α}
    (h : x.mapError f = .ok a) : x = .ok a := by
  cases x with
  | error e => cases h
  | ok b =>
    obtain rfl : b = a := Except.ok.inj h
    rfl

namespace Settings

/-- The text of settings in a format reads as them. -/
def ReadsBack (format : Format) (s : Settings) : Prop := parse format (s.print format) = .ok s

/-- Settings are read back wherever they are in YAML. -/
theorem readsBack_of_yaml {format : Format} {s : Settings} (h : format = .yaml → s.ReadsBack .yaml) :
    s.ReadsBack format := by
  cases format with
  | json => exact parse_print_json s
  | yaml => exact h rfl

/-- A text that reads as usable settings is accepted as them. -/
theorem accept_of_parse {path text : String} {s : Settings}
    (hparse : parse (Format.ofPath path) text = .ok s) (hproblem : s.problem? = none) :
    accept path text = (.ok s, s.remarks) := by
  rw [accept, hparse]
  dsimp only
  rw [hproblem]

section Saving

variable {s : Settings} {fs : FileSystem} {path : String}

/-- What was saved is the text of the settings. -/
theorem readText?_save {saved : FileSystem} (h : s.save fs path = .ok saved) :
    saved.readText? path = some (s.print (Format.ofPath path)) := by
  have hwrite : fs.write path (.text (s.print (Format.ofPath path))) = .ok saved := ok_of_mapError h
  rw [FileSystem.readText?, FileSystem.read_of_write hwrite]

/-- Settings are not saved only where nothing can be written. -/
theorem save_eq_error {e : SettingsError} (h : s.save fs path = .error e) :
    ∃ cause, e = .unwritable path cause ∧ ∀ c, fs.write path c = .error cause := by
  rw [save] at h
  cases hwrite : fs.write path (.text (s.print (Format.ofPath path))) with
  | ok written =>
    rw [hwrite] at h
    cases h
  | error cause =>
    rw [hwrite] at h
    obtain rfl : .unwritable path cause = e := Except.error.inj h
    exact ⟨cause, rfl, FileSystem.write_eq_error hwrite⟩

end Saving

theorem accept_print {path : String} {s : Settings} (hback : s.ReadsBack (Format.ofPath path))
    (hproblem : s.problem? = none) : (accept path (s.print (Format.ofPath path))).1 = .ok s :=
  congrArg Prod.fst (accept_of_parse hback hproblem)

end Settings

open Session

/-- `Saved settings s s'` — nothing but events was added to `s`, and the settings were written. -/
def Saved (settings : Settings) (s s' : Session) : Prop :=
  ∃ s₁ files, Adds [] s s₁ ∧ s' = { s₁ with files } ∧
    settings.save s.files s.store.path = .ok files

namespace Saved

variable {settings : Settings} {s s' : Session}

/-- Silence before the writing. -/
theorem after {s₀ : Session} (h₀ : Adds [] s₀ s) (h : Saved settings s s') :
    Saved settings s₀ s' := by
  obtain ⟨s₁, files, hadds, rfl, hsave⟩ := h
  rw [h₀.store_eq, h₀.files_eq] at hsave
  exact ⟨s₁, files, h₀.silent_trans hadds, rfl, hsave⟩

theorem store_eq (h : Saved settings s s') : s'.store = s.store := by
  obtain ⟨s₁, files, hadds, rfl, -⟩ := h
  exact hadds.store_eq

/-- What is in the file. -/
theorem readText? (h : Saved settings s s') :
    s'.files.readText? s.store.path = some (settings.print (Format.ofPath s.store.path)) := by
  obtain ⟨s₁, files, -, rfl, hsave⟩ := h
  exact Settings.readText?_save hsave

/-- It can be written again. -/
theorem writable (h : Saved settings s s') : s'.files.Writable s.store.path := by
  obtain ⟨s₁, files, -, rfl, hsave⟩ := h
  exact FileSystem.Writable.after_write (ok_of_mapError hsave)

/-- Settings that were saved are on disk. -/
theorem onDisk (h : Saved settings s s') (hback : settings.ReadsBack (Format.ofPath s.store.path))
    (hproblem : settings.problem? = none) : s'.onDisk = .ok settings := by
  rw [Session.onDisk, Store.read, Settings.load, h.store_eq, h.readText?]
  exact Settings.accept_print hback hproblem

/-- What was saved is in the file, and on disk, as long as only events are added. -/
theorem remains {s₀ after : Session} (hstore : s.store = s₀.store) (h : Saved settings s s')
    (hend : OnlyAdds s' after) :
    after.files.readText? s₀.store.path = some (settings.print (Format.ofPath s₀.store.path)) ∧
      (settings.ReadsBack (Format.ofPath s₀.store.path) → settings.problem? = none →
        after.onDisk = .ok settings) := by
  rw [← hstore, hend.files_eq, hend.onDisk_eq]
  exact ⟨h.readText?, h.onDisk⟩

end Saved

/-- In YAML, settings are read back from the file at a path if their text is in it. -/
def FileSystem.YamlReadsBack (fs : FileSystem) (path : String) : Prop :=
  Format.ofPath path = .yaml → ∀ settings : Settings,
    fs.readText? path = some (settings.print .yaml) → settings.ReadsBack .yaml

theorem FileSystem.yamlReadsBack_of_json {path : String} (h : Format.ofPath path = .json)
    (fs : FileSystem) : fs.YamlReadsBack path := by
  intro hyaml
  rw [h] at hyaml
  cases hyaml

/-- What is read back from a file in which it was written. -/
theorem FileSystem.YamlReadsBack.settings {fs : FileSystem} {path : String} {settings : Settings}
    (h : fs.YamlReadsBack path)
    (htext : fs.readText? path = some (settings.print (Format.ofPath path))) :
    settings.ReadsBack (Format.ofPath path) := by
  refine Settings.readsBack_of_yaml fun hyaml => ?_
  rw [hyaml] at htext
  exact h hyaml settings htext

/-- Saved settings are on disk. -/
theorem Saved.onDisk_of_yamlReadsBack {settings : Settings} {s s' : Session}
    (h : Saved settings s s') (hback : s'.files.YamlReadsBack s.store.path)
    (hproblem : settings.problem? = none) : s'.onDisk = .ok settings :=
  h.onDisk (hback.settings h.readText?) hproblem

/-- Settings on disk are usable. -/
theorem Session.problem?_of_onDisk {s : Session} {settings : Settings}
    (h : s.onDisk = .ok settings) : settings.problem? = none := by
  rw [onDisk, Store.read, Settings.load] at h
  split at h
  · cases h
  · rename_i text _
    cases haccept : Settings.accept s.store.path text with
    | mk result remarks =>
      rw [haccept] at h
      subst h
      exact (Settings.accept_eq_ok haccept).2.1

/-- Readable settings are in a readable file. -/
theorem Session.read_of_onDisk {s : Session} {settings : Settings} (h : s.onDisk = .ok settings) :
    ∃ c, s.files.read s.store.path = .ok c := by
  rw [onDisk, Store.read, Settings.load, FileSystem.readText?] at h
  cases hread : s.files.read s.store.path with
  | ok c => exact ⟨c, rfl⟩
  | error e =>
    rw [hread] at h
    cases h

/-- What can be written can be written as long as only events are added. -/
theorem OnlyAdds.writable {s s' : Session} (h : OnlyAdds s s')
    (hwritable : s.files.Writable s.store.path) : s'.files.Writable s'.store.path := by
  rw [h.files_eq, h.store_eq]
  exact hwritable

theorem writeSettings_run (settings : Settings) (s : Session) :
    (writeSettings settings).run s =
      match settings.save s.files s.store.path with
      | .ok files => (.ok (), { s with files })
      | .error e => (.error e, s) := by
  rw [writeSettings, run_bind, show (get : SessionM Session).run s = (s, s) from rfl]
  dsimp only
  cases settings.save s.files s.store.path with
  | ok files => rfl
  | error e => rfl

/-- A list of settings that cannot be read is not replaced. -/
theorem replaceEntries_run_unreadable {α : Type} (c : Catalog α) (entries : List α) {s : Session}
    {e : SettingsError} (h : s.onDisk = .error e) :
    (replaceEntries c entries).run s = (.error e, (Session.readSettings.run s).2) := by
  rw [replaceEntries, run_bind, readSettings_fst, h]
  rfl

theorem tryOn_replaceEntries_unreadable {α : Type} (c : Catalog α) (entries : List α) {s : Session}
    {e : SettingsError} (h : s.onDisk = .error e) :
    tryOn (Attempt.onSettings (replaceEntries c entries)) s =
      (.error (.settings e), (Session.readSettings.run s).2) := by
  rw [Attempt.onSettings, tryOn_bind_lift, replaceEntries_run_unreadable c entries h]
  rfl

section Replacing

variable {α : Type} (c : Catalog α) (entries : List α) {s : Session} {settings : Settings}
  (h : s.onDisk = .ok settings)
include h

/-- A list of readable settings is replaced by reading them, noting this and writing them. -/
theorem replaceEntries_run : ∃ s₁, Adds [] s s₁ ∧ (replaceEntries c entries).run s =
    match (c.replace entries settings).save s.files s.store.path with
    | .ok files => (.ok (), { s₁ with files })
    | .error e => (.error e, s₁) := by
  let note := log .debug .settings ("Writing " ++ toString entries.length ++ " " ++ c.noun ++ "s")
  let noted := (note.run (Session.readSettings.run s).2).2
  have hadds : Adds [] s noted := (Adds.readSettings s).silent_trans (Adds.log _ _ _ _)
  have hrun : (replaceEntries c entries).run s =
      (writeSettings (c.replace entries settings)).run noted := by
    rw [replaceEntries, run_bind, readSettings_fst, h]
    rfl
  refine ⟨noted, hadds, ?_⟩
  rw [hrun, writeSettings_run, hadds.files_eq, ← hadds.store_eq]

/-- **Replacing a list of readable settings** writes the settings with that list replaced. -/
theorem replaceEntries_run_writable (hwritable : s.files.Writable s.store.path) :
    ∃ s', (replaceEntries c entries).run s = (.ok (), s') ∧
      Saved (c.replace entries settings) s s' := by
  obtain ⟨s₁, hadds, hrun⟩ := replaceEntries_run c entries h
  cases hsave : (c.replace entries settings).save s.files s.store.path with
  | ok files =>
    rw [hsave] at hrun
    exact ⟨{ s₁ with files }, hrun, s₁, files, hadds, rfl, hsave⟩
  | error e =>
    obtain ⟨cause, -, hrefused⟩ := Settings.save_eq_error hsave
    exact absurd hwritable (FileSystem.not_writable hrefused)

/-- Where their file cannot be written this fails, and nothing else happens. -/
theorem replaceEntries_run_unwritable {cause : FileError}
    (hrefused : ∀ c, s.files.write s.store.path c = .error cause) :
    ∃ s', (replaceEntries c entries).run s = (.error (.unwritable s.store.path cause), s') ∧
      Adds [] s s' := by
  obtain ⟨s₁, hadds, hrun⟩ := replaceEntries_run c entries h
  rw [Settings.save, hrefused] at hrun
  exact ⟨s₁, hrun, hadds⟩

theorem tryOn_replaceEntries (hwritable : s.files.Writable s.store.path) :
    ∃ s', tryOn (Attempt.onSettings (replaceEntries c entries)) s = (.ok (), s') ∧
      Saved (c.replace entries settings) s s' := by
  obtain ⟨s', hrun, hsaved⟩ := replaceEntries_run_writable c entries h hwritable
  refine ⟨s', ?_, hsaved⟩
  rw [Attempt.onSettings, tryOn_bind_lift, hrun]
  rfl

theorem tryOn_replaceEntries_unwritable {cause : FileError}
    (hrefused : ∀ c, s.files.write s.store.path c = .error cause) :
    ∃ s', tryOn (Attempt.onSettings (replaceEntries c entries)) s =
      (.error (.settings (.unwritable s.store.path cause)), s') ∧ Adds [] s s' := by
  obtain ⟨s', hrun, hadds⟩ := replaceEntries_run_unwritable c entries h hrefused
  refine ⟨s', ?_, hadds⟩
  rw [Attempt.onSettings, tryOn_bind_lift, hrun]
  rfl

end Replacing

/-! ## Others who write -/

/-- A readable file that somebody writes is read as it was written. -/
theorem OutsideChange.read_write {fs : FileSystem} {path : String} {c : Content}
    (h : fs.read path = .ok c) (c' : Content) :
    (OutsideChange.apply path fs (.write c')).read path = .ok c' := by
  have hfree : ({ fs with refusals := [] } : FileSystem).read path = .ok c :=
    (FileSystem.read_refusals [] path).trans h
  obtain ⟨written, hwrite⟩ := FileSystem.writable_of_read hfree (fun _ _ => rfl) c'
  rw [OutsideChange.apply, hwrite]
  exact (FileSystem.read_refusals fs.refusals path).trans (FileSystem.read_of_write hwrite)

/-- Others leave the refusals as they are. -/
theorem OutsideChange.refusals_apply (path : String) (fs : FileSystem) (change : OutsideChange) :
    (change.apply path fs).refusals = fs.refusals := by
  cases change with
  | write content =>
    rw [apply]
    split <;> rfl
  | delete =>
    rw [apply, FileSystem.delete]
    split
    · split <;> rfl
    · rfl

theorem Session.refusals_answered (s : Session) (k : Nat) :
    (s.answered k).files.refusals = s.files.refusals := by
  refine List.foldlRecOn (s.answers.take k) _
    (motive := fun fs : FileSystem => fs.refusals = s.files.refusals) rfl fun fs h a _ => ?_
  rw [← h, Answer.files]
  cases a.outside with
  | none => rfl
  | some change => exact change.refusals_apply s.store.path fs

/-- Settings in a JSON file are on disk. -/
theorem Session.onDisk_of_json {s : Session} {settings : Settings}
    (hformat : Format.ofPath s.store.path = .json)
    (htext : s.files.read s.store.path = .ok (.text (settings.print .json)))
    (hproblem : settings.problem? = none) : s.onDisk = .ok settings := by
  have hback : settings.ReadsBack (Format.ofPath s.store.path) := by
    rw [hformat]
    exact Settings.parse_print_json settings
  have haccept := Settings.accept_print hback hproblem
  rw [hformat] at haccept
  rw [onDisk, Store.read, Settings.load, FileSystem.readText?, htext]
  exact haccept

namespace Session

/-- A session with a JSON file, in which nobody else writes. -/
def alone (before : Settings) (replies : List Reply) : Session where
  store := { path := "/s.json" }
  files := ({} : FileSystem).place "/s.json" (.file (.text (before.print .json)) false)
  answers := replies.map fun reply => { reply }

/-- A session with a JSON file, in which somebody writes `now` over `before` at the first
    question. -/
def meanwhile (before now : Settings) (first : Reply) (later : List Reply) : Session where
  store := { path := "/s.json" }
  files := ({} : FileSystem).place "/s.json" (.file (.text (before.print .json)) false)
  answers :=
    { reply := first, outside := some (.write (.text (now.print .json))) } ::
      later.map fun reply => { reply }

theorem format_meanwhile : Format.ofPath "/s.json" = .json := by decide +kernel

theorem onDisk_alone {before : Settings} (replies : List Reply) (h : before.problem? = none) :
    (alone before replies).onDisk = .ok before := by
  have hread : (alone before replies).files.read "/s.json" = .ok (.text (before.print .json)) := rfl
  exact onDisk_of_json format_meanwhile hread h

theorem writable_alone (before : Settings) (replies : List Reply) :
    (alone before replies).files.Writable "/s.json" := by
  have hread : (alone before replies).files.read "/s.json" = .ok (.text (before.print .json)) := rfl
  exact FileSystem.writable_of_read hread fun _ _ => rfl

/-- A session with a JSON file that can be read, but not be written. -/
def locked (before : Settings) (cause : FileError) (replies : List Reply) : Session :=
  { alone before replies with
    files := { (alone before replies).files with refusals := [(["s.json"], cause)] } }

theorem onDisk_locked {before : Settings} (cause : FileError) (replies : List Reply)
    (h : before.problem? = none) : (locked before cause replies).onDisk = .ok before := by
  have hread : (locked before cause replies).files.read "/s.json" =
      .ok (.text (before.print .json)) := FileSystem.read_refusals _ _
  exact onDisk_of_json format_meanwhile hread h

theorem write_locked (before : Settings) (cause : FileError) (replies : List Reply) (c : Content) :
    (locked before cause replies).files.write "/s.json" c = .error cause := rfl

section Meanwhile

variable (before now : Settings) (first : Reply) (later : List Reply)

theorem read_meanwhile : (meanwhile before now first later).files.read "/s.json" =
    .ok (.text (before.print .json)) := rfl

theorem files_meanwhile_answered : ((meanwhile before now first later).answered 1).files =
    OutsideChange.apply "/s.json" (meanwhile before now first later).files
      (.write (.text (now.print .json))) := by
  simp only [answered, meanwhile, List.take_succ_cons, List.take_zero, List.foldl_cons,
    List.foldl_nil, Answer.files]

theorem read_meanwhile_answered :
    ((meanwhile before now first later).answered 1).files.read "/s.json" =
      .ok (.text (now.print .json)) := by
  rw [files_meanwhile_answered]
  exact OutsideChange.read_write (read_meanwhile before now first later) _

theorem writable_meanwhile_answered :
    ((meanwhile before now first later).answered 1).files.Writable "/s.json" := by
  refine FileSystem.writable_of_read (read_meanwhile_answered before now first later) fun at' _ => ?_
  rw [FileSystem.refusal?, refusals_answered]
  rfl

variable {before now}

theorem onDisk_meanwhile (h : before.problem? = none) :
    (meanwhile before now first later).onDisk = .ok before :=
  onDisk_of_json format_meanwhile (read_meanwhile before now first later) h

theorem onDisk_meanwhile_answered (h : now.problem? = none) :
    ((meanwhile before now first later).answered 1).onDisk = .ok now :=
  onDisk_of_json format_meanwhile (read_meanwhile_answered before now first later) h

end Meanwhile

end Session

end CommandLauncher
