/-
  WRITING LISTS — a written list replaces the one in the file, and all else is kept.

  1. **Writes** — a write puts a list of variables, or a list of commands, into the settings file.
     What it makes of the settings that it finds there is `into`.

  2. **One write** — if the settings can be read and their file can be written, it then holds them
     with the one list replaced (`write_run`).  Otherwise the write fails, and no file changes
     (`write_run_unreadable`, `write_run_unwritable`).

  3. **Many writes** — a file that was written can be written again.  Of each kind the last list
     counts (`lastList?`).  One more write puts its own list over the last one of its kind and
     leaves that of the other kind (`settled_snoc`), and by induction on the writes this is what
     the file holds after any of them (`onDisk_written`).
-/
import CommandLauncher.Proofs.Parts
import Mathlib.Data.List.Induction

namespace CommandLauncher

open Session

/-! ## Writes -/

/-- A list that is to replace the one in the settings file. -/
structure ListWrite where
  part : Part
  entries : List part.Entry

namespace ListWrite

/-- Write the list. -/
def run (w : ListWrite) : SessionM (Except SettingsError Unit) :=
  replaceEntries w.part.catalog w.entries

/-- Every entry may stand in usable settings. -/
def Usable (w : ListWrite) : Prop := ∀ e ∈ w.entries, Part.Usable e

/-- The settings with the list in its place. -/
def into : ListWrite → Settings → Settings
  | ⟨.vars, vars⟩, s => { s with vars }
  | ⟨.commands, commands⟩, s => { s with commands }

/-- The list, if it is of this kind. -/
def list? : (p : Part) → ListWrite → Option (List p.Entry)
  | .vars, ⟨.vars, vars⟩ => some vars
  | .commands, ⟨.commands, commands⟩ => some commands
  | _, _ => none

/-- The last list of a kind. -/
def lastList? (p : Part) (ws : List ListWrite) : Option (List p.Entry) :=
  (ws.filterMap (list? p)).getLast?

/-- The settings with the last list of each kind in its place. -/
def settled (ws : List ListWrite) (s : Settings) : Settings :=
  { s with
    vars := (lastList? .vars ws).getD s.vars
    commands := (lastList? .commands ws).getD s.commands }

theorem into_eq (w : ListWrite) (s : Settings) :
    w.into s = w.part.catalog.replace w.entries s := by
  obtain ⟨p, entries⟩ := w
  cases p <;> rfl

theorem lastList?_snoc (p : Part) (ws : List ListWrite) (w : ListWrite) :
    lastList? p (ws ++ [w]) = (list? p w).or (lastList? p ws) := by
  have hone : ([w].filterMap (list? p)).getLast? = list? p w := by
    cases h : list? p w <;> simp [h]
  rw [lastList?, List.filterMap_append, List.getLast?_append, hone, lastList?]

/-- One more write puts its list over the last one of its kind. -/
theorem settled_snoc (ws : List ListWrite) (w : ListWrite) (s : Settings) :
    settled (ws ++ [w]) s = w.into (settled ws s) := by
  rw [settled, lastList?_snoc, lastList?_snoc]
  obtain ⟨p, entries⟩ := w
  cases p <;> rfl

theorem problem?_into {w : ListWrite} (hw : w.Usable) {s : Settings} (hs : s.problem? = none) :
    (w.into s).problem? = none := by
  rw [into_eq]
  exact Part.problem?_replace hs fun e he => .inr (hw e he)

end ListWrite

/-- The session after some lists have been written, one after another. -/
def Session.written (s : Session) (ws : List ListWrite) : Session :=
  ws.foldl (fun s w => (w.run.run s).2) s

/-! ## One write -/

namespace ListWrite

variable {s : Session} {before : Settings} {ws : List ListWrite} {w : ListWrite}

/-- A list that goes into readable settings is written, if their file can be written. -/
theorem write_run (h : s.onDisk = .ok before) (hwritable : s.files.Writable s.store.path)
    (w : ListWrite) : ∃ s', w.run.run s = (.ok (), s') ∧ Saved (w.into before) s s' := by
  rw [into_eq]
  exact replaceEntries_run_writable w.part.catalog w.entries h hwritable

/-- If it cannot, the write comes to the cause, and no file changes. -/
theorem write_run_unwritable {cause : FileError} (h : s.onDisk = .ok before)
    (hrefused : ∀ c, s.files.write s.store.path c = .error cause) (w : ListWrite) :
    (w.run.run s).1 = .error (.unwritable s.store.path cause) ∧
      (w.run.run s).2.files = s.files := by
  obtain ⟨s', hrun, hadds⟩ := replaceEntries_run_unwritable w.part.catalog w.entries h hrefused
  rw [run, hrun]
  exact ⟨rfl, hadds.files_eq⟩

/-- If the settings cannot be read, that is what the write comes to, and no file changes. -/
theorem write_run_unreadable {e : SettingsError} (h : s.onDisk = .error e) (w : ListWrite) :
    (w.run.run s).1 = .error e ∧ (w.run.run s).2.files = s.files := by
  rw [run, replaceEntries_run_unreadable w.part.catalog w.entries h]
  exact ⟨rfl, (Adds.readSettings s).files_eq⟩

/-- The writes that succeed. -/
theorem write_run_eq_ok (h : s.onDisk = .ok before) (w : ListWrite) :
    (w.run.run s).1 = .ok () ↔ s.files.Writable s.store.path := by
  rcases s.files.writable_or s.store.path with hwritable | ⟨cause, hrefused⟩
  · obtain ⟨s', hrun, -⟩ := write_run h hwritable w
    exact iff_of_true (by rw [hrun]) hwritable
  · obtain ⟨hresult, -⟩ := write_run_unwritable h hrefused w
    exact iff_of_false (by rw [hresult]; nofun) (FileSystem.not_writable hrefused)

theorem written_snoc (s : Session) (ws : List ListWrite) (w : ListWrite) :
    s.written (ws ++ [w]) = (w.run.run (s.written ws)).2 := by
  rw [written, List.foldl_append]
  rfl

/-- What is on disk after one write, and can be written again. -/
theorem onDisk_write (h : s.onDisk = .ok before) (hwritable : s.files.Writable s.store.path)
    (hw : w.Usable) (hyaml : (w.run.run s).2.files.YamlReadsBack s.store.path) :
    (w.run.run s).2.onDisk = .ok (w.into before) ∧ (w.run.run s).2.store = s.store ∧
      (w.run.run s).2.files.Writable s.store.path := by
  obtain ⟨s', hrun, hsaved⟩ := write_run h hwritable w
  rw [hrun] at hyaml ⊢
  exact ⟨hsaved.onDisk_of_yamlReadsBack hyaml (problem?_into hw (problem?_of_onDisk h)),
    hsaved.store_eq, hsaved.writable⟩

/-! ## Many writes -/

/-- What is on disk after any writes, and can be written again. -/
theorem onDisk_written (h : s.onDisk = .ok before) (hwritable : s.files.Writable s.store.path)
    (hws : ∀ w ∈ ws, w.Usable)
    (hyaml : ∀ done, done <+: ws → (s.written done).files.YamlReadsBack s.store.path) :
    (s.written ws).onDisk = .ok (settled ws before) ∧ (s.written ws).store = s.store ∧
      (s.written ws).files.Writable s.store.path := by
  induction ws using List.reverseRecOn with
  | nil => exact ⟨h, rfl, hwritable⟩
  | append_singleton ws w ih =>
    obtain ⟨hws, hw⟩ := List.forall_mem_append.mp hws
    obtain ⟨honDisk, hstore, hstill⟩ := ih hws fun done hdone =>
      hyaml done (hdone.trans (List.prefix_append ws [w]))
    have hlast := hyaml _ (List.prefix_refl (ws ++ [w]))
    rw [written_snoc, ← hstore] at hlast
    rw [← hstore] at hstill
    obtain ⟨hwritten, hstore', hagain⟩ :=
      onDisk_write honDisk hstill (hw w (List.mem_singleton_self w)) hlast
    rw [written_snoc, settled_snoc]
    exact ⟨hwritten, hstore'.trans hstore, hstore ▸ hagain⟩

end ListWrite

open ListWrite in
/-- **The stored list is replaced, and all else is kept.**  A list is written into readable
    settings just where their file can be written.  It is then read from the file in place of the
    earlier one, and everything else in them is read as before.  After any writes, in any order,
    the file holds the last list of each kind and the other settings from the beginning.  If a
    write fails, the settings could not be read or their file could not be written, and no file
    changes.  (Of YAML it is assumed that what was written is read back.) -/
theorem lists_written :
    (∀ (s : Session) (before : Settings) (w : ListWrite), s.onDisk = .ok before →
      ((w.run.run s).1 = .ok () ↔ s.files.Writable s.store.path) ∧
      (w.Usable → (w.run.run s).2.files.YamlReadsBack s.store.path → (w.run.run s).1 = .ok () →
        (w.run.run s).2.onDisk = .ok (w.into before))) ∧
    (∀ (s : Session) (before : Settings) (ws : List ListWrite), s.onDisk = .ok before →
      s.files.Writable s.store.path → (∀ w ∈ ws, w.Usable) →
      (∀ done, done <+: ws → (s.written done).files.YamlReadsBack s.store.path) →
        (∀ done w, done ++ [w] <+: ws → (w.run.run (s.written done)).1 = .ok ()) ∧
        (s.written ws).onDisk = .ok { before with
          vars := (lastList? .vars ws).getD before.vars
          commands := (lastList? .commands ws).getD before.commands }) ∧
    ∀ (s : Session) (w : ListWrite) (e : SettingsError), (w.run.run s).1 = .error e →
      (s.onDisk = .error e ∨ ∃ cause, e = .unwritable s.store.path cause ∧
        ∀ c, s.files.write s.store.path c = .error cause) ∧
      (w.run.run s).2.files = s.files := by
  refine ⟨fun s before w hread => ⟨write_run_eq_ok hread w, fun hw hyaml hdone => ?_⟩,
    fun s before ws hread hwritable hws hyaml => ⟨fun done w hdone => ?_, ?_⟩,
    fun s w e hfail => ?_⟩
  · exact (onDisk_write hread ((write_run_eq_ok hread w).mp hdone) hw hyaml).1
  · have hdone' : done <+: ws := (List.prefix_append done [w]).trans hdone
    obtain ⟨honDisk, hstore, hstill⟩ := onDisk_written hread hwritable
      (fun w hw => hws w (hdone'.subset hw)) fun first hfirst => hyaml first (hfirst.trans hdone')
    rw [← hstore] at hstill
    exact (write_run_eq_ok honDisk w).mpr hstill
  · exact (onDisk_written hread hwritable hws hyaml).1
  · cases hread : s.onDisk with
    | error e' =>
      obtain ⟨hresult, hfiles⟩ := write_run_unreadable hread w
      rw [hresult] at hfail
      exact ⟨.inl (congrArg Except.error (Except.error.inj hfail)), hfiles⟩
    | ok before =>
      rcases s.files.writable_or s.store.path with hwritable | ⟨cause, hrefused⟩
      · rw [(write_run_eq_ok hread w).mpr hwritable] at hfail
        cases hfail
      · obtain ⟨hresult, hfiles⟩ := write_run_unwritable hread hrefused w
        rw [hresult] at hfail
        exact ⟨.inr ⟨cause, (Except.error.inj hfail).symm, hrefused⟩, hfiles⟩

/-- Two lists of variables are written with a list of commands between them; the order, the colour
    and the shell stay.  None of them is written where there is no settings file. -/
theorem lists_written_between :
    let before : Settings :=
      { sortOrder := .alphabetical, commandIconColor := "red", shell := some "sh",
        vars := [.fixed "a" "1"], commands := [{ title := "x", command := "ls" }] }
    let ws : List ListWrite :=
      [⟨.vars, [.fixed "b" "2"]⟩, ⟨.commands, [{ title := "y", command := "pwd" }]⟩, ⟨.vars, []⟩]
    let nowhere : Session := { store := { path := "/s.json" } }
    ((alone before []).written ws).onDisk =
      .ok { before with vars := [], commands := [{ title := "y", command := "pwd" }] } ∧
    ∀ w ∈ ws, (w.run.run (alone before [])).2.onDisk = .ok (w.into before) ∧
      (w.run.run nowhere).1 = .error (.notFound "/s.json") ∧
      (w.run.run nowhere).2.files = nowhere.files := by
  intro before ws nowhere
  obtain ⟨hone, hmany, hfail⟩ := lists_written
  have hread : (alone before []).onDisk = .ok before := onDisk_alone [] (by decide +kernel)
  have hyaml : ∀ fs : FileSystem, fs.YamlReadsBack "/s.json" :=
    FileSystem.yamlReadsBack_of_json format_meanwhile
  have husable : ∀ w ∈ ws, w.Usable := by
    refine List.forall_mem_cons.mpr ⟨fun _ _ => trivial, List.forall_mem_cons.mpr ⟨?_,
      List.forall_mem_singleton.mpr fun _ _ => trivial⟩⟩
    exact List.forall_mem_singleton.mpr ⟨by decide +kernel, by decide +kernel⟩
  have hnowhere : nowhere.onDisk = .error (.notFound "/s.json") := by
    have hnone : nowhere.files.readText? nowhere.store.path = none := by decide +kernel
    rw [onDisk, Store.read, Settings.load, hnone]
  have hwritable : (alone before []).files.Writable (alone before []).store.path :=
    writable_alone before []
  refine ⟨(hmany _ before ws hread hwritable husable fun _ _ => hyaml _).2, fun w hw => ?_⟩
  have hresult := (ListWrite.write_run_unreadable hnowhere w).1
  obtain ⟨hsucceeds, hreplaced⟩ := hone _ before w hread
  exact ⟨hreplaced (husable w hw) (hyaml _) (hsucceeds.mpr hwritable), hresult,
    (hfail nowhere w _ hresult).2⟩

end CommandLauncher
