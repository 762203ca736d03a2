/-
  FAILED TOGGLES — what is left of opening or closing a group that was reported as a failure.

  1. **Two ways to fail** — a toggle writes the changed paths first, and then reads the settings to
     tell the subscribers of them.  It can fail at either (`FailedToggle`).  With the paths as they
     are it does neither, and does not fail.

  2. **What is left** — paths that could not be written leave all files as they are.  Settings that
     cannot be read come too late for that: by then the state file has the changed paths.  Settings
     that can be read before can still be read then (`onDisk_of_saveExpansion`), so a toggle that
     starts from these leaves all files if it fails (`failed_toggle_keeps`).
-/
import CommandLauncher.Proofs.Reporting
import CommandLauncher.Proofs.Toggling

namespace CommandLauncher

open Session

/-! ## Two ways to fail -/

/-- The expansion state that a toggle makes of the one in the state file. -/
def Toggle.changed (t : Toggle) (s : Session) : Expansion := { paths := t.apply s.expandedPaths }

/-- How a toggle fails: its paths are not written, or they are and then nobody can be told. -/
inductive FailedToggle (t : Toggle) (s s' : Session) : Prop where
  | unwritten (cause : SettingsError)
      (hsave : (t.changed s).save s.files (Expansion.pathFor s.store) = .error cause)
      (hfiles : s'.files = s.files)
  | untold (cause : SettingsError) (hpaths : t.apply s.expandedPaths ≠ s.expandedPaths)
      (hsave : (t.changed s).save s.files (Expansion.pathFor s.store) = .ok s'.files)
      (honDisk : s'.onDisk = .error cause)

section Failing

variable {t : Toggle} {s : Session}

/-- A toggle that does not change the paths does not fail. -/
theorem noFailure_same (hpaths : t.apply s.expandedPaths = s.expandedPaths) :
    NoFailure s (s.after t.action) := by
  rw [after, perform_of_ok (t.tryOn_same hpaths)]
  exact NoFailure.of_calm (Calm.readExpansion s)

/-- One that writes them does not fail if the settings can be read behind that. -/
theorem noFailure_told {files : FileSystem} {settings : Settings}
    (hpaths : t.apply s.expandedPaths ≠ s.expandedPaths)
    (hsave : (t.changed s).save s.files (Expansion.pathFor s.store) = .ok files)
    (honDisk : ({ (readExpansion.run s).2 with files } : Session).onDisk = .ok settings) :
    NoFailure s (s.after t.action) := by
  obtain ⟨hok, hcalm⟩ := emit_readable .commands honDisk
  rw [← t.tryOn_written hpaths hsave] at hok hcalm
  rw [after, perform_of_ok (Prod.ext hok rfl)]
  -- writing a file adds no event to those of reading the state
  obtain ⟨es, hes, hnone⟩ := NoFailure.of_calm (Calm.readExpansion s)
  have hwritten : NoFailure s { (readExpansion.run s).2 with files } := ⟨es, hes, hnone⟩
  exact hwritten.trans (NoFailure.of_calm hcalm)

/-- A toggle that was reported as a failure failed in one of the two ways. -/
theorem failed_toggle (hfailed : ¬ NoFailure s (s.after t.action)) :
    (s.after t.action).store = s.store ∧ FailedToggle t s (s.after t.action) := by
  have hread : OnlyAdds s (readExpansion.run s).2 := (Calm.readExpansion s).onlyAdds
  have hafter := OnlyAdds.perform t.action s
  have hpaths : t.apply s.expandedPaths ≠ s.expandedPaths := mt noFailure_same hfailed
  cases hsave : (t.changed s).save s.files (Expansion.pathFor s.store) with
  | error cause =>
    rw [t.tryOn_unwritable hpaths hsave] at hafter
    have hsame := hread.trans hafter
    exact ⟨hsame.store_eq, .unwritten cause hsave hsame.files_eq⟩
  | ok files =>
    cases honDisk : ({ (readExpansion.run s).2 with files } : Session).onDisk with
    | ok settings => exact absurd (noFailure_told hpaths hsave honDisk) hfailed
    | error cause =>
      rw [t.tryOn_written hpaths hsave] at hafter
      have hend := (OnlyAdds.emit .commands { (readExpansion.run s).2 with files }).trans hafter
      refine ⟨hend.store_eq.trans hread.store_eq,
        .untold cause hpaths ?_ (hend.onDisk_eq.trans honDisk)⟩
      rw [hsave, show (s.after t.action).files = files from hend.files_eq]

end Failing

/-! ## What is left -/

/-- A failure among the events is reported. -/
theorem not_noFailure_of_any {s s' : Session} (hstart : s.events = [])
    (hreported : s'.events.any Event.isFailure = true) : ¬ NoFailure s s' := by
  rintro ⟨es, hes, hnone⟩
  obtain ⟨e, he, hfailure⟩ := List.any_eq_true.mp hreported
  rw [hes, hstart, List.nil_append] at he
  rw [hnone e he] at hfailure
  cases hfailure

/-- **A failed toggle leaves all files as they were** if the settings could be read before it.  In
    any case the state file keeps what was in it exactly if the changed paths could not be written;
    if they could, they are what a failed toggle leaves there, and the settings still cannot be
    read. -/
theorem failed_toggle_keeps (s : Session) (t : Toggle)
    (hfailed : ¬ NoFailure s (s.after t.action)) :
    let after := s.after t.action
    let path := Expansion.pathFor s.store
    ((∃ settings, s.onDisk = .ok settings) → after.files = s.files) ∧
    (after.files.read path = s.files.read path ↔
      ∃ cause, (t.changed s).save s.files path = .error cause) ∧
    ∀ saved, (t.changed s).save s.files path = .ok saved →
      after.files = saved ∧ after.files.read path = .ok (.text (t.changed s).print) ∧
        ∃ cause, after.onDisk = .error cause := by
  intro after path
  obtain ⟨hstore, hfailure⟩ := failed_toggle hfailed
  cases hfailure with
  | unwritten cause hsave hfiles =>
    refine ⟨fun _ => hfiles, ?_, fun saved hsaved => ?_⟩
    · rw [show after.files = s.files from hfiles]
      exact iff_of_true rfl ⟨cause, hsave⟩
    · cases hsave.symm.trans hsaved
  | untold cause hpaths hsave honDisk =>
    have hread : after.files.read path = .ok (.text (t.changed s).print) :=
      FileSystem.read_of_write (ok_of_mapError hsave)
    refine ⟨?_, iff_of_false ?_ ?_, fun saved hsaved => ?_⟩
    · rintro ⟨settings, hsettings⟩
      rcases onDisk_of_saveExpansion hsettings hsave hstore with hkept | ⟨hempty, -⟩
      · cases hkept.symm.trans honDisk
      · cases hempty.symm.trans honDisk
    · -- what is in the file now is read as other paths
      intro hsame
      have hloaded : Expansion.load after.files path = Expansion.load s.files path := by
        rw [Expansion.load, Expansion.load, FileSystem.readText?, FileSystem.readText?, hsame]
      rw [Expansion.load_saved hsave] at hloaded
      exact hpaths (congrArg (fun loaded => loaded.1.paths) hloaded)
    · rintro ⟨cause, hunwritten⟩
      cases hsave.symm.trans hunwritten
    · obtain rfl := Except.ok.inj (hsave.symm.trans hsaved)
      exact ⟨rfl, hread, cause, honDisk⟩

/-- The paths cannot be written since there is a directory in the place of the state file. -/
theorem failed_toggle_keeps_directory :
    let s : Session :=
      { store := { path := "/s.json" }
        files := (({} : FileSystem).place "/s.json" (.file (.text "\x7b\x7d") false)).place
          "/.termdeck-state.json" .directory }
    ¬ NoFailure s (s.after (.expand "a")) ∧ s.onDisk = .ok {} ∧
      (s.after (.expand "a")).files = s.files := by
  intro s
  have hread : s.onDisk = .ok {} := by decide +kernel
  have hfailed : ¬ NoFailure s (s.after (.expand "a")) :=
    not_noFailure_of_any rfl (by decide +kernel)
  obtain ⟨hkeeps, -, -⟩ := failed_toggle_keeps s ⟨"a", true⟩ hfailed
  exact ⟨hfailed, hread, hkeeps ⟨_, hread⟩⟩

/-- The settings cannot be read, which is reported; but by then the state file is there. -/
theorem failed_toggle_writes :
    let s : Session :=
      { store := { path := "/s.json" }
        files := ({} : FileSystem).place "/s.json" (.file (.text "\x7b") false) }
    let after := s.after (.expand "a")
    ¬ NoFailure s after ∧ Expansion.pathFor s.store = "/.termdeck-state.json" ∧
      s.files.readText? "/.termdeck-state.json" = none ∧
      after.files.readText? "/.termdeck-state.json" =
        some (Expansion.print { paths := ["a"] }) := by
  intro s after
  refine ⟨not_noFailure_of_any rfl ?_, ?_, rfl, ?_⟩
  · decide +kernel
  · decide +kernel
  · decide +kernel

end CommandLauncher
