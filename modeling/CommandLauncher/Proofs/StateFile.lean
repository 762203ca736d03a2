/-
  THE STATE FILE — what opening and closing groups does to the settings.

  1. **Another file** — writing a file leaves what is in every other file.  It stays even if the
     two paths look alike, as long as they lead to different places (`read_after_write`).

  2. **The same file** — nothing keeps a user from giving the settings file the name of the state
     file.  Then the settings file is written over with the expansion state, which reads as
     settings in which everything is left out (`parse_expansion`).

  3. **Groups** — so opening or closing a group leaves the settings on disk as they are, or makes
     them empty (`changeExpansion_onDisk`).
-/
import CommandLauncher.Proofs.Locations
import CommandLauncher.Proofs.Refreshing

namespace CommandLauncher

open Document Session

/-! ## Another file -/

/-- **What is in a file stays** when another file is written; if it goes, then both paths lead to
    the same place. -/
theorem FileSystem.read_after_write {fs written : FileSystem} {path other : String} {c c' : Content}
    (hread : fs.read path = .ok c) (hwrite : fs.write other c' = .ok written) :
    written.read path = .ok c ∨ written.read path = .ok c' ∧
      ∃ at', fs.locate path = .ok at' ∧ fs.locate other = .ok at' ∧
        fs.get? at' ≠ some .directory := by
  obtain ⟨at', x, hat, hget⟩ := read_eq_ok_iff.mp hread
  obtain ⟨there, x', hthere, hdir, -, rfl⟩ := write_eq_ok hwrite
  have hput := get?_put fs there at' (.file c' x') (ne_nil_of_get? hdir)
  have hlocate := locate_put hdir (.file c' x') hat
  by_cases hsame : there = at'
  · subst hsame
    rw [if_pos rfl] at hput
    exact .inr ⟨read_eq_ok_iff.mpr ⟨there, x', hlocate, hput⟩, there, hat, hthere, hdir⟩
  · rw [if_neg hsame] at hput
    exact .inl (read_eq_ok_iff.mpr ⟨at', x, hlocate, hput.trans hget⟩)

/-- The settings on disk are a matter of what is in their file. -/
theorem Session.onDisk_of_read {s s' : Session} (hstore : s'.store = s.store)
    (hread : s'.files.read s.store.path = s.files.read s.store.path) : s'.onDisk = s.onDisk := by
  rw [onDisk, onDisk, Store.read, Store.read, Settings.load, Settings.load, hstore,
    FileSystem.readText?, FileSystem.readText?, hread]

/-! ## The same file -/

theorem isPlain_encodeExpansion (paths : List String) : (encodeExpansion paths).isPlain = true := by
  rw [encodeExpansion, Value.isPlain, Value.arePlainFields, isPlain_texts, Value.arePlainFields,
    Bool.and_self]

/-- No field of the settings is read from an expansion state. -/
theorem Settings.read_encodeExpansion (paths : List String) :
    (Settings.shape Json.dialect).read Json.dialect [] [] (encodeExpansion paths).node =
      .ok {} := by
  rfl

/-- The expansion state reads as settings in which everything is left out. -/
theorem Settings.parse_expansion (e : Expansion) : Settings.parse .json e.print = .ok {} := by
  have hstart : e.print.toList.head? = some '{' := by
    rw [Expansion.print, Value.toJson, String.toList_ofList, encodeExpansion, Value.print]
    rfl
  have hreading := Value.reading_toJson (isPlain_encodeExpansion e.paths) "" Json.Scans.nil
  rw [String.append_empty] at hreading
  rw [Settings.parse, isBlankText_of_head? hstart (by decide)]
  show Json.readRecord (Settings.shape Json.dialect) e.print = .ok {}
  rw [Json.readRecord, Expansion.print, hreading]
  exact bind_of_ok (Settings.read_encodeExpansion e.paths) _

/-- So a settings file with an expansion state in it holds empty settings. -/
theorem onDisk_of_expansion {s : Session} {e : Expansion}
    (hformat : Format.ofPath s.store.path = .json)
    (hread : s.files.read s.store.path = .ok (.text e.print)) : s.onDisk = .ok {} := by
  have haccept : Settings.accept s.store.path e.print = (.ok {}, _) :=
    Settings.accept_of_parse (by rw [hformat]; exact Settings.parse_expansion e) rfl
  rw [onDisk, Store.read, Settings.load, FileSystem.readText?, hread]
  dsimp only
  rw [haccept]

/-- Settings that were on disk are there when the expansion state has been written, unless the file
    is the same; then it has the name of the state file, and there are empty ones. -/
theorem onDisk_of_saveExpansion {s s' : Session} {settings : Settings} {e : Expansion}
    (h : s.onDisk = .ok settings)
    (hsave : e.save s.files (Expansion.pathFor s.store) = .ok s'.files)
    (hstore : s'.store = s.store) :
    s'.onDisk = .ok settings ∨
      s'.onDisk = .ok {} ∧ Path.fileName? s.store.path = some Expansion.fileName := by
  obtain ⟨c, hc⟩ := read_of_onDisk h
  have hwrite : s.files.write (Expansion.pathFor s.store) (.text e.print) = .ok s'.files :=
    ok_of_mapError hsave
  rcases FileSystem.read_after_write hc hwrite with hkept | ⟨hover, at', hsettings, hstate, hdir⟩
  · exact .inl ((onDisk_of_read hstore (hkept.trans hc.symm)).trans h)
  · right
    have hformat := Expansion.format_of_same hsettings hdir hstate
    refine ⟨onDisk_of_expansion (e := e) ?_ ?_, Expansion.fileName_of_same hsettings hdir hstate⟩
    · rw [hstore, hformat]
    · rw [hstore, hover]

/-! ## Groups -/

theorem writeExpansion_run (e : Expansion) (s : Session) :
    (writeExpansion e).run s =
      match e.save s.files (Expansion.pathFor s.store) with
      | .ok files => (.ok (), { s with files })
      | .error cause => (.error cause, s) := by
  rw [writeExpansion, run_bind, show (get : SessionM Session).run s = (s, s) from rfl]
  dsimp only
  cases e.save s.files (Expansion.pathFor s.store) with
  | ok files => rfl
  | error cause => rfl

/-- What is done with an expansion state that has changed. -/
def keepExpansion (e : Expansion) : Attempt Unit := do
  Attempt.onSettings (writeExpansion e)
  Attempt.emit .commands

/-- A changed state that is written is told. -/
theorem tryOn_keepExpansion_saved {e : Expansion} {s : Session} {files : FileSystem}
    (hsave : e.save s.files (Expansion.pathFor s.store) = .ok files) :
    tryOn (keepExpansion e) s = tryOn (Attempt.emit .commands) { s with files } := by
  have hrun := writeExpansion_run e s
  rw [hsave] at hrun
  refine tryOn_bind_ok (a := ()) ?_ _
  rw [Attempt.onSettings, tryOn_bind_lift, hrun]
  rfl

/-- A changed state that cannot be written is a failure. -/
theorem tryOn_keepExpansion_unwritable {e : Expansion} {s : Session} {cause : SettingsError}
    (hsave : e.save s.files (Expansion.pathFor s.store) = .error cause) :
    tryOn (keepExpansion e) s = (.error (.settings cause), s) := by
  have hrun := writeExpansion_run e s
  rw [hsave] at hrun
  refine tryOn_bind_error ?_ _
  rw [Attempt.onSettings, tryOn_bind_lift, hrun]
  rfl

/-- A changed state is written or it is not; then the subscribers may be told. -/
theorem tryOn_keepExpansion (e : Expansion) (s : Session) :
    OnlyAdds s (tryOn (keepExpansion e) s).2 ∨
      ∃ files, e.save s.files (Expansion.pathFor s.store) = .ok files ∧
        OnlyAdds { s with files } (tryOn (keepExpansion e) s).2 := by
  cases hsave : e.save s.files (Expansion.pathFor s.store) with
  | error cause =>
    rw [tryOn_keepExpansion_unwritable hsave]
    exact .inl (OnlyAdds.refl s)
  | ok files =>
    rw [tryOn_keepExpansion_saved hsave]
    exact .inr ⟨files, rfl, OnlyAdds.emit _ _⟩

/-- Changing the expansion state is reading it and keeping what it changed to. -/
theorem tryOn_changeExpansion (change : Expansion → Expansion) (s : Session) :
    tryOn (Attempt.changeExpansion change) s =
      tryOn (if change (readExpansion.run s).1 ≠ (readExpansion.run s).1
          then keepExpansion (change (readExpansion.run s).1) else pure ())
        (readExpansion.run s).2 := by
  rw [Attempt.changeExpansion, tryOn_bind_lift]
  rfl

/-- **Opening or closing a group** leaves the settings on disk, or empties them. -/
theorem changeExpansion_onDisk (change : Expansion → Expansion) {s : Session} {settings : Settings}
    (h : s.onDisk = .ok settings) :
    let after := (tryOn (Attempt.changeExpansion change) s).2
    after.store = s.store ∧ (after.onDisk = .ok settings ∨ after.onDisk = .ok {}) := by
  intro after
  let found := (readExpansion.run s).1
  let s₁ := (readExpansion.run s).2
  have hread : OnlyAdds s s₁ := (Calm.readExpansion s).onlyAdds
  have honDisk : s₁.onDisk = .ok settings := hread.onDisk_eq.trans h
  have hafter : after =
      (tryOn (if change found ≠ found then keepExpansion (change found) else pure ()) s₁).2 :=
    congrArg Prod.snd (tryOn_changeExpansion change s)
  rw [hafter]
  split
  · rcases tryOn_keepExpansion (change found) s₁ with hadds | ⟨files, hsave, hadds⟩
    · exact ⟨hadds.store_eq.trans hread.store_eq, .inl (hadds.onDisk_eq.trans honDisk)⟩
    · refine ⟨hadds.store_eq.trans hread.store_eq, ?_⟩
      exact (onDisk_of_saveExpansion honDisk (hsave.trans (congrArg _ hadds.files_eq.symm))
        hadds.store_eq).imp_right And.left
  · exact ⟨hread.store_eq, .inl honDisk⟩

end CommandLauncher
