/-
  TOGGLING — the state file over any number of openings and closings, as an ordered set of paths.

  1. **The text** — what the expansion state is written as is read as the same state, whatever the
     paths are (`Expansion.parse_print`).

  2. **The list** — opening a group appends its path unless it is there, closing one drops all its
     occurrences.  A list of such toggles leaves the paths whose last toggle opened them, and of
     the others those that were there (`mem_applyAll`); distinct paths stay distinct.

  3. **The file** — a toggle writes the state file exactly if it changes the list (`toggle_step`).
     By induction the list in the file is the one that the toggles make of the list that was
     there at the start (`toggled_run`), also where this start is a file that is not there or not
     a state at all.
-/
import CommandLauncher.Proofs.StateFile

namespace CommandLauncher

open Document Session

/-! ## The text -/

namespace Expansion

/-- The paths are read from a node that holds what they are written as. -/
theorem read_encode {α : Type} {d : Dialect α} {leaf? : α → Option Value} (hd : d.Faithful leaf?)
    (record place : Place) {n : Node α} (paths : List String)
    (h : n.value? leaf? = some (encodeExpansion paths)) :
    (expansionShape d).read d record place n = .ok paths := by
  have hexpanded : Reads d leaf? (expansionShape d) place ["expanded"] ["expanded"]
      [("expanded", .texts paths)] [] paths :=
    Reads.field hd rfl fun _ hn => hd.readList _ _ (fun r p _ _ => hd.readText r p) hn
  exact hexpanded.read hd h [] rfl (by decide)

/-- **An expansion state that is printed is read as the same state.** -/
theorem parse_print (e : Expansion) : parse e.print = .ok e := by
  have hplain := isPlain_encodeExpansion e.paths
  have hreading := Value.reading_toJson hplain "" Json.Scans.nil
  rw [String.append_empty] at hreading
  have hread := read_encode Json.dialect_faithful [] [] e.paths (Value.value?_node _ hplain)
  have hrecord : Json.readRecord (expansionShape Json.dialect) e.print = .ok e.paths := by
    rw [Json.readRecord, print, hreading]
    exact bind_of_ok hread _
  rw [parse, hrecord]
  rfl

/-- An expansion state that was saved is loaded. -/
theorem load_saved {e : Expansion} {fs saved : FileSystem} {path : String}
    (h : e.save fs path = .ok saved) : load saved path = (e, none) := by
  have hwrite : fs.write path (.text e.print) = .ok saved := ok_of_mapError h
  rw [load, FileSystem.readText?, FileSystem.read_of_write hwrite]
  dsimp only
  rw [parse_print]

end Expansion

/-- Every expansion state can be saved where anything can be written. -/
theorem FileSystem.Writable.save {fs : FileSystem} {path : String} (h : fs.Writable path)
    (e : Expansion) : ∃ saved, e.save fs path = .ok saved := by
  obtain ⟨saved, hwrite⟩ := h (.text e.print)
  refine ⟨saved, ?_⟩
  rw [Expansion.save, hwrite]
  rfl

/-! ## The list -/

/-- Opening or closing the group with a path. -/
structure Toggle where
  path : String
  opens : Bool
deriving DecidableEq, Repr

namespace Toggle

/-- What the user asks for. -/
def action (t : Toggle) : Action := if t.opens then .expand t.path else .collapse t.path

/-- The paths after a toggle. -/
def apply (t : Toggle) (paths : List String) : List String :=
  if t.opens then if t.path ∈ paths then paths else paths ++ [t.path]
  else paths.filter fun p => p ≠ t.path

/-- The paths after some toggles. -/
def applyAll (toggles : List Toggle) (paths : List String) : List String :=
  toggles.foldl (fun paths t => t.apply paths) paths

theorem mem_apply {t : Toggle} {paths : List String} {path : String} :
    path ∈ t.apply paths ↔ t.path = path ∧ t.opens = true ∨ t.path ≠ path ∧ path ∈ paths := by
  rw [apply]
  by_cases hpath : t.path = path
  · subst hpath
    cases t.opens with
    | true => by_cases hmem : t.path ∈ paths <;> simp [hmem]
    | false => simp
  · have hne : path ≠ t.path := Ne.symm hpath
    cases t.opens with
    | true => by_cases hmem : t.path ∈ paths <;> simp [hmem, hpath, hne]
    | false => simp [hpath, hne]

theorem nodup_apply (t : Toggle) {paths : List String} (h : paths.Nodup) : (t.apply paths).Nodup := by
  rw [apply]
  split
  · split
    · exact h
    · rename_i hmem
      refine List.nodup_append.mpr ⟨h, by simp, fun a ha b hb => ?_⟩
      obtain rfl := List.mem_singleton.mp hb
      exact fun heq => hmem (heq ▸ ha)
  · exact h.filter _

/-- The last of some toggles of a path opened it. -/
def LastOpens (toggles : List Toggle) (path : String) : Prop :=
  ∃ earlier t later, toggles = earlier ++ t :: later ∧ t.path = path ∧ t.opens = true ∧
    ∀ u ∈ later, u.path ≠ path

theorem lastOpens_cons {t : Toggle} {rest : List Toggle} {path : String} :
    LastOpens (t :: rest) path ↔ LastOpens rest path ∨
      (t.path = path ∧ t.opens = true) ∧ ∀ u ∈ rest, u.path ≠ path := by
  constructor
  · rintro ⟨earlier, u, later, h, hpath, hopens, hlater⟩
    rcases List.cons_eq_append_iff.mp h with ⟨-, h⟩ | ⟨earlier', -, h⟩
    · obtain ⟨rfl, rfl⟩ := List.cons.inj h
      exact .inr ⟨⟨hpath, hopens⟩, hlater⟩
    · exact .inl ⟨earlier', u, later, h, hpath, hopens, hlater⟩
  · rintro (⟨earlier, u, later, rfl, hu⟩ | ⟨⟨hpath, hopens⟩, hrest⟩)
    · exact ⟨t :: earlier, u, later, rfl, hu⟩
    · exact ⟨[], t, rest, rfl, hpath, hopens, hrest⟩

/-- **A path is there after some toggles** if the last one that is about it opened it, or if none
    is about it and it was there. -/
theorem mem_applyAll (toggles : List Toggle) (path : String) : ∀ paths : List String,
    path ∈ applyAll toggles paths ↔
      LastOpens toggles path ∨ (∀ t ∈ toggles, t.path ≠ path) ∧ path ∈ paths := by
  induction toggles with
  | nil =>
    intro paths
    have hnone : ¬ LastOpens [] path := by
      rintro ⟨earlier, t, later, h, -⟩
      simp at h
    simp [applyAll, hnone]
  | cons t rest ih =>
    intro paths
    rw [applyAll, List.foldl_cons, ← applyAll, ih, mem_apply, lastOpens_cons, List.forall_mem_cons]
    grind

theorem nodup_applyAll (toggles : List Toggle) : ∀ {paths : List String}, paths.Nodup →
    (applyAll toggles paths).Nodup := by
  induction toggles with
  | nil => exact id
  | cons t rest ih => exact fun h => ih (t.nodup_apply h)

end Toggle

/-! ## The file -/

/-- What a toggle does to an expansion state. -/
def Toggle.change (t : Toggle) (e : Expansion) : Expansion := { paths := t.apply e.paths }

theorem Toggle.attempt_action (t : Toggle) : t.action.attempt = Attempt.changeExpansion t.change := by
  obtain ⟨path, opens⟩ := t
  cases opens with
  | true =>
    have hchange : Toggle.change ⟨path, true⟩ = fun e => e.expand path := by
      funext e
      rw [change, apply, Expansion.expand, Expansion.isExpanded, if_pos rfl]
      by_cases h : path ∈ e.paths <;> simp [h]
    rw [hchange]
    rfl
  | false => rfl

namespace Session

/-- The expanded paths as the state file has them. -/
def expandedPaths (s : Session) : List String :=
  (Expansion.load s.files (Expansion.pathFor s.store)).1.paths

/-- The session after some toggles. -/
def toggled (s : Session) (toggles : List Toggle) : Session :=
  toggles.foldl (fun s t => s.after t.action) s

end Session

theorem readExpansion_fst (s : Session) :
    (readExpansion.run s).1 = (Expansion.load s.files (Expansion.pathFor s.store)).1 := by
  rw [readExpansion, run_bind]
  dsimp only
  split <;> rfl

/-- The paths in the state file are a matter of the store and the files. -/
theorem expandedPaths_congr {s s' : Session} (hstore : s'.store = s.store)
    (hfiles : s'.files = s.files) : s'.expandedPaths = s.expandedPaths := by
  rw [expandedPaths, expandedPaths, hstore, hfiles]

section Attempting

variable (t : Toggle) {s : Session}

theorem Toggle.change_eq_iff :
    t.change (readExpansion.run s).1 = (readExpansion.run s).1 ↔
      t.apply s.expandedPaths = s.expandedPaths := by
  rw [readExpansion_fst]
  exact ⟨congrArg Expansion.paths, congrArg Expansion.mk⟩

/-- A toggle that does not change the paths only reads them. -/
theorem Toggle.tryOn_same (hpaths : t.apply s.expandedPaths = s.expandedPaths) :
    tryOn t.action.attempt s = (.ok (), (readExpansion.run s).2) := by
  have hsame : ¬ t.change (readExpansion.run s).1 ≠ (readExpansion.run s).1 :=
    not_not_intro (t.change_eq_iff.mpr hpaths)
  rw [t.attempt_action, tryOn_changeExpansion, if_neg hsame]
  rfl

section Changed

variable (hpaths : t.apply s.expandedPaths ≠ s.expandedPaths)

include hpaths

theorem Toggle.tryOn_keeps :
    tryOn t.action.attempt s =
      tryOn (keepExpansion { paths := t.apply s.expandedPaths }) (readExpansion.run s).2 := by
  have hchanged : t.change (readExpansion.run s).1 ≠ (readExpansion.run s).1 :=
    mt t.change_eq_iff.mp hpaths
  have hnew : t.change (readExpansion.run s).1 = { paths := t.apply s.expandedPaths } := by
    rw [readExpansion_fst]
    rfl
  rw [t.attempt_action, tryOn_changeExpansion, if_pos hchanged, hnew]

/-- A toggle that changes the paths and writes them tells of it. -/
theorem Toggle.tryOn_written {files : FileSystem}
    (hsave : ({ paths := t.apply s.expandedPaths } : Expansion).save s.files
      (Expansion.pathFor s.store) = .ok files) :
    tryOn t.action.attempt s =
      tryOn (Attempt.emit .commands) { (readExpansion.run s).2 with files } := by
  have hread : OnlyAdds s (readExpansion.run s).2 := (Calm.readExpansion s).onlyAdds
  rw [t.tryOn_keeps hpaths]
  refine tryOn_keepExpansion_saved ?_
  rw [hread.files_eq, hread.store_eq]
  exact hsave

/-- A toggle that changes the paths and cannot write them fails. -/
theorem Toggle.tryOn_unwritable {cause : SettingsError}
    (hsave : ({ paths := t.apply s.expandedPaths } : Expansion).save s.files
      (Expansion.pathFor s.store) = .error cause) :
    tryOn t.action.attempt s = (.error (.settings cause), (readExpansion.run s).2) := by
  have hread : OnlyAdds s (readExpansion.run s).2 := (Calm.readExpansion s).onlyAdds
  rw [t.tryOn_keeps hpaths]
  refine tryOn_keepExpansion_unwritable ?_
  rw [hread.files_eq, hread.store_eq]
  exact hsave

end Changed

end Attempting

/-- What a toggle does to a session: if it leaves the paths as they are it leaves all files, and
    otherwise it writes the new paths to the state file. -/
inductive Toggles (t : Toggle) (s s' : Session) : Prop where
  | same (hpaths : t.apply s.expandedPaths = s.expandedPaths) (hfiles : s'.files = s.files)
  | written (hpaths : t.apply s.expandedPaths ≠ s.expandedPaths)
      (hsave : ({ paths := t.apply s.expandedPaths } : Expansion).save s.files
        (Expansion.pathFor s.store) = .ok s'.files)

theorem toggle_step (t : Toggle) {s : Session}
    (hwritable : s.files.Writable (Expansion.pathFor s.store)) :
    (s.after t.action).store = s.store ∧ Toggles t s (s.after t.action) := by
  have hread : OnlyAdds s (readExpansion.run s).2 := (Calm.readExpansion s).onlyAdds
  have hafter := OnlyAdds.perform t.action s
  by_cases hpaths : t.apply s.expandedPaths = s.expandedPaths
  · rw [t.tryOn_same hpaths] at hafter
    have hsame := hread.trans hafter
    exact ⟨hsame.store_eq, .same hpaths hsame.files_eq⟩
  · obtain ⟨files, hsave⟩ := hwritable.save { paths := t.apply s.expandedPaths }
    rw [t.tryOn_written hpaths hsave] at hafter
    have hend := (OnlyAdds.emit .commands { (readExpansion.run s).2 with files }).trans hafter
    have hfiles : (s.after t.action).files = files := hend.files_eq
    refine ⟨hend.store_eq.trans hread.store_eq, .written hpaths ?_⟩
    rw [hfiles, hsave]

section Toggles

variable {t : Toggle} {s s' : Session} (hstore : s'.store = s.store) (h : Toggles t s s')

include hstore h

theorem Toggles.expandedPaths_eq : s'.expandedPaths = t.apply s.expandedPaths := by
  cases h with
  | same hpaths hfiles => rw [hpaths, expandedPaths_congr hstore hfiles]
  | written hpaths hsave => rw [expandedPaths, hstore, Expansion.load_saved hsave]

theorem Toggles.writable (hwritable : s.files.Writable (Expansion.pathFor s.store)) :
    s'.files.Writable (Expansion.pathFor s'.store) := by
  rw [hstore]
  cases h with
  | same hpaths hfiles => rw [hfiles]; exact hwritable
  | written hpaths hsave => exact FileSystem.Writable.after_write (ok_of_mapError hsave)

end Toggles

/-- The state file after some toggles: it is the same one, it can still be written, and it has the
    paths that the toggles make of those it had. -/
theorem toggled_run (toggles : List Toggle) : ∀ {s : Session},
    s.files.Writable (Expansion.pathFor s.store) →
      (s.toggled toggles).store = s.store ∧
      (s.toggled toggles).files.Writable (Expansion.pathFor s.store) ∧
      (s.toggled toggles).expandedPaths = Toggle.applyAll toggles s.expandedPaths := by
  induction toggles with
  | nil => exact fun hwritable => ⟨rfl, hwritable, rfl⟩
  | cons t rest ih =>
    intro s hwritable
    obtain ⟨hstore, hstep⟩ := toggle_step t hwritable
    obtain ⟨hstore', hwritable', hpaths⟩ := ih (hstep.writable hstore hwritable)
    rw [hstore] at hstore' hwritable'
    rw [hstep.expandedPaths_eq hstore] at hpaths
    exact ⟨hstore', hwritable', hpaths⟩

/-- **The state file is an ordered set of paths** under every sequence of openings and closings of
    groups, whatever was in the file before, as long as it can be written.  The paths loaded from
    it afterwards are those that were loaded before, with each opened path appended unless it is
    there and each closed one dropped wherever it occurs.  A toggle that would not change them
    leaves every file as it is; each other one writes the changed paths to the state file.  A path
    is expanded exactly if its last toggle opened it, or if it has none and was expanded before,
    and paths that were distinct stay distinct. -/
theorem toggled_paths (s : Session) (toggles : List Toggle)
    (hwritable : s.files.Writable (Expansion.pathFor s.store)) :
    (s.toggled toggles).expandedPaths =
      toggles.foldl (fun paths t => t.apply paths) s.expandedPaths ∧
    (∀ earlier t later, toggles = earlier ++ t :: later →
      Toggles t (s.toggled earlier) ((s.toggled earlier).after t.action)) ∧
    (∀ path, path ∈ (s.toggled toggles).expandedPaths ↔
      (∃ earlier t later, toggles = earlier ++ t :: later ∧ t.path = path ∧ t.opens = true ∧
        ∀ u ∈ later, u.path ≠ path) ∨
      (∀ t ∈ toggles, t.path ≠ path) ∧ path ∈ s.expandedPaths) ∧
    (s.expandedPaths.Nodup → (s.toggled toggles).expandedPaths.Nodup) := by
  obtain ⟨-, -, hpaths⟩ := toggled_run toggles hwritable
  refine ⟨hpaths, fun earlier t later _ => ?_, fun path => ?_, fun hnodup => ?_⟩
  · obtain ⟨hstore, hwritable', -⟩ := toggled_run earlier hwritable
    rw [← hstore] at hwritable'
    exact (toggle_step t hwritable').2
  · rw [hpaths]
    exact Toggle.mem_applyAll toggles path s.expandedPaths
  · rw [hpaths]
    exact Toggle.nodup_applyAll toggles hnodup

/-- A state file in which a path stands twice: the path is closed, another one is opened, and one
    that is open stays so. -/
theorem toggled_paths_twice :
    let s : Session :=
      { store := { path := "/s.json" },
        files := ({} : FileSystem).place "/.termdeck-state.json"
          (.file (.text (Expansion.print { paths := ["a", "b", "a"] })) false) }
    let toggles : List Toggle := [⟨"a", false⟩, ⟨"c d", true⟩, ⟨"b", true⟩]
    s.files.Writable (Expansion.pathFor s.store) ∧ s.expandedPaths = ["a", "b", "a"] ∧
      (s.toggled toggles).expandedPaths = ["b", "c d"] ∧
      ((s.toggled toggles.dropLast).after (.expand "b")).files = (s.toggled toggles.dropLast).files := by
  intro s toggles
  have hpath : Expansion.pathFor s.store = "/.termdeck-state.json" := by decide +kernel
  have hread : s.files.read "/.termdeck-state.json" =
      .ok (.text (Expansion.print { paths := ["a", "b", "a"] })) := rfl
  have hwritable : s.files.Writable (Expansion.pathFor s.store) := by
    rw [hpath]
    exact FileSystem.writable_of_read hread fun _ _ => rfl
  have hpaths : s.expandedPaths = ["a", "b", "a"] := by
    rw [expandedPaths, Expansion.load, FileSystem.readText?, hpath, hread]
    dsimp only
    rw [Expansion.parse_print]
  obtain ⟨hfold, hsteps, -⟩ := toggled_paths s toggles hwritable
  rw [hpaths] at hfold
  refine ⟨hwritable, hpaths, hfold, ?_⟩
  cases hsteps [⟨"a", false⟩, ⟨"c d", true⟩] ⟨"b", true⟩ [] rfl with
  | same _ hfiles => exact hfiles
  | written hne _ =>
    have hthere := (toggled_paths s [⟨"a", false⟩, ⟨"c d", true⟩] hwritable).1
    rw [hthere, hpaths] at hne
    exact absurd rfl hne

end CommandLauncher
