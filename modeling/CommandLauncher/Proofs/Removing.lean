/-
  REMOVING — what a removal does to settings that others change at its question.

  1. **The question** — a removal asks once, and only if there is something to be removed.  The
     list from which it then takes entries is the one that it read before the question.

  2. **What is written** — `remove_writes` says what the file holds afterwards: the settings as
     they stood on disk when the question was answered, but with that earlier list without the
     entries of the key.  So entries that others put into the list at the question are lost, and
     entries that they took out are back, unless the two lists agree in all other entries.

  3. **A loss** — `remove_loses_entry` is such a run.
-/
import CommandLauncher.Proofs.Parts
import CommandLauncher.Proofs.Refreshing

namespace CommandLauncher

open Session

/-! ## The attempt -/

section Attempting

variable {α : Type} (c : Catalog α) (key : String) {s : Session} {before : Settings}

/-- The question of a removal. -/
def askRemoval : SessionM (Option Bool) :=
  askConfirm ("Remove " ++ c.noun ++ " " ++ Attempt.shownKey key ++ "?") false

theorem askRemoval_eq : askRemoval c key =
    askOnce (.confirm ("Remove " ++ c.noun ++ " " ++ Attempt.shownKey key ++ "?") false)
      fun | .flag b => some b | _ => none := rfl

/-- A confirmed removal takes an answer and writes down the question. -/
theorem askRemoval_run (hattended : s.attended = true) (hreply : s.reply = .flag true) :
    ((askRemoval c key).run s).1 = some true ∧
      OnlyAdds (s.answered 1) ((askRemoval c key).run s).2 := by
  rw [askRemoval_eq, askOnce_of_attended _ _ hattended, hreply]
  exact ⟨rfl, OnlyAdds.record _ _⟩

/-- What is reported of a removal. -/
def reportRemoved : Attempt Unit := do
  log .info .launcher ("Removed " ++ c.noun ++ " " ++ Attempt.shownKey key)
  Attempt.emit c.part

/-- What a confirmed removal does with the list that it read. -/
def takeOut (entries : List α) : Attempt Unit := do
  Attempt.onSettings (replaceEntries c (without c.key key entries))
  reportRemoved c key

/-- A list that cannot be written is a failure, and nothing else. -/
theorem tryOn_takeOut_unwritable {entries : List α} {now : Settings} {cause : FileError}
    (hnow : s.onDisk = .ok now) (hrefused : ∀ c, s.files.write s.store.path c = .error cause) :
    ∃ s₂, tryOn (takeOut c key entries) s =
      (.error (.settings (.unwritable s.store.path cause)), s₂) ∧ Adds [] s s₂ := by
  obtain ⟨s₂, hfailed, hsilent⟩ :=
    tryOn_replaceEntries_unwritable c (without c.key key entries) hnow hrefused
  refine ⟨s₂, ?_, hsilent⟩
  rw [takeOut, tryOn_bind_error hfailed]

variable (hread : s.onDisk = .ok before)

include hread

/-- A removal with nothing to be removed asks nothing. -/
theorem tryOn_remove_absent (habsent : ∀ e ∈ c.entries before, c.key e ≠ key) :
    tryOn (Attempt.remove c key) s = tryOn (Attempt.noteAbsence c key) (readSettings.run s).2 := by
  have hany : ¬ ((c.entries before).any fun e => c.key e = key) = true := by
    simpa using habsent
  rw [Attempt.remove, tryOn_bind_ok (tryOn_readSettings_ok hread)]
  dsimp only
  rw [if_neg hany]

section There

variable (hthere : ∃ e ∈ c.entries before, c.key e = key)

include hthere

/-- A removal writes its list if it is confirmed. -/
theorem tryOn_remove_there :
    tryOn (Attempt.remove c key) s =
      let asked := (askRemoval c key).run (readSettings.run s).2
      if asked.1 = some true then tryOn (takeOut c key (c.entries before)) asked.2
      else (.ok (), asked.2) := by
  have hany : ((c.entries before).any fun e => c.key e = key) = true := by
    simpa using hthere
  rw [Attempt.remove, tryOn_bind_ok (tryOn_readSettings_ok hread)]
  dsimp only
  rw [if_pos hany, tryOn_bind_lift, askRemoval]
  split
  · rfl
  · rfl

/-- The list is written after the question, and then reported. -/
theorem tryOn_remove_saved {now : Settings} (hattended : s.attended = true)
    (hreply : s.reply = .flag true) (hnow : (s.answered 1).onDisk = .ok now)
    (hwritable : (s.answered 1).files.Writable s.store.path) :
    ∃ s₁ s₂, OnlyAdds (s.answered 1) s₁ ∧
      Saved (c.replace (without c.key key (c.entries before)) now) s₁ s₂ ∧
      tryOn (Attempt.remove c key) s = tryOn (reportRemoved c key) s₂ := by
  obtain ⟨hyes, hasked⟩ := askRemoval_run c key (s := (readSettings.run s).2) hattended hreply
  have hadds : OnlyAdds (s.answered 1) ((askRemoval c key).run (readSettings.run s).2).2 :=
    OnlyAdds.trans ⟨[], (Adds.readSettings s).answered 1⟩ hasked
  -- the entries are those of `before`, the settings that they go into are `now`
  obtain ⟨s₂, hwritten, hsaved⟩ := tryOn_replaceEntries c
    (without c.key key (c.entries before)) (hadds.onDisk_eq.trans hnow) (hadds.writable hwritable)
  refine ⟨_, s₂, hadds, hsaved, ?_⟩
  rw [tryOn_remove_there c key hread hthere]
  dsimp only
  rw [if_pos hyes, takeOut, tryOn_bind_ok hwritten]

/-- The list is written after the question, and afterwards only reported. -/
theorem remove_saved {now : Settings} (hattended : s.attended = true)
    (hreply : s.reply = .flag true) (hnow : (s.answered 1).onDisk = .ok now)
    (hwritable : (s.answered 1).files.Writable s.store.path) :
    ∃ s₁ s₂, OnlyAdds (s.answered 1) s₁ ∧
      Saved (c.replace (without c.key key (c.entries before)) now) s₁ s₂ ∧
      OnlyAdds s₂ (tryOn (Attempt.remove c key) s).2 := by
  obtain ⟨s₁, s₂, hasked, hsaved, hrest⟩ :=
    tryOn_remove_saved c key hread hthere hattended hreply hnow hwritable
  refine ⟨s₁, s₂, hasked, hsaved, ?_⟩
  rw [hrest]
  exact (OnlyAdds.record _ s₂).trans (OnlyAdds.emit _ _)

end There

end Attempting

/-! ## What a removal writes -/

/-- Taking entries away leaves settings usable. -/
theorem Part.problem?_replace_without (p : Part) (key : String) {before now : Settings}
    (hbefore : before.problem? = none) (hnow : now.problem? = none) :
    (p.catalog.replace (without p.catalog.key key (p.catalog.entries before)) now).problem? =
      none := by
  refine Part.problem?_replace hnow fun e he => .inr ?_
  have hmem := (List.mem_filter.mp he).1
  cases p with
  | vars => trivial
  | commands => exact Settings.problem?_eq_none_iff.mp hbefore e hmem

section Removed

variable {p : Part} {key : String} {s : Session} {before now : Settings}
  (hread : s.onDisk = .ok before) (hthere : ∃ e ∈ p.catalog.entries before, p.catalog.key e = key)
  (hattended : s.attended = true) (hreply : s.reply = .flag true)
  (hnow : (s.answered 1).onDisk = .ok now)
  (hwritable : (s.answered 1).files.Writable s.store.path)

include hread hthere hattended hreply hnow hwritable

/-- What is in the file, and on disk, after a removal. -/
theorem removed :
    let written := p.catalog.replace (without p.catalog.key key (p.catalog.entries before)) now
    let after := ((perform (.remove p key)).run s).2
    after.store = s.store ∧ after.files.readText? s.store.path = some (written.print (Format.ofPath s.store.path)) ∧
      (written.ReadsBack (Format.ofPath s.store.path) → after.onDisk = .ok written) := by
  intro written after
  obtain ⟨s₁, s₂, hasked, hsaved, hadds⟩ :=
    remove_saved p.catalog key hread hthere hattended hreply hnow hwritable
  have hattempt : (Action.remove p key).attempt = Attempt.remove p.catalog key := by
    cases p <;> rfl
  have hend := OnlyAdds.perform (.remove p key) s
  rw [hattempt] at hend
  have hproblem : written.problem? = none :=
    p.problem?_replace_without key (problem?_of_onDisk hread) (problem?_of_onDisk hnow)
  have hreported := hadds.trans hend
  obtain ⟨htext, honDisk⟩ := hsaved.remains hasked.store_eq hreported
  have hstore : after.store = s.store :=
    hreported.store_eq.trans (hsaved.store_eq.trans hasked.store_eq)
  exact ⟨hstore, htext, fun hback => honDisk hback hproblem⟩

end Removed

/-- **A confirmed removal writes the list that it read before its question**, without the entries
    of the key, if the file can then be written; all else is what stood on disk when the question
    was answered.  So no change to the list at the question is lost exactly where the two lists
    agree in all other entries. -/
theorem remove_writes (p : Part) (key : String) (s : Session) (before now : Settings)
    (hread : s.onDisk = .ok before)
    (hthere : ∃ e ∈ p.catalog.entries before, p.catalog.key e = key)
    (hattended : s.attended = true) (hreply : s.reply = .flag true)
    (hnow : (s.answered 1).onDisk = .ok now)
    (hwritable : (s.answered 1).files.Writable s.store.path) :
    let after := ((perform (.remove p key)).run s).2
    let c := p.catalog
    let format := Format.ofPath s.store.path
    let written := c.replace (without c.key key (c.entries before)) now
    let expected := c.replace (without c.key key (c.entries now)) now
    after.files.readText? s.store.path = some (written.print format) ∧
    ((format = .yaml → written.ReadsBack .yaml) →
      after.onDisk = .ok written ∧
      (after.onDisk = .ok expected ↔
        without c.key key (c.entries before) = without c.key key (c.entries now))) := by
  intro after c format written expected
  obtain ⟨-, htext, hreads⟩ := removed hread hthere hattended hreply hnow hwritable
  refine ⟨htext, fun hyaml => ?_⟩
  have honDisk : after.onDisk = .ok written := hreads (Settings.readsBack_of_yaml hyaml)
  refine ⟨honDisk, ?_⟩
  rw [honDisk]
  constructor
  · intro h
    have hlists := congrArg c.entries (Except.ok.inj h)
    rwa [p.entries_replace, p.entries_replace] at hlists
  · intro h
    show Except.ok (c.replace _ now) = Except.ok (c.replace _ now)
    rw [h]

/-- A shell that somebody writes at the question stays. -/
theorem remove_keeps_shell :
    let before : Settings := { vars := [{ name := "a" }, { name := "b" }] }
    let now : Settings := { before with shell := some "sh" }
    let s := meanwhile before now (.flag true) []
    (s.onDisk = .ok before ∧ (∃ v ∈ before.vars, v.name = "a") ∧ s.attended = true ∧
      s.reply = .flag true ∧ (s.answered 1).onDisk = .ok now ∧
      (s.answered 1).files.Writable s.store.path) ∧
    ((perform (.remove .vars "a")).run s).2.onDisk = .ok { now with vars := [{ name := "b" }] } := by
  intro before now s
  have hread : s.onDisk = .ok before := onDisk_meanwhile _ _ rfl
  have hthere : ∃ v ∈ before.vars, v.name = "a" := ⟨{ name := "a" }, by decide, rfl⟩
  have hnow : (s.answered 1).onDisk = .ok now := onDisk_meanwhile_answered _ _ rfl
  have hwritable : (s.answered 1).files.Writable s.store.path :=
    writable_meanwhile_answered before now (.flag true) []
  obtain ⟨-, h⟩ := remove_writes .vars "a" s before now hread hthere rfl rfl hnow hwritable
  exact ⟨⟨hread, hthere, rfl, rfl, hnow, hwritable⟩,
    (h fun hyaml => absurd (format_meanwhile.symm.trans hyaml) nofun).1⟩

/-- A variable that somebody writes at the question is lost. -/
theorem remove_loses_entry :
    let before : Settings := { vars := [{ name := "a" }] }
    let now : Settings := { vars := [{ name := "a" }, { name := "b" }] }
    let s := meanwhile before now (.flag true) []
    let after := ((perform (.remove .vars "a")).run s).2
    s.onDisk = .ok before ∧ (s.answered 1).onDisk = .ok now ∧ after.onDisk = .ok {} ∧
      after.onDisk ≠ .ok { now with vars := without Variable.name "a" now.vars } := by
  intro before now s after
  have hread : s.onDisk = .ok before := onDisk_meanwhile _ _ rfl
  have hthere : ∃ v ∈ before.vars, v.name = "a" := ⟨{ name := "a" }, by decide, rfl⟩
  have hnow : (s.answered 1).onDisk = .ok now := onDisk_meanwhile_answered _ _ rfl
  have hafter : after.onDisk = .ok {} := by
    have hwritable := writable_meanwhile_answered before now (.flag true) []
    refine (removed (p := .vars) hread hthere rfl rfl hnow hwritable).2.2 ?_
    exact Settings.readsBack_of_yaml fun hyaml => absurd (format_meanwhile.symm.trans hyaml) nofun
  refine ⟨hread, hnow, hafter, ?_⟩
  rw [hafter]
  intro h
  exact absurd (congrArg Settings.vars (Except.ok.inj h)) (by decide)

end CommandLauncher
