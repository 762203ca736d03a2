/-
  REFRESHING — the subscribers are told, and nothing else happens.

  Whoever is told of a change writes something down at most: one that prints the tree reads the
  expansion state for it, and nobody writes a file or complains.  So a refresh leaves all files as
  they are, and the settings on disk with them, and it fails only where these cannot be read.
-/
import CommandLauncher.Proofs.Sessions

namespace CommandLauncher

open Session

namespace Calm

theorem readSettings (s : Session) : Calm s (Session.readSettings.run s).2 :=
  of_silent (Adds.readSettings s)

theorem readExpansion (s : Session) : Calm s (Session.readExpansion.run s).2 := by
  rw [Session.readExpansion, run_bind]
  dsimp only
  split
  · exact record (by simp [Event.isFailure]) s
  · exact refl s

theorem printLines (lines : List String) (s : Session) :
    Calm s ((Session.printLines lines).run s).2 := by
  refine record (fun e he => ?_) s
  obtain ⟨line, -, rfl⟩ := List.mem_map.mp he
  rfl

theorem react (part : Part) (settings : Settings) (subscriber : Subscriber) (s : Session) :
    Calm s ((Session.react part settings subscriber).run s).2 := by
  cases subscriber with
  | observer => exact refl s
  | variableView =>
    cases part with
    | vars => exact printLines _ s
    | commands => exact refl s
  | treeView everythingOpen =>
    cases part with
    | vars => exact refl s
    | commands => exact (readExpansion s).trans (printLines _ _)

theorem tell (part : Part) (settings : Settings) (subscribers : List Subscriber) :
    ∀ (n : Nat) (s : Session), Calm s ((Session.tell part settings n subscribers).run s).2 := by
  induction subscribers with
  | nil => exact fun _ s => refl s
  | cons subscriber rest ih =>
    intro n s
    have hrecord : Calm s ((Session.record [.refreshed n part settings]).run s).2 :=
      record (by simp [Event.isFailure]) s
    exact (hrecord.trans (react part settings subscriber _)).trans (ih (n + 1) _)

theorem refresh (part : Part) (settings : Settings) (s : Session) :
    Calm s ((Session.refresh part settings).run s).2 :=
  tell part settings s.subscribers 0 s

end Calm

theorem emit_unreadable {part : Part} {s : Session} {e : SettingsError} (h : s.onDisk = .error e) :
    tryOn (Attempt.emit part) s = (.error (.settings e), (readSettings.run s).2) := by
  rw [Attempt.emit, tryOn_bind_error (tryOn_readSettings_error h)]

/-- Readable settings can be told. -/
theorem emit_readable (part : Part) {s : Session} {settings : Settings}
    (h : s.onDisk = .ok settings) :
    (tryOn (Attempt.emit part) s).1 = .ok () ∧ Calm s (tryOn (Attempt.emit part) s).2 := by
  rw [Attempt.emit, tryOn_bind_ok (tryOn_readSettings_ok h)]
  exact ⟨rfl, (Calm.readSettings s).trans (Calm.refresh part settings _)⟩

theorem OnlyAdds.readSettings (s : Session) : OnlyAdds s (Session.readSettings.run s).2 :=
  (Calm.readSettings s).onlyAdds

theorem OnlyAdds.emit (part : Part) (s : Session) :
    OnlyAdds s (tryOn (Attempt.emit part) s).2 := by
  cases h : s.onDisk with
  | error e =>
    rw [emit_unreadable h]
    exact readSettings s
  | ok settings => exact (emit_readable part h).2.onlyAdds

end CommandLauncher
