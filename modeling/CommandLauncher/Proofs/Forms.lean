/-
  FORMS — what a form gives when it is completed, and what it leaves alone.

  1. **Surroundings** — asking takes answers, lets others change the files and writes down
     events.  Everything else of the session stays as it was (`SamePlace`).

  2. **Results** — `Gives P x` says that whatever the user answers, a completed form `x` gives a
     result with `P`, and that the surroundings stay.  It goes through forms one question at a
     time (`Gives.bind`).  A text that came around its check is looked at once more, so every
     text of a completed form has passed (`Gives.text`).

  3. **Forms** — variables and commands from forms are well-formed, and a command keeps the icon of
     the command that the form started from.
-/
import CommandLauncher.Dialog.Forms
import CommandLauncher.Proofs.Sessions
import CommandLauncher.Proofs.WellFormed

namespace CommandLauncher

open Session

/-! ## Surroundings -/

/-- Two sessions in the same surroundings. -/
structure SamePlace (s s' : Session) : Prop where
  store : s'.store = s.store
  environment : s'.environment = s.environment
  attended : s'.attended = s.attended
  terminal : s'.terminal = s.terminal
  subscribers : s'.subscribers = s.subscribers

namespace SamePlace

variable {s s' s'' : Session}

theorem refl (s : Session) : SamePlace s s := ⟨rfl, rfl, rfl, rfl, rfl⟩

theorem trans (h : SamePlace s s') (h' : SamePlace s' s'') : SamePlace s s'' :=
  ⟨h'.store.trans h.store, h'.environment.trans h.environment, h'.attended.trans h.attended,
    h'.terminal.trans h.terminal, h'.subscribers.trans h.subscribers⟩

theorem of_adds {shown : List Event} (h : Adds shown s s') : SamePlace s s' := by
  obtain ⟨es, rfl, -⟩ := h
  exact ⟨rfl, rfl, rfl, rfl, rfl⟩

theorem of_asks {qs : List Question} (h : Asks qs s s') : SamePlace s s' := by
  obtain ⟨es, rfl, -⟩ := h
  exact ⟨rfl, rfl, rfl, rfl, rfl⟩

theorem askText (message : String) (initial : Option String) (check : Check) (s : Session) :
    SamePlace s ((Session.askText message initial check).run s).2 := by
  have hrun : (Session.askText message initial check).run s =
      (if !s.attended then (unanswered : SessionM (Option String)) else do
        let outcome := awaitText s.store.path check s.answers s.files []
        set { s with answers := outcome.answers, files := outcome.files }
        record [.asked (.text message initial) outcome.refused]
        return outcome.text).run s := rfl
  -- waiting for a text may take many answers, but it hands back only answers and files
  rw [hrun]
  split
  · exact of_adds (Adds.log .debug .prompt unattendedNote s)
  · exact ⟨rfl, rfl, rfl, rfl, rfl⟩

end SamePlace

/-! ## Results -/

/-- `Gives P x` — the form `x` stays in its surroundings, and gives a result with `P` if it gives
    one at all. -/
def Gives {α : Type} (P : α → Prop) (x : Form α) : Prop :=
  ∀ s, SamePlace s (tryOn x s).2 ∧ ∀ a, (tryOn x s).1 = .ok a → P a

namespace Gives

variable {α β : Type} {P : α → Prop} {Q : β → Prop}

theorem pure {a : α} (h : P a) : Gives P (Pure.pure a : Form α) := by
  intro s
  refine ⟨SamePlace.refl s, fun b hb => ?_⟩
  obtain rfl : a = b := Except.ok.inj hb
  exact h

theorem throw (stop : Stop) : Gives P (MonadExcept.throw stop : Form α) :=
  fun s => ⟨SamePlace.refl s, fun _ h => nomatch h⟩

theorem bind {x : Form α} {f : α → Form β} (hx : Gives P x) (hf : ∀ a, P a → Gives Q (f a)) :
    Gives Q (x >>= f) := by
  intro s
  obtain ⟨hplace, hresult⟩ := hx s
  rw [tryOn_bind]
  cases h : tryOn x s with
  | mk r s' =>
    rw [h] at hplace hresult
    cases r with
    | error e => exact ⟨hplace, fun _ h => nomatch h⟩
    | ok a =>
      obtain ⟨hplace', hresult'⟩ := hf a (hresult a rfl) s'
      exact ⟨hplace.trans hplace', hresult'⟩

theorem weaken {R : α → Prop} {x : Form α} (h : Gives P x) (hPR : ∀ a, P a → R a) : Gives R x :=
  fun s => ⟨(h s).1, fun a ha => hPR a ((h s).2 a ha)⟩

/-- A question, with any result. -/
theorem answer {ask : SessionM (Option α)} (h : ∀ s, SamePlace s (ask.run s).2) :
    Gives (fun _ => True) (Form.answer ask) := by
  have hask : Gives (fun _ : Option α => True) (liftM ask : Form (Option α)) :=
    fun s => ⟨h s, fun _ _ => trivial⟩
  refine hask.bind fun a _ => ?_
  cases a with
  | none => exact throw _
  | some a => exact pure trivial

/-- A text of a completed form has passed its check. -/
theorem text (message : String) (initial : Option String) (check : Check) :
    Gives (fun t => check t = none) (Form.text message initial check) := by
  refine (answer (SamePlace.askText message initial check)).bind fun t _ => ?_
  -- the prompt may hand on a text that its check refused; the form then stops
  cases h : check t with
  | some problem => exact throw _
  | none => exact pure h

theorem askOnce (q : Question) (read : Reply → Option α) :
    Gives (fun _ => True) (Form.answer (Session.askOnce q read)) :=
  answer fun s => SamePlace.of_asks (Asks.askOnce q read s)

theorem select (message : String) (options : List String) (start : Nat) :
    Gives (fun _ => True) (Form.select message options start) := askOnce _ _

theorem confirm (message : String) (proposed : Bool) :
    Gives (fun _ => True) (Form.confirm message proposed) := askOnce _ _

end Gives

/-! ## Forms -/

namespace Gives

/-- A value from the form, with the options it was picked from. -/
theorem variableValue (initial : Option Variable) (kind : Nat) :
    Gives (fun v => ∀ options, v.2 = some options → (options ≠ [] ∧ v.1 ∈ options) ∧
        ∀ o ∈ options, Text.IsTidy o ∧ ',' ∉ o.toList)
      (Form.variableValue initial kind) := by
  rw [Form.variableValue]
  split
  · refine (text _ _ _).bind fun input _ => (select _ _ _).bind fun picked _ => ?_
    split
    · rename_i value hvalue
      have hmem := List.mem_of_getElem? hvalue
      refine pure fun options ho => ?_
      obtain rfl := Option.some.inj ho
      exact ⟨⟨List.ne_nil_of_mem hmem, hmem⟩, fun o ho => Text.isTidy_of_mem_parts ho⟩
    · exact throw _
  · exact (text _ _ _).bind fun value _ => pure nofun

/-- A variable from the form is well-formed. -/
theorem variableForm (initial : Option Variable) :
    Gives Variable.WellFormed (Form.variableForm initial) := by
  refine (text _ _ _).bind fun name hname => (select _ _ _).bind fun kind _ =>
    (variableValue _ _).bind fun value hvalue => (text _ _ _).bind fun description _ => pure ?_
  constructor
  · exact ⟨isName_of_check hname, Text.trim_trim name⟩
  · exact hvalue
  · dsimp only
    exact fun _ => Text.isTidy_of_nonBlank

/-- A command from the form is well-formed, and has the icon of the one that the form started
    from. -/
theorem commandForm (initial : Option Command) :
    Gives (fun c => c.WellFormed ∧
      ∀ old, initial = some old → c.icon = old.icon ∧ c.iconColor = old.iconColor)
      (Form.commandForm initial) := by
  refine (text _ _ _).bind fun title htitle => (text _ _ _).bind fun command hcommand =>
    (text _ _ _).bind fun group _ => (text _ _ _).bind fun description _ =>
      (confirm _ _).bind fun enter _ => pure ⟨?_, ?_⟩
  · constructor
    · exact isTidy_of_check htitle
    · exact isTidy_of_check hcommand
    · dsimp only
      exact fun _ => Text.isTidy_of_nonBlank
    · dsimp only
      exact fun _ => Text.isTidy_of_nonBlank
  · rintro old rfl
    exact ⟨rfl, rfl⟩

end Gives

/-- A form that is completed whatever was written down before is completed after reading. -/
theorem completed_after_reading {α : Type} {x : Form α} {a : α} (s s' : Session)
    (h : ∀ es, (tryOn x { s with events := es }).1 = .ok a ∧
      (tryOn x { s with events := es }).2.store = s'.store ∧
      (tryOn x { s with events := es }).2.files = s'.files) :
    ∃ s₁, tryOn x (readSettings.run s).2 = (.ok a, s₁) ∧ s₁.onDisk = s'.onDisk ∧
      s₁.files = s'.files := by
  obtain ⟨es, hes, -⟩ := Adds.readSettings s
  obtain ⟨hresult, hstore, hfiles⟩ := h (s.events ++ es)
  rw [hes]
  exact ⟨_, Prod.ext hresult rfl, onDisk_congr hstore hfiles, hfiles⟩

end CommandLauncher
